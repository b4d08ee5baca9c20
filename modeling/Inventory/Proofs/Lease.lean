import Inventory.Lease
import Mathlib.Data.List.Nodup
import Mathlib.Logic.Function.Basic

/-! # Leases and threads

Threads take turns at the leases of a tree, each turn in one piece: a look in a call that waits for a
lease, an attempt to take one at once, a drop. Between two looks a thread sleeps. It wakes when a
lease is dropped, or for no reason, or at its deadline, and others may have their turns before it
looks again. Whatever the order of the turns, no hierarchy is granted twice. -/
namespace Inventory
set_option autoImplicit false

namespace Leases
variable {leases : Leases} {hierarchy h : HierarchyId} {timeout : Option Nat} {e : Error}

theorem mem_insertId {id : HierarchyId} {held : List HierarchyId} :
    h ∈ insertId id held ↔ h = id ∨ h ∈ held := by
  induction held with
  | nil => simp [insertId]
  | cons first rest ih =>
    rw [insertId]
    by_cases hle : id ≤ first
    · rw [if_pos hle, List.mem_cons]
    · rw [if_neg hle, List.mem_cons, ih, List.mem_cons]
      tauto

theorem mem_grant : h ∈ (leases.grant hierarchy).held ↔ h = hierarchy ∨ h ∈ leases.held :=
  mem_insertId

theorem mem_release : h ∈ (leases.release hierarchy).held ↔ h ∈ leases.held ∧ h ≠ hierarchy := by
  rw [release, List.mem_filter, bne_iff_ne]

theorem isHeld_iff : leases.isHeld hierarchy = true ↔ hierarchy ∈ leases.held := by
  rw [isHeld, List.contains_iff_mem]

theorem acquire_of_held (hheld : hierarchy ∈ leases.held) : leases.acquire hierarchy timeout =
    .error (if timeout.isSome then .lockTimeout hierarchy else .waitsForever hierarchy) := by
  rw [acquire, if_pos (isHeld_iff.2 hheld)]

theorem acquire_of_free (hfree : hierarchy ∉ leases.held) :
    leases.acquire hierarchy timeout = .ok (leases.grant hierarchy) := by
  rw [acquire, if_neg (mt isHeld_iff.1 hfree)]

theorem tryAcquire_of_held (hheld : hierarchy ∈ leases.held) :
    leases.tryAcquire hierarchy = none := by
  rw [tryAcquire, if_pos (isHeld_iff.2 hheld)]

theorem tryAcquire_of_free (hfree : hierarchy ∉ leases.held) :
    leases.tryAcquire hierarchy = some (leases.grant hierarchy) := by
  rw [tryAcquire, if_neg (mt isHeld_iff.1 hfree)]

end Leases

/-! ## Turns -/

/-- Where a thread is: not in a call that waits, or asleep in one, or awake in it and about to look
again, after its deadline or not. -/
inductive Stage where
  | outside
  | asleep (hierarchy : HierarchyId) (timeout : Option Nat)
  | awake (hierarchy : HierarchyId) (timeout : Option Nat) (expired : Bool)
  deriving DecidableEq

/-- The leases of a tree and the threads that share them. -/
structure Lock where
  leases : Leases := {}
  /-- The hierarchies of the leases that were handed out and have not been dropped. -/
  outstanding : List HierarchyId := []
  stage : Nat → Stage := fun _ => .outside

namespace Lock

/-- What a thread does, with what comes of it. -/
inductive Event where
  /-- It gets a lease, from a call that waits or from an attempt. -/
  | granted (thread : Nat) (hierarchy : HierarchyId)
  /-- It has looked in vain and falls asleep. -/
  | slept (thread : Nat) (hierarchy : HierarchyId)
  | woke (thread : Nat)
  /-- Its deadline has passed. -/
  | expired (thread : Nat)
  /-- Its call fails. -/
  | failed (thread : Nat) (e : Error)
  /-- Its attempt comes to nothing. -/
  | refused (thread : Nat) (hierarchy : HierarchyId)
  | dropped (thread : Nat) (hierarchy : HierarchyId)
  deriving DecidableEq

def Event.thread : Event → Nat
  | granted thread _ | slept thread _ | woke thread | expired thread | failed thread _
  | refused thread _ | dropped thread _ => thread

/-- A call or an attempt ends without a lease. -/
def Event.isFailure : Event → Bool
  | failed .. | refused .. => true
  | _ => false

/-- A lease changes hands. -/
def Event.isTransfer : Event → Bool
  | granted .. | dropped .. => true
  | _ => false

def move (l : Lock) (thread : Nat) (stage : Stage) : Lock :=
  { l with stage := Function.update l.stage thread stage }

/-- The thread gets a lease, which leaves the given ones held. -/
def handOut (l : Lock) (thread : Nat) (hierarchy : HierarchyId) (leases : Leases) : Lock :=
  { l.move thread .outside with leases, outstanding := hierarchy :: l.outstanding }

/-- A look in a call that waits. After the deadline it is the last one. -/
def look (l : Lock) (thread : Nat) (hierarchy : HierarchyId) (timeout : Option Nat)
    (expired : Bool) : Event × Lock :=
  match l.leases.acquire hierarchy timeout with
  | .ok leases => (.granted thread hierarchy, l.handOut thread hierarchy leases)
  | .error e =>
    if expired then (.failed thread e, l.move thread .outside)
    else (.slept thread hierarchy, l.move thread (.asleep hierarchy timeout))

def attempt (l : Lock) (thread : Nat) (hierarchy : HierarchyId) : Event × Lock :=
  match l.leases.tryAcquire hierarchy with
  | some leases => (.granted thread hierarchy, l.handOut thread hierarchy leases)
  | none => (.refused thread hierarchy, l)

def drop (l : Lock) (hierarchy : HierarchyId) : Lock :=
  { l with
    leases := l.leases.release hierarchy
    outstanding := l.outstanding.erase hierarchy }

/-- One turn of a thread, or its waking up. A lease may be dropped by another thread than the one
that got it. -/
inductive Step : Lock → Event → Lock → Prop
  | call {l : Lock} {thread : Nat} (hierarchy : HierarchyId) (timeout : Option Nat)
      (hstage : l.stage thread = .outside) :
    Step l (l.look thread hierarchy timeout false).1 (l.look thread hierarchy timeout false).2
  | wake {l : Lock} {thread : Nat} {hierarchy : HierarchyId} {timeout : Option Nat}
      (hstage : l.stage thread = .asleep hierarchy timeout) :
    Step l (.woke thread) (l.move thread (.awake hierarchy timeout false))
  | expire {l : Lock} {thread : Nat} {hierarchy : HierarchyId} {bound : Nat}
      (hstage : l.stage thread = .asleep hierarchy (some bound)) :
    Step l (.expired thread) (l.move thread (.awake hierarchy (some bound) true))
  | again {l : Lock} {thread : Nat} {hierarchy : HierarchyId} {timeout : Option Nat}
      {expired : Bool} (hstage : l.stage thread = .awake hierarchy timeout expired) :
    Step l (l.look thread hierarchy timeout expired).1 (l.look thread hierarchy timeout expired).2
  | attempt {l : Lock} {thread : Nat} (hierarchy : HierarchyId)
      (hstage : l.stage thread = .outside) :
    Step l (l.attempt thread hierarchy).1 (l.attempt thread hierarchy).2
  | drop {l : Lock} {thread : Nat} {hierarchy : HierarchyId}
      (hstage : l.stage thread = .outside) (hlease : hierarchy ∈ l.outstanding) :
    Step l (.dropped thread hierarchy) (l.drop hierarchy)

/-- Any number of turns of any number of threads, in any order. -/
inductive Run : Lock → List Event → Lock → Prop
  | refl (l : Lock) : Run l [] l
  | step {l m n : Lock} {event : Event} {log : List Event} (hstep : Step l event m)
      (hrest : Run m log n) : Run l (event :: log) n

variable {l m : Lock} {event : Event} {log : List Event} {thread : Nat}
  {hierarchy h : HierarchyId} {timeout : Option Nat} {expired : Bool}

/-! ## What comes of a turn -/

theorem look_of_free (hfree : hierarchy ∉ l.leases.held) :
    l.look thread hierarchy timeout expired =
      (.granted thread hierarchy, l.handOut thread hierarchy (l.leases.grant hierarchy)) := by
  rw [look, Leases.acquire_of_free hfree]

theorem look_of_held (hheld : hierarchy ∈ l.leases.held) :
    l.look thread hierarchy timeout false =
      (.slept thread hierarchy, l.move thread (.asleep hierarchy timeout)) := by
  rw [look, Leases.acquire_of_held hheld]
  rfl

theorem lastLook_of_held (hheld : hierarchy ∈ l.leases.held) :
    l.look thread hierarchy timeout true =
      (.failed thread (if timeout.isSome then .lockTimeout hierarchy else .waitsForever hierarchy),
        l.move thread .outside) := by
  rw [look, Leases.acquire_of_held hheld]
  rfl

theorem attempt_of_free (hfree : hierarchy ∉ l.leases.held) :
    l.attempt thread hierarchy =
      (.granted thread hierarchy, l.handOut thread hierarchy (l.leases.grant hierarchy)) := by
  rw [attempt, Leases.tryAcquire_of_free hfree]

theorem attempt_of_held (hheld : hierarchy ∈ l.leases.held) :
    l.attempt thread hierarchy = (.refused thread hierarchy, l) := by
  rw [attempt, Leases.tryAcquire_of_held hheld]

theorem thread_look : (l.look thread hierarchy timeout expired).1.thread = thread := by
  by_cases hheld : hierarchy ∈ l.leases.held
  · cases expired with
    | true =>
      rw [lastLook_of_held hheld]
      rfl
    | false =>
      rw [look_of_held hheld]
      rfl
  · rw [look_of_free hheld]
    rfl

theorem thread_attempt : (l.attempt thread hierarchy).1.thread = thread := by
  by_cases hheld : hierarchy ∈ l.leases.held
  · rw [attempt_of_held hheld]
    rfl
  · rw [attempt_of_free hheld]
    rfl

/-- A turn takes a free lease, gives one back, or leaves all leases as they are. -/
theorem Step.leases (hstep : Step l event m) :
    (∃ thread hierarchy, event = .granted thread hierarchy ∧ hierarchy ∉ l.leases.held ∧
      m.leases = l.leases.grant hierarchy ∧ m.outstanding = hierarchy :: l.outstanding) ∨
    (∃ thread hierarchy, event = .dropped thread hierarchy ∧ hierarchy ∈ l.outstanding ∧
      m.leases = l.leases.release hierarchy ∧ m.outstanding = l.outstanding.erase hierarchy) ∨
    (event.isTransfer = false ∧ m.leases = l.leases ∧ m.outstanding = l.outstanding) := by
  cases hstep with
  | @call thread hierarchy timeout _ =>
    by_cases hheld : hierarchy ∈ l.leases.held
    · rw [look_of_held hheld]
      exact Or.inr (Or.inr ⟨rfl, rfl, rfl⟩)
    · rw [look_of_free hheld]
      exact Or.inl ⟨thread, hierarchy, rfl, hheld, rfl, rfl⟩
  | wake _ => exact Or.inr (Or.inr ⟨rfl, rfl, rfl⟩)
  | expire _ => exact Or.inr (Or.inr ⟨rfl, rfl, rfl⟩)
  | @again thread hierarchy timeout expired _ =>
    by_cases hheld : hierarchy ∈ l.leases.held
    · cases expired with
      | true =>
        rw [lastLook_of_held hheld]
        exact Or.inr (Or.inr ⟨rfl, rfl, rfl⟩)
      | false =>
        rw [look_of_held hheld]
        exact Or.inr (Or.inr ⟨rfl, rfl, rfl⟩)
    · rw [look_of_free hheld]
      exact Or.inl ⟨thread, hierarchy, rfl, hheld, rfl, rfl⟩
  | @attempt thread hierarchy _ =>
    by_cases hheld : hierarchy ∈ l.leases.held
    · rw [attempt_of_held hheld]
      exact Or.inr (Or.inr ⟨rfl, rfl, rfl⟩)
    · rw [attempt_of_free hheld]
      exact Or.inl ⟨thread, hierarchy, rfl, hheld, rfl, rfl⟩
  | @drop thread hierarchy _ hlease =>
    exact Or.inr (Or.inl ⟨thread, hierarchy, rfl, hlease, rfl, rfl⟩)

/-- A failure takes and frees nothing. -/
theorem Step.of_isFailure (hstep : Step l event m) (hfails : event.isFailure = true) :
    m.leases = l.leases ∧ m.outstanding = l.outstanding := by
  rcases hstep.leases with ⟨_, _, rfl, -⟩ | ⟨_, _, rfl, -⟩ | ⟨-, hsame⟩
  · cases hfails
  · cases hfails
  · exact hsame

theorem Step.of_dropped (hstep : Step l (.dropped thread h) m) :
    h ∈ l.outstanding ∧ m.leases = l.leases.release h ∧ m.outstanding = l.outstanding.erase h := by
  rcases hstep.leases with ⟨_, _, hevent, -⟩ | ⟨_, _, hevent, hrest⟩ | ⟨hnone, -⟩
  · cases hevent
  · cases hevent
    exact hrest
  · cases hnone

/-! ## What all turns keep -/

/-- The hierarchies held are those of the leases that are out, of which no two are for one
hierarchy, and a call that has a deadline behind it had one before it. -/
structure Exclusive (l : Lock) : Prop where
  held : ∀ h, h ∈ l.leases.held ↔ h ∈ l.outstanding
  once : l.outstanding.Nodup
  bounded : ∀ thread hierarchy timeout, l.stage thread = .awake hierarchy timeout true →
    timeout.isSome = true

theorem exclusive_empty : Exclusive {} :=
  ⟨fun _ => Iff.rfl, List.nodup_nil, fun _ _ _ h => nomatch h⟩

namespace Exclusive

theorem move (hl : l.Exclusive) {stage : Stage}
    (hstage : ∀ hierarchy timeout, stage = .awake hierarchy timeout true → timeout.isSome = true) :
    (l.move thread stage).Exclusive where
  held := hl.held
  once := hl.once
  bounded other hierarchy timeout hother := by
    have hupdated : Function.update l.stage thread stage other = .awake hierarchy timeout true :=
      hother
    rw [Function.update_apply] at hupdated
    by_cases hsame : other = thread
    · rw [if_pos hsame] at hupdated
      exact hstage hierarchy timeout hupdated
    · rw [if_neg hsame] at hupdated
      exact hl.bounded other hierarchy timeout hupdated

theorem handOut (hl : l.Exclusive) (hfree : hierarchy ∉ l.leases.held) :
    (l.handOut thread hierarchy (l.leases.grant hierarchy)).Exclusive where
  held h := by
    show h ∈ (l.leases.grant hierarchy).held ↔ h ∈ hierarchy :: l.outstanding
    rw [Leases.mem_grant, List.mem_cons, hl.held]
  once := List.nodup_cons.2 ⟨mt (hl.held hierarchy).2 hfree, hl.once⟩
  bounded := by
    have hmoved : (l.move thread .outside).Exclusive := hl.move fun _ _ h => nomatch h
    exact hmoved.bounded

theorem drop (hl : l.Exclusive) (hierarchy : HierarchyId) : (l.drop hierarchy).Exclusive where
  held h := by
    show h ∈ (l.leases.release hierarchy).held ↔ h ∈ l.outstanding.erase hierarchy
    rw [Leases.mem_release, hl.once.mem_erase_iff, hl.held, and_comm]
  once := hl.once.erase hierarchy
  bounded := hl.bounded

theorem look (hl : l.Exclusive) (thread : Nat) (hierarchy : HierarchyId) (timeout : Option Nat)
    (expired : Bool) : (l.look thread hierarchy timeout expired).2.Exclusive := by
  by_cases hheld : hierarchy ∈ l.leases.held
  · cases expired with
    | true =>
      rw [lastLook_of_held hheld]
      exact hl.move fun _ _ h => nomatch h
    | false =>
      rw [look_of_held hheld]
      exact hl.move fun _ _ h => nomatch h
  · rw [look_of_free hheld]
    exact hl.handOut hheld

theorem step (hl : l.Exclusive) (hstep : Step l event m) : m.Exclusive := by
  cases hstep with
  | call hierarchy timeout _ => exact hl.look _ hierarchy timeout false
  | wake _ => exact hl.move fun _ _ h => by cases h
  | expire _ =>
    refine hl.move fun _ _ h => ?_
    cases h
    rfl
  | again _ => exact hl.look _ _ _ _
  | @attempt thread hierarchy _ =>
    by_cases hheld : hierarchy ∈ l.leases.held
    · rw [attempt_of_held hheld]
      exact hl
    · rw [attempt_of_free hheld]
      exact hl.handOut hheld
  | drop _ _ => exact hl.drop _

theorem run (hl : l.Exclusive) (hrun : Run l log m) : m.Exclusive := by
  induction hrun with
  | refl _ => exact hl
  | step hstep _ ih => exact ih (hl.step hstep)

end Exclusive

/-! ## Calls that wait -/

/-- A thread that wakes up, by whatever, and finds the hierarchy free takes it. -/
theorem Step.of_awake (hstep : Step l event m) (hthread : event.thread = thread)
    (hstage : l.stage thread = .awake hierarchy timeout expired)
    (hfree : hierarchy ∉ l.leases.held) : event = .granted thread hierarchy := by
  subst hthread
  cases hstep with
  | call _ _ hother =>
    rw [thread_look] at hstage
    cases hother.symm.trans hstage
  | wake hother => cases hother.symm.trans hstage
  | expire hother => cases hother.symm.trans hstage
  | again hother =>
    rw [thread_look] at hstage ⊢
    cases hother.symm.trans hstage
    rw [look_of_free hfree]
  | attempt _ hother =>
    rw [thread_attempt] at hstage
    cases hother.symm.trans hstage
  | drop hother _ => cases hother.symm.trans hstage

theorem step_of_awake (hstage : l.stage thread = .awake hierarchy timeout expired)
    (hfree : hierarchy ∉ l.leases.held) :
    Step l (.granted thread hierarchy) (l.handOut thread hierarchy (l.leases.grant hierarchy)) := by
  have hstep := Step.again hstage
  rwa [look_of_free hfree] at hstep

/-- A call fails at a look after its deadline that finds the hierarchy held. -/
theorem Step.of_failed {e : Error} (hstep : Step l event m) (hevent : event = .failed thread e) :
    ∃ hierarchy timeout, l.stage thread = .awake hierarchy timeout true ∧
      hierarchy ∈ l.leases.held ∧
      e = if timeout.isSome then .lockTimeout hierarchy else .waitsForever hierarchy := by
  cases hstep with
  | @call _ hierarchy _ _ =>
    by_cases hheld : hierarchy ∈ l.leases.held
    · rw [look_of_held hheld] at hevent
      cases hevent
    · rw [look_of_free hheld] at hevent
      cases hevent
  | wake _ => cases hevent
  | expire _ => cases hevent
  | @again _ hierarchy timeout expired hstage =>
    by_cases hheld : hierarchy ∈ l.leases.held
    · cases expired with
      | true =>
        rw [lastLook_of_held hheld] at hevent
        cases hevent
        exact ⟨hierarchy, timeout, hstage, hheld, rfl⟩
      | false =>
        rw [look_of_held hheld] at hevent
        cases hevent
    · rw [look_of_free hheld] at hevent
      cases hevent
  | @attempt _ hierarchy _ =>
    by_cases hheld : hierarchy ∈ l.leases.held
    · rw [attempt_of_held hheld] at hevent
      cases hevent
    · rw [attempt_of_free hheld] at hevent
      cases hevent
  | drop _ _ => cases hevent

/-- What a call comes to when nobody else has a turn: with a bound it sleeps to its deadline and
fails, just as the leases answer it at once. -/
theorem run_of_acquire (hstage : l.stage thread = .outside) (bound : Nat) :
    (∀ leases, l.leases.acquire hierarchy (some bound) = .ok leases →
      ∃ m, Run l [.granted thread hierarchy] m ∧ m.leases = leases) ∧
    ∀ e, l.leases.acquire hierarchy (some bound) = .error e →
      ∃ m, Run l [.slept thread hierarchy, .expired thread, .failed thread e] m ∧
        m.leases = l.leases := by
  have hcall := Step.call hierarchy (some bound) hstage
  by_cases hheld : hierarchy ∈ l.leases.held
  · rw [Leases.acquire_of_held hheld]
    rw [look_of_held hheld] at hcall
    let sleeper := l.move thread (.asleep hierarchy (some bound))
    let waker := sleeper.move thread (.awake hierarchy (some bound) true)
    have hexpire : Step sleeper (.expired thread) waker := .expire (Function.update_self ..)
    have hagain : Step waker _ _ := .again (Function.update_self ..)
    have hstill : hierarchy ∈ waker.leases.held := hheld
    rw [lastLook_of_held hstill] at hagain
    constructor
    · intro leases h
      cases h
    · intro e h
      cases h
      exact ⟨_, .step hcall (.step hexpire (.step hagain (.refl _))), rfl⟩
  · rw [Leases.acquire_of_free hheld]
    rw [look_of_free hheld] at hcall
    constructor
    · intro leases h
      cases h
      exact ⟨_, .step hcall (.refl _), rfl⟩
    · intro e h
      cases h

/-- No hierarchy is granted twice. Whatever threads have done: the hierarchies held are those of the
leases that are out, and no two of these are for one hierarchy. Whatever one of them does next: a
failure takes and frees nothing, a drop frees its own hierarchy and no other, a call that has woken
up or timed out takes the hierarchy if that is free, and one that fails has timed out and finds it
held. -/
theorem Run.never_granted_twice (hrun : Run {} log l) :
    (∀ h, h ∈ l.leases.held ↔ h ∈ l.outstanding) ∧ l.outstanding.Nodup ∧
      (∀ event m, Step l event m → event.isFailure = true →
        m.leases = l.leases ∧ m.outstanding = l.outstanding) ∧
      (∀ thread h m, Step l (.dropped thread h) m →
        h ∈ l.outstanding ∧ m.outstanding = l.outstanding.erase h ∧ h ∉ m.outstanding ∧
          ∀ other, other ∈ m.leases.held ↔ other ∈ l.leases.held ∧ other ≠ h) ∧
      (∀ thread h timeout expired, l.stage thread = .awake h timeout expired →
        h ∉ l.leases.held →
          (∃ m, Step l (.granted thread h) m ∧ m.outstanding = h :: l.outstanding) ∧
            ∀ event m, Step l event m → event.thread = thread → event = .granted thread h) ∧
      ∀ thread e m, Step l (.failed thread e) m →
        ∃ h bound, l.stage thread = .awake h (some bound) true ∧ h ∈ l.leases.held ∧
          e = .lockTimeout h := by
  have hl := exclusive_empty.run hrun
  refine ⟨hl.held, hl.once, fun _ _ => Step.of_isFailure, fun thread h m hstep => ?_,
    fun thread h timeout expired hstage hfree =>
      ⟨⟨_, step_of_awake hstage hfree, rfl⟩, fun event m hstep hthread =>
        hstep.of_awake hthread hstage hfree⟩, fun thread e m hstep => ?_⟩
  · obtain ⟨hlease, hleases, hout⟩ := hstep.of_dropped
    rw [hleases, hout]
    exact ⟨hlease, rfl, hl.once.not_mem_erase, fun _ => Leases.mem_release⟩
  · obtain ⟨h, timeout, hstage, hheld, he⟩ := hstep.of_failed rfl
    obtain ⟨bound, rfl⟩ := Option.isSome_iff_exists.1 (hl.bounded thread h timeout hstage)
    exact ⟨h, bound, hstage, hheld, he⟩

/-- Two threads wait for a lease, one to its deadline. That passes, the lease is dropped, and the
late one is still the first to look. -/
def race : List Event :=
  [.granted 1 7, .slept 2 7, .slept 3 7, .expired 2, .dropped 1 7, .granted 2 7, .woke 3, .slept 3 7,
    .refused 1 7]

theorem never_granted_twice_race : ∃ l, Run {} race l ∧ l.outstanding = [7] ∧
    (∀ h, h ∈ l.leases.held ↔ h ∈ l.outstanding) ∧ l.outstanding.Nodup ∧
    ∀ event m, Step l event m → event.isFailure = true →
      m.leases = l.leases ∧ m.outstanding = l.outstanding := by
  have hrun : ∃ l, Run {} race l ∧ l.outstanding = [7] :=
    ⟨_, .step (@Step.call _ 1 7 none rfl) <| .step (@Step.call _ 2 7 (some 40) rfl) <|
      .step (@Step.call _ 3 7 none rfl) <| .step (@Step.expire _ 2 7 40 rfl) <|
      .step (@Step.drop _ 1 7 rfl (List.mem_singleton_self 7)) <|
      .step (@Step.again _ 2 7 (some 40) true rfl) <| .step (@Step.wake _ 3 7 none rfl) <|
      .step (@Step.again _ 3 7 none false rfl) <| .step (@Step.attempt _ 1 7 rfl) <| .refl _, rfl⟩
  obtain ⟨l, hrun, hout⟩ := hrun
  obtain ⟨hheld, honce, hfailure, -⟩ := hrun.never_granted_twice
  exact ⟨l, hrun, hout, hheld, honce, hfailure⟩

end Lock
end Inventory
