import Inventory.Queue
import Mathlib.Data.List.Nodup
import Mathlib.Data.List.Perm.Basic

/-! # The queue of reconciliations

Callers and the worker act on the queue in turn, each of their steps in one piece. Whatever the
order of these steps, every request is accounted for, and one that has been made waits until the
worker takes it after that or it is handed out. -/
namespace Inventory.Queue
set_option autoImplicit false

/-! ## Jobs that have not been done -/

/-- The hierarchies whose jobs have not been done. -/
def jobs (q : Queue) : List HierarchyId := q.waiting.map (·.hierarchy) ++ q.running

theorem mem_jobs_schedule (q : Queue) (hierarchy : HierarchyId) (due : Nat) {h : HierarchyId} :
    h ∈ (q.schedule hierarchy due).2.jobs ↔ h = hierarchy ∨ h ∈ q.jobs := by
  rw [schedule]
  by_cases hpending : q.isPending hierarchy = true
  · rw [if_pos hpending]
    obtain ⟨job, hjob, heq⟩ := List.any_eq_true.1 hpending
    refine ⟨Or.inr, fun hin => hin.elim (fun hnew => ?_) id⟩
    subst hnew
    exact List.mem_append_left _ (List.mem_map.2 ⟨job, hjob, beq_iff_eq.1 heq⟩)
  · rw [if_neg hpending]
    simp only [jobs, List.map_append, List.map_cons, List.map_nil, List.mem_append,
      List.mem_singleton]
    tauto

theorem mem_jobs_takeDue (q : Queue) (now : Nat) {h : HierarchyId} :
    h ∈ (q.takeDue now).jobs ↔ h ∈ q.jobs := by
  simp only [jobs, takeDue, List.mem_append, sortIds, List.mem_mergeSort, List.mem_map,
    List.mem_filter, decide_eq_true_eq]
  constructor
  · rintro (⟨job, ⟨hjob, -⟩, rfl⟩ | hrunning | ⟨job, ⟨hjob, -⟩, rfl⟩)
    · exact Or.inl ⟨job, hjob, rfl⟩
    · exact Or.inr hrunning
    · exact Or.inl ⟨job, hjob, rfl⟩
  · rintro (⟨job, hjob, rfl⟩ | hrunning)
    · rcases Nat.lt_or_ge now job.due with hlater | hdue
      · exact Or.inl ⟨job, ⟨hjob, hlater⟩, rfl⟩
      · exact Or.inr (Or.inr ⟨job, ⟨hjob, hdue⟩, rfl⟩)
    · exact Or.inr (Or.inl hrunning)

theorem jobs_hasten (q : Queue) (now : Nat) : (q.hasten now).jobs = q.jobs := by
  rw [jobs, jobs, hasten]
  by_cases hempty : q.waiting.isEmpty = true
  · rw [if_pos hempty]
  · rw [if_neg hempty, List.map_map]
    rfl

theorem running_hasten (q : Queue) {h : HierarchyId} :
    h ∈ ((q.hasten 0).takeDue 0).running ↔ h ∈ q.jobs := by
  have hnone : ((q.hasten 0).takeDue 0).waiting = [] := by
    rw [takeDue, hasten, List.filter_eq_nil_iff]
    intro job hjob
    by_cases hempty : q.waiting.isEmpty = true
    · rw [if_pos hempty, List.isEmpty_iff.1 hempty] at hjob
      exact absurd hjob List.not_mem_nil
    · rw [if_neg hempty] at hjob
      obtain ⟨_, -, rfl⟩ := List.mem_map.1 hjob
      simp
  rw [← jobs_hasten q 0, ← mem_jobs_takeDue (q.hasten 0) 0, jobs, hnone, List.map_nil, List.nil_append]

theorem jobs_retire (q : Queue) : q.retire.jobs = q.jobs := by
  rw [retire]
  by_cases hempty : q.waiting.isEmpty = true
  · rw [if_pos hempty]
    rfl
  · rw [if_neg hempty]

/-! ## Steps -/

/-- How a job ends. -/
inductive Outcome where
  | ok | error | panic
  deriving DecidableEq

def Outcome.failed : Outcome → Bool
  | ok => false
  | error | panic => true

/-- What callers and the worker do, with what comes of it. -/
inductive Event where
  /-- A request, and whether none was pending. -/
  | requested (hierarchy : HierarchyId) (fresh : Bool)
  /-- A flush makes all that waits due. -/
  | hastened
  /-- All that waited is handed out. -/
  | handedOut (hierarchies : List HierarchyId)
  /-- The worker takes what is due. -/
  | taken (hierarchies : List HierarchyId)
  /-- The worker has run a job. -/
  | ran (hierarchy : HierarchyId) (outcome : Outcome)
  | workerLeft
  deriving DecidableEq

/-- One step of a caller or of the worker, which has at most one batch of jobs at a time and looks
for more, or leaves, when it is through with that. -/
inductive Step : Queue → Event → Queue → Prop
  | request (q : Queue) (hierarchy : HierarchyId) (due : Nat) :
    Step q (.requested hierarchy (q.schedule hierarchy due).1) (q.schedule hierarchy due).2
  | hasten (q : Queue) (now : Nat) : Step q .hastened (q.hasten now)
  | handOut (q : Queue) : Step q (.handedOut q.takePending.1) q.takePending.2
  | take {q : Queue} (now : Nat) (hactive : q.workerActive = true) (hidle : q.running = [])
      (hdue : ∃ job ∈ q.waiting, job.due ≤ now) :
    Step q (.taken (q.takeDue now).running) (q.takeDue now)
  | run {q : Queue} {hierarchy : HierarchyId} {rest : List HierarchyId} (outcome : Outcome)
      (hrunning : q.running = hierarchy :: rest) :
    Step q (.ran hierarchy outcome) (q.finish outcome.failed)
  | leave {q : Queue} (hactive : q.workerActive = true) (hidle : q.running = [])
      (hempty : q.waiting = []) : Step q .workerLeft q.retire

/-- Any number of steps in any order. -/
inductive Run : Queue → List Event → Queue → Prop
  | refl (q : Queue) : Run q [] q
  | step {q r s : Queue} {event : Event} {log : List Event} (hstep : Step q event r)
      (hrest : Run r log s) : Run q (event :: log) s

variable {q r s : Queue} {event : Event} {log : List Event} {h : HierarchyId}

theorem Run.append {more : List Event} (hrun : Run q log r) (hmore : Run r more s) :
    Run q (log ++ more) s := by
  induction hrun with
  | refl _ => exact hmore
  | step hstep _ ih => exact .step hstep (ih hmore)

/-- A run can be cut anywhere. -/
theorem Run.split {before after : List Event} (hrun : Run q (before ++ after) s) :
    ∃ r, Run q before r ∧ Run r after s := by
  induction before generalizing q with
  | nil => exact ⟨q, .refl q, hrun⟩
  | cons event before ih =>
    cases hrun with
    | step hstep hrest =>
      obtain ⟨r, hbefore, hafter⟩ := ih hrest
      exact ⟨r, .step hstep hbefore, hafter⟩

/-! ## Accounts -/

/-- What an event hands out without a run. -/
def Event.handed : Event → List HierarchyId
  | .handedOut hierarchies => hierarchies
  | _ => []

/-- What has been handed out without a run. -/
def handedOut (log : List Event) : List HierarchyId := log.flatMap Event.handed

/-- The queue's own figures agree with what it holds, when some requests have been handed out. -/
structure Balanced (q : Queue) (handed : Nat) : Prop where
  /-- A hierarchy waits at most once. -/
  distinct : (q.waiting.map (·.hierarchy)).Nodup
  requested : q.stats.requested =
    q.stats.coalesced + q.stats.runs + q.running.length + q.waiting.length + handed
  failures : q.stats.failures ≤ q.stats.runs
  attended : q.waiting ≠ [] → q.workerActive = true
  manned : q.running ≠ [] → q.workerActive = true

theorem balanced_empty : Balanced {} 0 :=
  ⟨List.nodup_nil, rfl, Nat.le_refl 0, fun h => absurd rfl h, fun h => absurd rfl h⟩

theorem length_pending (q : Queue) : q.pending.length = q.waiting.length := by
  rw [pending, sortIds, List.length_mergeSort, List.length_map]

theorem mem_pending_iff : h ∈ q.pending ↔ h ∈ q.waiting.map (·.hierarchy) := List.mem_mergeSort

theorem isPending_iff : q.isPending h = true ↔ h ∈ q.waiting.map (·.hierarchy) := by
  simp only [isPending, List.any_eq_true, beq_iff_eq, List.mem_map]

theorem waiting_hasten (q : Queue) (now : Nat) :
    (q.hasten now).waiting.map (·.hierarchy) = q.waiting.map (·.hierarchy) := by
  rw [hasten]
  by_cases hempty : q.waiting.isEmpty = true
  · rw [if_pos hempty]
  · rw [if_neg hempty, List.map_map]
    rfl

namespace Balanced
variable {handed : Nat}

theorem schedule (hb : q.Balanced handed) (hierarchy : HierarchyId) (due : Nat) :
    (q.schedule hierarchy due).2.Balanced handed := by
  have hrequested := hb.requested
  rw [Queue.schedule]
  by_cases hpending : q.isPending hierarchy = true
  · rw [if_pos hpending]
    refine ⟨hb.distinct, ?_, hb.failures, hb.attended, hb.manned⟩
    dsimp only
    omega
  · rw [if_neg hpending]
    refine ⟨?_, ?_, hb.failures, fun _ => rfl, fun _ => rfl⟩
    · rw [List.map_append, List.map_singleton, ← List.concat_eq_append]
      exact hb.distinct.concat fun hin => hpending (isPending_iff.2 hin)
    · rw [List.length_append, List.length_singleton]
      dsimp only
      omega

theorem hasten (hb : q.Balanced handed) (now : Nat) : (q.hasten now).Balanced handed := by
  by_cases hempty : q.waiting.isEmpty = true
  · rwa [Queue.hasten, if_pos hempty]
  · refine ⟨waiting_hasten q now ▸ hb.distinct, ?_, ?_, ?_, ?_⟩ <;>
      rw [Queue.hasten, if_neg hempty]
    · rw [List.length_map]
      exact hb.requested
    · exact hb.failures
    · exact fun _ => rfl
    · exact fun _ => rfl

theorem takePending (hb : q.Balanced handed) :
    q.takePending.2.Balanced (handed + q.takePending.1.length) where
  distinct := List.nodup_nil
  requested := by
    have hrequested := hb.requested
    show q.stats.requested = q.stats.coalesced + q.stats.runs + q.running.length + 0 +
      (handed + q.pending.length)
    rw [length_pending]
    omega
  failures := hb.failures
  attended h := absurd rfl h
  manned := hb.manned

theorem takeDue (hb : q.Balanced handed) {now : Nat} (hactive : q.workerActive = true) :
    (q.takeDue now).Balanced handed where
  distinct := hb.distinct.sublist (List.filter_sublist.map _)
  requested := by
    have hrequested := hb.requested
    have hsplit := List.length_eq_length_filter_add (l := q.waiting) fun job => decide (now < job.due)
    have hdue : (q.waiting.filter fun job => !decide (now < job.due)) =
        q.waiting.filter (·.due ≤ now) :=
      List.filter_congr fun job _ => by rw [← decide_not, decide_eq_decide, Nat.not_lt]
    rw [hdue] at hsplit
    show q.stats.requested = q.stats.coalesced + q.stats.runs +
      (q.running ++ sortIds ((q.waiting.filter (·.due ≤ now)).map (·.hierarchy))).length +
      (q.waiting.filter (now < ·.due)).length + handed
    rw [List.length_append, sortIds, List.length_mergeSort, List.length_map]
    omega
  failures := hb.failures
  attended _ := hactive
  manned _ := hactive

theorem finish (hb : q.Balanced handed) (failed : Bool) (hrunning : q.running ≠ []) :
    (q.finish failed).Balanced handed where
  distinct := hb.distinct
  requested := by
    have hrequested := hb.requested
    have hpos := List.length_pos_iff.2 hrunning
    show q.stats.requested = q.stats.coalesced + (q.stats.runs + 1) + q.running.tail.length +
      q.waiting.length + handed
    rw [List.length_tail]
    omega
  failures := by
    have hfailures := hb.failures
    show q.stats.failures + (if failed then 1 else 0) ≤ q.stats.runs + 1
    split <;> omega
  attended := hb.attended
  manned _ := hb.manned hrunning

theorem retire (hb : q.Balanced handed) (hidle : q.running = []) : q.retire.Balanced handed := by
  rw [Queue.retire]
  by_cases hempty : q.waiting.isEmpty = true
  · rw [if_pos hempty]
    exact ⟨hb.distinct, hb.requested, hb.failures, fun h => absurd (List.isEmpty_iff.1 hempty) h,
      fun h => absurd hidle h⟩
  · rwa [if_neg hempty]

/-- Every step keeps the figures of the queue. -/
theorem step (hb : q.Balanced handed) (hstep : Step q event r) :
    r.Balanced (handed + event.handed.length) := by
  cases hstep with
  | request hierarchy due => exact hb.schedule hierarchy due
  | hasten now => exact hb.hasten now
  | handOut => exact hb.takePending
  | take now hactive _ _ => exact hb.takeDue hactive
  | run outcome hrunning =>
    exact hb.finish outcome.failed (hrunning ▸ List.cons_ne_nil _ _)
  | leave _ hidle _ => exact hb.retire hidle

theorem run (hb : q.Balanced handed) (hrun : Run q log r) :
    r.Balanced (handed + (handedOut log).length) := by
  induction hrun generalizing handed with
  | refl _ => exact hb
  | @step _ _ _ event log hstep _ ih =>
    have hrest := ih (hb.step hstep)
    rwa [Nat.add_assoc, ← List.length_append] at hrest

end Balanced

/-! ## Requests -/

/-- Where a request for a hierarchy is, after the events since it was made: it waits, or has been
handed out, or the worker has taken it since and has it or is through with it. -/
def Kept (h : HierarchyId) (since : List Event) (q : Queue) : Prop :=
  h ∈ q.pending ∨ h ∈ handedOut since ∨
    ∃ before batch after, since = before ++ Event.taken batch :: after ∧ h ∈ batch ∧
      (h ∈ q.running ∨ ∃ outcome, Event.ran h outcome ∈ after)

theorem handedOut_append (log more : List Event) :
    handedOut (log ++ more) = handedOut log ++ handedOut more := List.flatMap_append

theorem mem_pending_schedule (q : Queue) (hierarchy : HierarchyId) (due : Nat) :
    h ∈ (q.schedule hierarchy due).2.pending ↔ h = hierarchy ∨ h ∈ q.pending := by
  simp only [mem_pending_iff]
  rw [schedule]
  by_cases hpending : q.isPending hierarchy = true
  · rw [if_pos hpending]
    refine ⟨Or.inr, fun hin => hin.elim (fun heq => ?_) id⟩
    exact heq ▸ isPending_iff.1 hpending
  · rw [if_neg hpending, List.map_append, List.mem_append, or_comm]
    exact or_congr List.mem_singleton Iff.rfl

/-- What waits is still there after a step, unless that hands it out or gives it to the worker. -/
theorem Step.pending (hstep : Step q event r) (hin : h ∈ q.pending) :
    h ∈ r.pending ∨ h ∈ event.handed ∨ ∃ batch, event = .taken batch ∧ h ∈ batch ∧ h ∈ r.running := by
  cases hstep with
  | request hierarchy due => exact Or.inl ((mem_pending_schedule ..).2 (Or.inr hin))
  | hasten now =>
    refine Or.inl ?_
    rw [mem_pending_iff, waiting_hasten]
    exact mem_pending_iff.1 hin
  | handOut => exact Or.inr (Or.inl hin)
  | take now _ _ _ =>
    have hjobs : h ∈ (q.takeDue now).jobs :=
      (mem_jobs_takeDue q now).2 (List.mem_append_left _ (mem_pending_iff.1 hin))
    refine (List.mem_append.1 hjobs).imp mem_pending_iff.2 fun hrunning => Or.inr ?_
    exact ⟨_, rfl, hrunning, hrunning⟩
  | run outcome _ => exact Or.inl hin
  | leave _ _ hempty =>
    rw [mem_pending_iff, hempty] at hin
    exact absurd hin List.not_mem_nil

/-- What the worker has taken it has after a step, unless it is through with it by that. -/
theorem Step.running (hstep : Step q event r) (hin : h ∈ q.running) :
    h ∈ r.running ∨ ∃ outcome, event = .ran h outcome := by
  cases hstep with
  | request hierarchy due =>
    refine Or.inl ?_
    rw [schedule]
    split <;> exact hin
  | hasten now =>
    refine Or.inl ?_
    rw [Queue.hasten]
    split <;> exact hin
  | handOut => exact Or.inl hin
  | take now _ _ _ => exact Or.inl (List.mem_append_left _ hin)
  | @run hierarchy rest outcome hrunning =>
    rw [hrunning] at hin
    rcases List.mem_cons.1 hin with rfl | hrest
    · exact Or.inr ⟨outcome, rfl⟩
    · refine Or.inl ?_
      rw [finish, hrunning]
      exact hrest
  | leave _ hidle _ =>
    rw [hidle] at hin
    exact absurd hin List.not_mem_nil

theorem Kept.step {since : List Event} (hkept : Kept h since q) (hstep : Step q event r) :
    Kept h (since ++ [event]) r := by
  rcases hkept with hpending | hhanded | ⟨before, batch, after, rfl, hbatch, hworker⟩
  · rcases hstep.pending hpending with hstays | hhanded | ⟨batch, rfl, hbatch, hrunning⟩
    · exact Or.inl hstays
    · refine Or.inr (Or.inl ?_)
      rw [handedOut_append]
      exact List.mem_append_right _ (List.mem_append_left _ hhanded)
    · exact Or.inr (Or.inr ⟨since, batch, [], rfl, hbatch, Or.inl hrunning⟩)
  · refine Or.inr (Or.inl ?_)
    rw [handedOut_append]
    exact List.mem_append_left _ hhanded
  · refine Or.inr (Or.inr ⟨before, batch, after ++ [event], ?_, hbatch, ?_⟩)
    · rw [List.append_assoc, List.cons_append]
    · rcases hworker with hrunning | ⟨outcome, hran⟩
      · refine (hstep.running hrunning).imp id fun ⟨outcome, heq⟩ => ⟨outcome, ?_⟩
        exact heq ▸ List.mem_append_right _ (List.mem_singleton_self _)
      · exact Or.inr ⟨outcome, List.mem_append_left _ hran⟩

theorem Kept.run {since : List Event} (hkept : Kept h since q) (hrun : Run q log r) :
    Kept h (since ++ log) r := by
  induction hrun generalizing since with
  | refl _ => rwa [List.append_nil]
  | @step _ _ _ event log hstep _ ih =>
    have hrest := ih (hkept.step hstep)
    rwa [List.append_assoc] at hrest

/-- A request waits from the moment it is made, whether or not it is merged into another. -/
theorem Run.kept {before after : List Event} {fresh : Bool}
    (hrun : Run q (before ++ Event.requested h fresh :: after) s) : Kept h after s := by
  obtain ⟨r, -, hrest⟩ := hrun.split
  cases hrest with
  | step hstep hafter =>
    cases hstep with
    | request hierarchy due =>
      have hnow : Kept h [] (r.schedule h due).2 :=
        Or.inl ((mem_pending_schedule ..).2 (Or.inl rfl))
      exact hnow.run hafter

/-- The queue loses no request. Whatever callers and the worker have done: the requests are those
that were merged, run, are in flight, wait, or have been handed out; the worker is there while
something waits; and a request waits until the worker takes it, after the request was made, or
until it is handed out. -/
theorem Run.accounted (hrun : Run {} log q) :
    q.stats.requested = q.stats.coalesced + q.stats.runs + q.running.length + q.pending.length +
        (handedOut log).length ∧
      q.stats.failures ≤ q.stats.runs ∧
      (q.pending ≠ [] → q.workerActive = true) ∧
      ∀ before h fresh after, log = before ++ Event.requested h fresh :: after →
        h ∈ q.pending ∨ h ∈ handedOut after ∨
          ∃ between batch later, after = between ++ Event.taken batch :: later ∧ h ∈ batch ∧
            (h ∈ q.running ∨ ∃ outcome, Event.ran h outcome ∈ later) := by
  have hb := balanced_empty.run hrun
  rw [Nat.zero_add] at hb
  refine ⟨?_, hb.failures, fun hpending => hb.attended fun hempty => hpending ?_, ?_⟩
  · rw [length_pending]
    exact hb.requested
  · rw [← List.length_eq_zero_iff, length_pending, hempty, List.length_nil]
  · rintro before h fresh after rfl
    exact hrun.kept

/-- A request made while a job of its hierarchy is in flight, and another merged into it. -/
def overlap : List Event :=
  [.requested 1 true, .taken [1], .requested 1 true, .requested 1 false, .ran 1 .panic]

theorem accounted_overlap : ∃ q, Run {} overlap q ∧ q.pending = [1] ∧ q.running = [] ∧
    q.stats.requested = q.stats.coalesced + q.stats.runs + q.running.length + q.pending.length +
      (handedOut overlap).length ∧ q.stats.failures ≤ q.stats.runs := by
  let asked : Queue := (({} : Queue).schedule 1 3).2
  let busy : Queue := asked.takeDue 3
  let again : Queue := ((busy.schedule 1 5).2.schedule 1 7).2
  have hasked : Step {} (.requested 1 true) asked := .request {} 1 3
  have htaken : busy.running = [1] := List.mergeSort_singleton 1
  have hbusy : Step asked (.taken [1]) busy := by
    rw [← htaken]
    exact .take 3 rfl rfl ⟨⟨1, 3⟩, List.mem_singleton_self _, Nat.le_refl 3⟩
  have hagain : Run busy [.requested 1 true, .requested 1 false] again :=
    .step (.request busy 1 5) (.step (.request _ 1 7) (.refl _))
  have hran : Step again (.ran 1 .panic) (again.finish true) := .run .panic htaken
  have hrun : Run {} overlap (again.finish true) :=
    .step hasked (.step hbusy (hagain.append (.step hran (.refl _))))
  obtain ⟨hrequested, hfailures, -, -⟩ := Run.accounted hrun
  exact ⟨_, hrun, List.mergeSort_singleton 1, congrArg List.tail htaken, hrequested, hfailures⟩

end Inventory.Queue
