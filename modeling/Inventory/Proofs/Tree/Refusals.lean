import Inventory.Proofs.Tree.Requests
import Mathlib.Logic.Relation

/-! # Requests that are refused

An operation looks at the tree, tells observers what is about to go, and carries out one
transaction; nothing after the transaction can fail. An operation that fails has therefore done
nothing: the tree is as it was, its queue and its leases included, and observers have at most been
told of rows that were about to go. This holds of any tree, also of one whose rows somebody else has
edited. -/
namespace Inventory
set_option autoImplicit false
open Relation
variable {σ α β : Type} {env : Surroundings σ}

/-! ## Nothing but warnings -/

/-- What the surroundings keep has changed at one of the moments before a change of the tree. -/
def Surroundings.Forewarns (env : Surroundings σ) (kept kept' : σ) : Prop :=
  ∃ (m : Moment) (tree : Tree), m.isWindow ∧ (env m ⟨tree, kept⟩).outside = kept'

/-- The tree is as it was, and the surroundings have seen no other moments than those before a
change. -/
structure World.Unchanged (env : Surroundings σ) (w w' : World σ) : Prop where
  tree : w'.tree = w.tree
  outside : ReflTransGen env.Forewarns w.outside w'.outside

theorem World.Unchanged.refl (w : World σ) : World.Unchanged env w w := ⟨rfl, .refl⟩

theorem World.Unchanged.trans {u v w : World σ} (h : World.Unchanged env u v)
    (h' : World.Unchanged env v w) : World.Unchanged env u w :=
  ⟨h'.tree.trans h.tree, h.outside.trans h'.outside⟩

theorem Surroundings.Passive.unchanged (henv : env.Passive) {m : Moment} (hm : m.isWindow)
    (w : World σ) : World.Unchanged env w (env m w) :=
  ⟨henv m w, .single ⟨m, w.tree, hm, rfl⟩⟩

theorem Surroundings.passive_journal : journal.Passive := by
  intro m w
  cases m <;> rfl

/-- A journal that has only been warned holds only notices of rows about to go. -/
theorem Surroundings.journal_forewarned {log log' : List Notice}
    (h : ReflTransGen journal.Forewarns log log') :
    ∃ said : List Notice, log' = log ++ said ∧ ∀ n ∈ said, n.phase = .beforeRemove := by
  induction h with
  | refl => exact ⟨[], (List.append_nil log).symm, fun _ hn => absurd hn List.not_mem_nil⟩
  | tail _ hstep ih =>
    obtain ⟨said, rfl, hbefore⟩ := ih
    obtain ⟨m, tree, hm, rfl⟩ := hstep
    cases m with
    | waiting => exact ⟨said, rfl, hbefore⟩
    | notice n =>
      refine ⟨said ++ [n], List.append_assoc log said [n], fun other hother => ?_⟩
      rcases List.mem_append.1 hother with hold | hnew
      · exact hbefore other hold
      · rw [List.mem_singleton.1 hnew]
        exact hm

namespace Action

/-- The action changes nothing, whether or not it fails. -/
def Looks (env : Surroundings σ) (act : Action σ α) : Prop :=
  ∀ w, World.Unchanged env w (act env w).2

/-- The action does not fail. -/
def Succeeds (env : Surroundings σ) (act : Action σ α) : Prop := ∀ w, ∃ a, (act env w).1 = .ok a

/-- If the action fails, it has changed nothing. -/
def Withdraws (env : Surroundings σ) (act : Action σ α) : Prop :=
  ∀ w e, (act env w).1 = .error e → World.Unchanged env w (act env w).2

/-! ## Single steps -/

theorem looks_pure (a : α) : Looks env (pure a : Action σ α) := World.Unchanged.refl

theorem looks_lift (result : Except Error α) : Looks env (lift result : Action σ α) :=
  World.Unchanged.refl

theorem looks_view (question : Tree → α) : Looks env (view question : Action σ α) :=
  World.Unchanged.refl

theorem looks_read (question : Store → Except Error α) : Looks env (read question : Action σ α) :=
  World.Unchanged.refl

theorem looks_warning (henv : env.Passive) (host : HierarchyId) (changes : List Change) :
    Looks env (announce .beforeRemove host changes) := by
  intro w
  rw [announce]
  by_cases hnone : changes.isEmpty = true
  · rw [if_pos hnone]
    exact .refl w
  · rw [if_neg hnone]
    exact henv.unchanged (m := .notice ⟨.beforeRemove, host, changes⟩) rfl w

theorem succeeds_pure (a : α) : Succeeds env (pure a : Action σ α) := fun _ => ⟨a, rfl⟩

theorem succeeds_announce (phase : Phase) (host : HierarchyId) (changes : List Change) :
    Succeeds env (announce phase host changes) := fun _ => ⟨(), rfl⟩

theorem succeeds_deferUnless (propagated : Bool) (host : HierarchyId) :
    Succeeds env (deferUnless propagated host : Action σ Unit) := by
  intro w
  cases propagated with
  | true => exact ⟨(), rfl⟩
  | false => exact ⟨(), rfl⟩

theorem Looks.withdraws {act : Action σ α} (h : Looks env act) : Withdraws env act :=
  fun w _ _ => h w

theorem Succeeds.withdraws {act : Action σ α} (h : Succeeds env act) : Withdraws env act := by
  intro w e he
  obtain ⟨a, ha⟩ := h w
  rw [ha] at he
  cases he

theorem withdraws_write (change : Transaction α) : Withdraws env (write change : Action σ α) := by
  intro w e he
  cases hrun : change w.tree.store with
  | ok result =>
    rw [write_of_ok hrun] at he
    cases he
  | error cause =>
    rw [write_of_error hrun]
    exact .refl w

/-! ## Steps put together -/

theorem Looks.map {act : Action σ α} (f : α → β) (h : Looks env act) : Looks env (f <$> act) := by
  intro w
  rw [map_run]
  exact h w

theorem Succeeds.bind {act : Action σ α} {next : α → Action σ β} (h : Succeeds env act)
    (hnext : ∀ a, Succeeds env (next a)) : Succeeds env (act >>= next) := by
  intro w
  obtain ⟨a, ha⟩ := h w
  rw [bind_of_ok (Prod.ext ha rfl : act env w = (.ok a, (act env w).2))]
  exact hnext a _

theorem succeeds_announce_bind {phase : Phase} {host : HierarchyId} {changes : List Change}
    {next : Unit → Action σ β} (hnext : ∀ u, Succeeds env (next u)) :
    Succeeds env (announce phase host changes >>= next) :=
  (succeeds_announce phase host changes).bind hnext

theorem succeeds_defer_bind {propagated : Bool} {host : HierarchyId} {next : Unit → Action σ β}
    (hnext : ∀ u, Succeeds env (next u)) : Succeeds env (deferUnless propagated host >>= next) :=
  (succeeds_deferUnless propagated host).bind hnext

theorem Withdraws.map {act : Action σ α} (f : α → β) (h : Withdraws env act) :
    Withdraws env (f <$> act) := by
  intro w e he
  rw [map_run] at he ⊢
  cases hresult : (act env w).1 with
  | ok a =>
    rw [hresult] at he
    cases he
  | error _ => exact h w _ hresult

/-- What has been seen before does not matter to an action that withdraws. -/
theorem Looks.bind {act : Action σ α} {next : α → Action σ β} (h : Looks env act)
    (hnext : ∀ a, Withdraws env (next a)) : Withdraws env (act >>= next) := by
  intro w e he
  cases hrun : act env w with
  | mk result u =>
    have hseen := h w
    rw [hrun] at hseen
    cases result with
    | ok a =>
      rw [bind_of_ok hrun] at he ⊢
      exact hseen.trans (hnext a u e he)
    | error _ =>
      rw [bind_of_error hrun]
      exact hseen

/-- What follows cannot fail, so a failure is one of the first action. -/
theorem Withdraws.bind {act : Action σ α} {next : α → Action σ β} (h : Withdraws env act)
    (hnext : ∀ a, Succeeds env (next a)) : Withdraws env (act >>= next) := by
  intro w e he
  cases hrun : act env w with
  | mk result u =>
    cases result with
    | ok a =>
      rw [bind_of_ok hrun] at he
      obtain ⟨b, hb⟩ := hnext a u
      rw [hb] at he
      cases he
    | error cause =>
      rw [bind_of_error hrun]
      have hundone := h w cause (congrArg Prod.fst hrun)
      rwa [hrun] at hundone

theorem withdraws_ite {p : Prop} [Decidable p] {first second : Action σ α}
    (h : Withdraws env first) (h' : Withdraws env second) :
    Withdraws env (if p then first else second) := by
  by_cases hp : p
  · rwa [if_pos hp]
  · rwa [if_neg hp]

/-- A lease that was granted to an action that fails is given back. -/
theorem Withdraws.holding (henv : env.Passive) (host : HierarchyId) {act : Action σ α}
    (h : Withdraws env act) : Withdraws env (holding host act) := by
  intro w e he
  have hwaited := henv.unchanged (m := .waiting host) trivial w
  generalize hu : env (.waiting host) w = u at hwaited
  cases hheld : u.tree.leases.isHeld host with
  | true =>
    rw [Action.holding, hu]
    dsimp only
    rw [Leases.acquire, if_pos hheld]
    exact hwaited
  | false =>
    rw [holding_granted hu hheld] at he ⊢
    have hundone := h (u.granted host) e he
    refine hwaited.trans ⟨?_, hundone.outside⟩
    rw [World.released]
    dsimp only
    rw [hundone.tree]
    exact congrArg World.tree (World.released_granted hheld)

end Action

/-! ## Operations -/

namespace Tree
open Inventory.Action

theorem withdraws_held (henv : env.Passive) (host : HierarchyId) (change : Transaction α) :
    Withdraws env (holding host (write change) : Action σ α) :=
  (withdraws_write change).holding henv host

theorem withdraws_createAsset (host : HierarchyId) (name : String) (nodes : List NodeId) :
    Withdraws env (createAsset host name nodes : Action σ Asset) := by
  refine (looks_lift _).bind fun name => (looks_view _).bind fun p => ?_
  refine (withdraws_write _).bind fun made => succeeds_defer_bind fun _ => ?_
  exact succeeds_announce_bind fun _ => succeeds_pure _

theorem withdraws_deleteAsset (henv : env.Passive) (id : AssetId) :
    Withdraws env (deleteAsset id : Action σ Unit) := by
  refine (looks_read _).bind fun found => (looks_warning henv _ _).bind fun _ => ?_
  refine (looks_view _).bind fun options => (withdraws_write _).bind fun removed => ?_
  exact succeeds_defer_bind fun _ => succeeds_announce _ _ _

theorem withdraws_attach (node : NodeId) (assets : List AssetId) :
    Withdraws env (attach node assets : Action σ Outcome) := by
  rw [attach]
  refine withdraws_ite (looks_pure _).withdraws ?_
  refine (looks_view _).bind fun p => (withdraws_write _).bind fun made => ?_
  exact succeeds_defer_bind fun _ => succeeds_announce_bind fun _ => succeeds_pure _

theorem withdraws_attachToNodes (asset : AssetId) (nodes : List NodeId) :
    Withdraws env (attachToNodes asset nodes : Action σ Outcome) := by
  rw [attachToNodes]
  refine withdraws_ite (looks_pure _).withdraws ?_
  refine (looks_view _).bind fun p => (withdraws_write _).bind fun made => ?_
  exact succeeds_defer_bind fun _ => succeeds_announce_bind fun _ => succeeds_pure _

theorem withdraws_detach (henv : env.Passive) (node : NodeId) (assets : List AssetId) :
    Withdraws env (detach node assets : Action σ Outcome) := by
  rw [detach]
  refine withdraws_ite (looks_pure _).withdraws ?_
  refine (looks_read _).bind fun found => (looks_warning henv _ _).bind fun _ => ?_
  refine (looks_view _).bind fun p => (withdraws_write _).bind fun outcome => ?_
  refine succeeds_defer_bind fun _ => succeeds_announce_bind fun _ => ?_
  exact succeeds_announce_bind fun _ => succeeds_pure _

theorem withdraws_detachFromNodes (henv : env.Passive) (asset : AssetId) (nodes : List NodeId) :
    Withdraws env (detachFromNodes asset nodes : Action σ Outcome) := by
  rw [detachFromNodes]
  refine withdraws_ite (looks_pure _).withdraws ?_
  refine (looks_read _).bind fun found => (looks_warning henv _ _).bind fun _ => ?_
  refine (looks_view _).bind fun p => (withdraws_write _).bind fun outcome => ?_
  refine succeeds_defer_bind fun _ => succeeds_announce_bind fun _ => ?_
  exact succeeds_announce_bind fun _ => succeeds_pure _

theorem withdraws_moveSeen (henv : env.Passive) (host : HierarchyId) (target : NodeId)
    (assets : List AssetId) (observed : List Attachment) :
    Withdraws env (moveSeen host target assets observed : Action σ Reassignment) := by
  refine (looks_warning henv _ _).bind fun _ => (looks_view _).bind fun p => ?_
  refine (withdraws_write _).bind fun added => succeeds_announce_bind fun _ => ?_
  exact succeeds_announce_bind fun _ => succeeds_defer_bind fun _ => succeeds_pure _

theorem withdraws_reassign (henv : env.Passive) (assets : List AssetId) (target : NodeId) :
    Withdraws env (reassign assets target : Action σ Reassignment) := by
  refine ((looks_read _).map _).bind fun host => ?_
  refine withdraws_ite (looks_pure _).withdraws ?_
  refine (looks_read _).bind fun observed => Withdraws.holding henv host ?_
  rw [moveObserved_eq]
  refine (looks_read _).bind fun snapshot => ?_
  exact withdraws_ite (withdraws_moveSeen henv host target _ observed) (looks_lift _).withdraws

theorem withdraws_reconcile (henv : env.Passive) (host : HierarchyId) (mode : Mode) :
    Withdraws env (reconcile host mode : Action σ Report) := by
  refine ((looks_read _).map _).bind fun _ => ?_
  cases mode with
  | repair => exact withdraws_held henv host _
  | checkOnly => exact (looks_read _).withdraws

/-- Jobs may fail, but the flush that runs them does not. -/
theorem succeeds_flush (henv : env.Passive) : Succeeds env (flush : Action σ Unit) := by
  intro w
  have hflush : Ensures env w.tree.options (flush : Action σ Unit) fun _ r _ => r = .ok () ∧ True :=
    ensures_flush henv (fun _ => trivial) (fun _ _ _ _ _ => trivial) fun _ _ => trivial
  exact ⟨(), (hflush w rfl).2.1⟩

end Tree

/-! ## All requests -/

namespace Request
open Inventory.Action

theorem withdraws (henv : env.Passive) (request : Request) :
    Withdraws env (request.run : Action σ Answer) := by
  cases request with
  | createHierarchy name =>
    rw [run_createHierarchy]
    exact Withdraws.map _ ((looks_lift _).bind fun name => withdraws_write _)
  | createChild parent value =>
    exact Withdraws.map _ (((looks_read _).map _).bind fun host =>
      (looks_view _).bind fun preset => Tree.withdraws_held henv host _)
  | getOrCreateChild parent value =>
    rw [run_getOrCreateChild]
    exact Withdraws.map _ ((looks_lift _).bind fun value =>
      ((looks_read _).map _).bind fun host => Tree.withdraws_held henv host _)
  | createPath host path => exact (Tree.withdraws_held henv host _).map _
  | deleteNode id =>
    exact Withdraws.map _ (((looks_read _).map _).bind fun host => Tree.withdraws_held henv host _)
  | createAsset host name places => exact (Tree.withdraws_createAsset host name places).map _
  | deleteAsset id => exact (Tree.withdraws_deleteAsset henv id).map _
  | attach place batch => exact (Tree.withdraws_attach place batch).map _
  | detach place batch => exact (Tree.withdraws_detach henv place batch).map _
  | attachToNodes id places => exact (Tree.withdraws_attachToNodes id places).map _
  | detachFromNodes id places => exact (Tree.withdraws_detachFromNodes henv id places).map _
  | reassign batch target => exact (Tree.withdraws_reassign henv batch target).map _
  | reconcile host => exact (Tree.withdraws_reconcile henv host .repair).map _
  | check host => exact (Tree.withdraws_reconcile henv host .checkOnly).map _
  | schedule host =>
    have hsure : Succeeds env (Action.schedule host : Action σ Bool) := fun _ => ⟨_, rfl⟩
    exact hsure.withdraws.map _
  | flush => exact (Tree.succeeds_flush henv).withdraws.map _
  | root | node | nodeByKey | nodes | subtreeCount | nodeAssetIds | assetsUnder | computedCounts
  | children => exact ((looks_read _).map _).withdraws
  | overview => exact fun w _ _ => .refl w
  | _ => exact (looks_view _).withdraws

end Request
end Inventory
