import Inventory.Proofs.Queue
import Inventory.Proofs.Store.Sturdy
import Inventory.Proofs.Tree.Requests

/-! # Jobs for what is marked

An edit over the limit marks its hierarchy in its transaction and asks for the job of the hierarchy
after that, a move even after observers have been called. In between the edit owes the job, and it
always gets to the point where it asks for it. So no request leaves a hierarchy that it has marked
without a job, whatever others do meanwhile, as long as they take care of that too. -/
namespace Inventory
set_option autoImplicit false
open Inventory.Store Inventory.Action Inventory.Tree
variable {σ α β : Type} {env : Surroundings σ} {failing owed owed' : Set HierarchyId}

namespace Tree
variable {tree u v : Tree}

/-- Every marked hierarchy has its job in the queue, but for those that are missed. -/
def Assigned (tree : Tree) (missed : Set HierarchyId) : Prop :=
  ∀ h ∈ tree.store.marked, h ∈ missed ∨ h ∈ tree.queue.jobs

/-- From one tree to the other a sturdy store stays so, jobs that were owed have been asked for, and
none is missing after that but those of failing hierarchies and those that were missing before. -/
def Heeds (failing owed : Set HierarchyId) (tree u : Tree) : Prop :=
  tree.store.Sturdy → u.store.Sturdy ∧
    ∀ missed, failing ⊆ missed → tree.Assigned (missed ∪ owed) → u.Assigned missed

/-- Where nothing is owed, the missing are the same before and after. -/
theorem heeds_of_assigned (h : tree.store.Sturdy → u.store.Sturdy ∧
    ∀ missed, failing ⊆ missed → tree.Assigned missed → u.Assigned missed) :
    Heeds failing ∅ tree u := by
  intro hs
  obtain ⟨hu, hassigned⟩ := h hs
  refine ⟨hu, fun missed hfailing hmissed => hassigned missed hfailing ?_⟩
  rwa [Set.union_empty] at hmissed

theorem Heeds.trans (h : Heeds failing owed tree u) (h' : Heeds failing owed' u v) :
    Heeds failing (owed ∪ owed') tree v := by
  intro hs
  obtain ⟨hu, hassigned⟩ := h hs
  obtain ⟨hv, hassigned'⟩ := h' hu
  refine ⟨hv, fun missed hfailing hmissed => hassigned' missed hfailing ?_⟩
  refine hassigned _ (hfailing.trans Set.subset_union_left) ?_
  rwa [Set.union_assoc, Set.union_comm owed' owed]

/-- To ask for jobs that nobody owes does no harm. -/
theorem Heeds.unowed (h : Heeds failing owed tree u) : Heeds failing ∅ tree u := by
  refine heeds_of_assigned fun hs => ?_
  obtain ⟨hu, hassigned⟩ := h hs
  refine ⟨hu, fun missed hfailing hmissed => hassigned missed hfailing fun host hmarked => ?_⟩
  exact (hmissed host hmarked).imp Or.inl id

theorem heeds_refl (tree : Tree) : Heeds failing ∅ tree tree :=
  heeds_of_assigned fun hs => ⟨hs, fun _ _ hmissed => hmissed⟩

/-- What happens to neither marks nor jobs is of no concern. -/
theorem heeds_of_eq (hstore : u.store = tree.store)
    (hjobs : ∀ h, h ∈ u.queue.jobs ↔ h ∈ tree.queue.jobs) : Heeds failing ∅ tree u := by
  refine heeds_of_assigned fun hs => ⟨hstore ▸ hs, fun missed _ hmissed h hmarked => ?_⟩
  rw [hstore] at hmarked
  exact (hmissed h hmarked).imp id (hjobs h).2

/-- A transaction that marks what it owes, and what makes up for that. -/
theorem heeds_of_upholds {owes : List HierarchyId} {s : Store} (hs : Upholds owes tree.store s)
    (h : Heeds failing {host | host ∈ owes} { tree with store := s } u) : Heeds failing ∅ tree u := by
  refine heeds_of_assigned fun hsturdy => ?_
  obtain ⟨hu, hassigned⟩ := h (hs.sturdy hsturdy)
  refine ⟨hu, fun missed hfailing hmissed => hassigned missed hfailing fun host hmarked => ?_⟩
  rcases hs.fresh host hmarked with hold | hnew
  · exact (hmissed host hold).imp Or.inl id
  · exact Or.inl (Or.inr hnew)

theorem heeds_schedule (tree : Tree) (host : HierarchyId) (due : Nat) :
    Heeds failing {host} tree { tree with queue := (tree.queue.schedule host due).2 } := by
  refine fun hs => ⟨hs, fun missed _ hmissed h hmarked => ?_⟩
  rw [Queue.mem_jobs_schedule]
  rcases hmissed h hmarked with (hold | hnew) | hjob
  · exact Or.inl hold
  · exact Or.inr (Or.inl hnew)
  · exact Or.inr (Or.inr hjob)

end Tree

/-- Others do not leave a hierarchy without its job, unless it is failing. -/
def Surroundings.Careful (env : Surroundings σ) (failing : Set HierarchyId) : Prop :=
  ∀ m w, Tree.Heeds failing ∅ w.tree (env m w).tree

namespace Action

/-- The action asks for the jobs that are owed, and does not leave other hierarchies without theirs. -/
def Settles (env : Surroundings σ) (failing owed : Set HierarchyId) (act : Action σ α) : Prop :=
  ∀ w : World σ, Heeds failing owed w.tree (act env w).2.tree

/-! ## Single steps -/

theorem settles_of_tree_eq {act : Action σ α} (hact : ∀ w, (act env w).2.tree = w.tree) :
    Settles env failing ∅ act := by
  intro w
  rw [hact]
  exact heeds_refl w.tree

theorem settles_pure (a : α) : Settles env failing ∅ (pure a : Action σ α) :=
  settles_of_tree_eq fun _ => rfl

theorem settles_lift (result : Except Error α) : Settles env failing ∅ (lift result : Action σ α) :=
  settles_of_tree_eq fun _ => rfl

theorem settles_view (question : Tree → α) : Settles env failing ∅ (view question : Action σ α) :=
  settles_of_tree_eq fun _ => rfl

theorem settles_read (question : Store → Except Error α) :
    Settles env failing ∅ (read question : Action σ α) :=
  settles_of_tree_eq fun _ => rfl

theorem settles_announce (henv : env.Careful failing) (phase : Phase) (host : HierarchyId)
    (changes : List Change) : Settles env failing ∅ (announce phase host changes) := by
  intro w
  rw [announce]
  by_cases hnone : changes.isEmpty = true
  · rw [if_pos hnone]
    exact heeds_refl w.tree
  · rw [if_neg hnone]
    exact henv _ w

theorem settles_write {change : Transaction α}
    (hchange : ∀ s a s', s.Sturdy → change s = .ok (a, s') → Upholds [] s s') :
    Settles env failing ∅ (write change : Action σ α) := by
  intro w hs
  rw [write]
  cases hrun : change w.tree.store with
  | ok result =>
    refine heeds_of_upholds (hchange _ _ _ hs hrun) ?_ hs
    rw [show {host | host ∈ ([] : List HierarchyId)} = (∅ : Set HierarchyId) by simp]
    exact heeds_refl _
  | error e => exact heeds_refl _ hs

/-! ## Steps put together -/

/-- What the first action asks for is settled, and so is what the second one does. -/
theorem Settles.bind {act : Action σ α} {next : α → Action σ β} (hact : Settles env failing ∅ act)
    (hnext : ∀ a, Settles env failing ∅ (next a)) : Settles env failing ∅ (act >>= next) := by
  intro w
  have hfirst := hact w
  cases hrun : act env w with
  | mk result u =>
    rw [hrun] at hfirst
    cases result with
    | ok a =>
      rw [bind_of_ok hrun, ← Set.union_empty ∅]
      exact hfirst.trans (hnext a u)
    | error e =>
      rw [bind_of_error hrun]
      exact hfirst

theorem settles_ite {p : Prop} [Decidable p] {first second : Action σ α}
    (h : Settles env failing ∅ first) (h' : Settles env failing ∅ second) :
    Settles env failing ∅ (if p then first else second) := by
  by_cases hp : p
  · rwa [if_pos hp]
  · rwa [if_neg hp]

theorem Settles.map {act : Action σ α} (f : α → β) (hact : Settles env failing ∅ act) :
    Settles env failing ∅ (f <$> act) := by
  rw [map_eq]
  exact hact.bind fun a => settles_pure (f a)

/-- What an edit owes after its transaction, the rest of it has to settle. -/
theorem settles_write_bind {change : Transaction α} {next : α → Action σ β}
    (owes : α → List HierarchyId)
    (hchange : ∀ s a s', s.Sturdy → change s = .ok (a, s') → Upholds (owes a) s s')
    (hnext : ∀ a, Settles env failing {h | h ∈ owes a} (next a)) :
    Settles env failing ∅ (write change >>= next) := by
  intro w hs
  cases hrun : change w.tree.store with
  | ok result =>
    obtain ⟨a, s⟩ := result
    rw [bind_of_ok (write_of_ok hrun)]
    exact heeds_of_upholds (hchange _ _ _ hs hrun)
      (hnext a { w with tree := { w.tree with store := s } }) hs
  | error e =>
    rw [bind_of_error (write_of_error hrun)]
    exact heeds_refl _ hs

/-- Observers may be called before the job is asked for. -/
theorem Settles.announced (henv : env.Careful failing) (phase : Phase) (host : HierarchyId)
    (changes : List Change) {next : Unit → Action σ β} (hnext : Settles env failing owed (next ())) :
    Settles env failing owed (announce phase host changes >>= next) := by
  intro w
  rw [← Set.empty_union owed]
  exact (settles_announce henv phase host changes w).trans (hnext _)

theorem Settles.deferred (propagated : Bool) (host : HierarchyId) {next : Unit → Action σ β}
    (hnext : Settles env failing ∅ (next ())) :
    Settles env failing {h | h ∈ owing propagated host} (deferUnless propagated host >>= next) := by
  intro w
  cases propagated with
  | true =>
    rw [show {h | h ∈ owing true host} = (∅ : Set HierarchyId) by simp [owing]]
    exact hnext w
  | false =>
    rw [show {h | h ∈ owing false host} = ({host} ∪ ∅ : Set HierarchyId) by simp [owing]]
    exact (heeds_schedule w.tree host _).trans (hnext (schedule host env w).2)

theorem Settles.holding (henv : env.Careful failing) (host : HierarchyId) {act : Action σ α}
    (hact : Settles env failing ∅ act) : Settles env failing ∅ (holding host act) := by
  intro w
  have hwait := henv (.waiting host) w
  rw [Action.holding]
  generalize env (.waiting host) w = u at hwait
  dsimp only
  cases u.tree.leases.acquire host u.tree.options.lockTimeout with
  | error e => exact hwait
  | ok leases =>
    rw [← Set.union_empty ∅]
    exact hwait.trans (hact { u with tree := { u.tree with leases } })

end Action

/-! ## Operations -/

namespace Tree
variable (henv : env.Careful failing)
include henv

/-- The transaction is all that an operation does to the tree under its lease. -/
theorem settles_held (host : HierarchyId) {change : Transaction α}
    (hchange : ∀ s a s', s.Sturdy → change s = .ok (a, s') → Upholds [] s s') :
    Settles env failing ∅ (holding host (write change) : Action σ α) :=
  (settles_write hchange).holding henv host

theorem settles_createAsset (host : HierarchyId) (name : String) (nodes : List NodeId) :
    Settles env failing ∅ (createAsset host name nodes : Action σ Asset) := by
  refine (settles_lift _).bind fun name => (settles_view _).bind fun p => ?_
  refine settles_write_bind (fun _ => owing p host) (fun s a s' _ hrun =>
    (Transaction.stays_createAsset _ _ _ _ a s' hrun).upholds) fun made => ?_
  exact ((settles_announce henv _ _ _).bind fun _ => settles_pure _).deferred p host

theorem settles_deleteAsset (id : AssetId) :
    Settles env failing ∅ (deleteAsset id : Action σ Unit) := by
  refine (settles_read _).bind fun found => (settles_announce henv _ _ _).bind fun _ => ?_
  refine (settles_view _).bind fun options => ?_
  refine settles_write_bind (fun removed => owing removed.2 found.1.hierarchy) (fun s a s' _ hrun =>
    (Transaction.stays_removeAsset hrun).upholds) fun removed => ?_
  exact (settles_announce henv _ _ _).deferred removed.2 found.1.hierarchy

theorem settles_attach (node : NodeId) (assets : List AssetId) :
    Settles env failing ∅ (attach node assets : Action σ Outcome) := by
  rw [attach]
  refine settles_ite (settles_pure _) ?_
  refine (settles_view _).bind fun p => ?_
  refine settles_write_bind (fun made => owing p made.1) (fun s a s' _ hrun =>
    (Transaction.stays_attachAll hrun).upholds) fun made => ?_
  exact ((settles_announce henv _ _ _).bind fun _ => settles_pure _).deferred p made.1

theorem settles_attachToNodes (asset : AssetId) (nodes : List NodeId) :
    Settles env failing ∅ (attachToNodes asset nodes : Action σ Outcome) := by
  rw [attachToNodes]
  refine settles_ite (settles_pure _) ?_
  refine (settles_view _).bind fun p => ?_
  refine settles_write_bind (fun made => owing p made.1) (fun s a s' _ hrun =>
    (Transaction.stays_attachToAll hrun).upholds) fun made => ?_
  exact ((settles_announce henv _ _ _).bind fun _ => settles_pure _).deferred p made.1

theorem settles_detach (node : NodeId) (assets : List AssetId) :
    Settles env failing ∅ (detach node assets : Action σ Outcome) := by
  rw [detach]
  refine settles_ite (settles_pure _) ?_
  refine (settles_read _).bind fun found => (settles_announce henv _ _ _).bind fun _ => ?_
  refine (settles_view _).bind fun p => ?_
  refine settles_write_bind (fun _ => owing p found.1) (fun s a s' _ hrun =>
    (Transaction.stays_detachAll _ _ _ _ a s' hrun).upholds) fun outcome => ?_
  refine ((settles_announce henv _ _ _).bind fun _ => ?_).deferred p found.1
  exact (settles_announce henv _ _ _).bind fun _ => settles_pure _

theorem settles_detachFromNodes (asset : AssetId) (nodes : List NodeId) :
    Settles env failing ∅ (detachFromNodes asset nodes : Action σ Outcome) := by
  rw [detachFromNodes]
  refine settles_ite (settles_pure _) ?_
  refine (settles_read _).bind fun found => (settles_announce henv _ _ _).bind fun _ => ?_
  refine (settles_view _).bind fun p => ?_
  refine settles_write_bind (fun _ => owing p found.1) (fun s a s' _ hrun =>
    (Transaction.stays_detachFromAll _ _ _ _ a s' hrun).upholds) fun outcome => ?_
  refine ((settles_announce henv _ _ _).bind fun _ => ?_).deferred p found.1
  exact (settles_announce henv _ _ _).bind fun _ => settles_pure _

/-- A move owes the job while observers hear of what it has done. -/
theorem settles_moveSeen (host : HierarchyId) (target : NodeId) (assets : List AssetId)
    (observed : List Attachment) :
    Settles env failing ∅ (moveSeen host target assets observed : Action σ Reassignment) := by
  refine (settles_announce henv _ _ _).bind fun _ => (settles_view _).bind fun p => ?_
  refine settles_write_bind (fun _ => owing p host) (fun s a s' _ hrun =>
    (Transaction.stays_move _ _ _ _ _ a s' hrun).upholds) fun added => ?_
  refine Settles.announced henv _ _ _ (Settles.announced henv _ _ _ (Settles.deferred p host ?_))
  exact settles_pure _

theorem settles_reassign (assets : List AssetId) (target : NodeId) :
    Settles env failing ∅ (reassign assets target : Action σ Reassignment) := by
  refine ((settles_read _).map _).bind fun host => ?_
  refine settles_ite (settles_pure _) ?_
  refine (settles_read _).bind fun observed => Settles.holding henv host ?_
  rw [moveObserved_eq]
  refine (settles_read _).bind fun snapshot => ?_
  exact settles_ite (settles_moveSeen henv host target _ observed) (settles_lift _)

theorem settles_reconcile (host : HierarchyId) (mode : Mode) :
    Settles env failing ∅ (reconcile host mode : Action σ Report) := by
  refine ((settles_read _).map _).bind fun _ => ?_
  cases mode with
  | repair => exact settles_held henv host fun s a s' _ hrun =>
      (Transaction.stays_reconcile _ _ a s' hrun).upholds
  | checkOnly => exact settles_read _

end Tree

/-- Every request but a flush leaves the hierarchy with its job if it is marked. -/
theorem Request.settles (henv : env.Careful failing) {request : Request} (hjobs : request ≠ .flush) :
    Settles env failing ∅ (request.run : Action σ Answer) := by
  cases request with
  | createHierarchy name =>
    rw [run_createHierarchy]
    refine Settles.map _ ((settles_lift _).bind fun name => settles_write ?_)
    exact fun s made s' _ hrun => createHierarchy_upholds hrun
  | createChild parent value =>
    refine Settles.map _ (((settles_read _).map _).bind fun host => (settles_view _).bind fun preset => ?_)
    exact Tree.settles_held henv host fun s child s' hs hrun => createChild_upholds hs hrun
  | getOrCreateChild parent value =>
    rw [run_getOrCreateChild]
    refine Settles.map _ ((settles_lift _).bind fun value => ((settles_read _).map _).bind fun host => ?_)
    refine Tree.settles_held henv host fun s child s' hs hrun => ?_
    rw [Transaction.get_bind] at hrun
    obtain ⟨node, hnode, hrun⟩ := Transaction.lift_bind_eq_ok.1 hrun
    obtain ⟨row, hrow, -, hread⟩ := requireNode_read hnode
    exact (getOrInsertChild_upholds hs (hs.bounded_of_read hrow hread) hrun).1
  | createPath host path =>
    exact Settles.map _ (Tree.settles_held henv host fun s child s' hs hrun =>
      createPath_upholds hs hrun)
  | deleteNode id =>
    refine Settles.map _ (((settles_read _).map _).bind fun host => ?_)
    exact Tree.settles_held henv host fun s _ s' _ hrun => removeNode_upholds hrun
  | createAsset host name places => exact (Tree.settles_createAsset henv host name places).map _
  | deleteAsset id => exact (Tree.settles_deleteAsset henv id).map _
  | attach place batch => exact (Tree.settles_attach henv place batch).map _
  | detach place batch => exact (Tree.settles_detach henv place batch).map _
  | attachToNodes id places => exact (Tree.settles_attachToNodes henv id places).map _
  | detachFromNodes id places => exact (Tree.settles_detachFromNodes henv id places).map _
  | reassign batch target => exact (Tree.settles_reassign henv batch target).map _
  | reconcile host => exact (Tree.settles_reconcile henv host .repair).map _
  | check host => exact (Tree.settles_reconcile henv host .checkOnly).map _
  | schedule host =>
    exact Settles.map _ fun w => (Tree.heeds_schedule w.tree host _).unowed
  | flush => exact absurd rfl hjobs
  | root | node | nodeByKey | nodes | subtreeCount | nodeAssetIds | assetsUnder | computedCounts
  | children => exact (settles_read _).map _
  | _ => exact settles_of_tree_eq fun _ => rfl

end Inventory
