import Inventory.Proofs.Queue
import Inventory.Proofs.Runs
import Inventory.Proofs.Store.Sturdy

/-! # Repairs of a tree

While its lease is free, a hierarchy of a sturdy store is repaired, and nothing of the tree but the
store is changed by that. Opening a sturdy store repairs all that is marked. -/
namespace Inventory
set_option autoImplicit false
open Inventory.Store Inventory.Action Relation

section Passive
variable {σ α : Type} {env : Surroundings σ} {w : World σ} {hierarchy : HierarchyId}

namespace Action

/-- A transaction under a free lease changes the store and nothing else of the tree. -/
theorem holding_write (henv : env.Passive) (hfree : w.tree.leases.isHeld hierarchy = false)
    {change : Transaction α} {a : α} {s : Store} (h : change w.tree.store = .ok (a, s)) :
    (holding hierarchy (write change) env w).1 = .ok a ∧
      (holding hierarchy (write change) env w).2.tree = { w.tree with store := s } := by
  have hquiet := henv (.waiting hierarchy) w
  generalize hu : env (.waiting hierarchy) w = u at hquiet
  have hrun : write change env (u.granted hierarchy) =
      (.ok a, { u with tree := { (u.granted hierarchy).tree with store := s } }) := by
    rw [write, World.granted, hquiet, h]
  rw [holding_granted hu (by rw [hquiet, hfree]), hrun]
  refine ⟨rfl, ?_⟩
  show ({ u.tree with
    store := s, leases := (u.tree.leases.grant hierarchy).release hierarchy } : Tree) = _
  rw [hquiet, Leases.release_grant hfree]

end Action

namespace Tree

theorem reconcile_of_host (hhost : ∃ host ∈ w.tree.store.hierarchies, host.id = hierarchy)
    (mode : Mode) :
    reconcile hierarchy mode env w =
      (match mode with
        | .repair => holding hierarchy (write (Store.reconcile hierarchy .repair))
        | .checkOnly => Action.read fun s => (·.1) <$> Store.reconcile hierarchy .checkOnly s :
        Action σ Report) env w := by
  obtain ⟨host, hin, hid⟩ := hhost
  have hknown : ∃ found, w.tree.store.requireHierarchy hierarchy = .ok found := by
    rw [requireHierarchy]
    cases hfound : w.tree.store.hierarchy? hierarchy with
    | some found => exact ⟨found, rfl⟩
    | none => exact absurd (beq_iff_eq.2 hid) (List.find?_eq_none.1 hfound host hin)
  obtain ⟨found, hfound⟩ := hknown
  have hfirst : ((fun _ => ()) <$> Action.read (·.requireHierarchy hierarchy) : Action σ Unit) env w =
      (.ok (), w) := by
    rw [map_run]
    show ((fun _ => ()) <$> w.tree.store.requireHierarchy hierarchy, w) = _
    rw [hfound]
    rfl
  exact bind_of_ok hfirst

/-- A hierarchy that is there is repaired while its lease is free. -/
theorem repair_free (henv : env.Passive) (hs : w.tree.store.Sturdy)
    (hhost : ∃ host ∈ w.tree.store.hierarchies, host.id = hierarchy)
    (hfree : w.tree.leases.isHeld hierarchy = false) :
    ∃ report s, Repairs [hierarchy] w.tree.store s ∧
      (reconcile hierarchy .repair env w).1 = .ok report ∧
      (reconcile hierarchy .repair env w).2.tree = { w.tree with store := s } := by
  obtain ⟨report, s, hrun⟩ := hs.exists_repair hierarchy
  have hrest : reconcile hierarchy .repair env w =
      holding hierarchy (write (Store.reconcile hierarchy .repair)) env w :=
    reconcile_of_host hhost .repair
  refine ⟨report, s, .repair hrun (.nil s), ?_⟩
  rw [hrest]
  exact holding_write henv hfree hrun

/-- Hierarchies that are there are repaired one after another while their leases are free. -/
theorem repairAll_free (henv : env.Passive) (hs : w.tree.store.Sturdy) {jobs : List HierarchyId}
    (hhosts : ∀ h ∈ jobs, ∃ host ∈ w.tree.store.hierarchies, host.id = h)
    (hfree : ∀ h ∈ jobs, w.tree.leases.isHeld h = false) :
    ∃ s, Repairs jobs w.tree.store s ∧ (repairAll jobs env w).1 = .ok () ∧
      (repairAll jobs env w).2.tree = { w.tree with store := s } := by
  induction jobs generalizing w with
  | nil => exact ⟨w.tree.store, .nil _, rfl, rfl⟩
  | cons first rest ih =>
    obtain ⟨report, s, hrepairs, hresult, htree⟩ := repair_free henv hs
      (hhosts first List.mem_cons_self) (hfree first List.mem_cons_self)
    have hmended := hrepairs.mended hs
    cases hrun : reconcile first .repair env w with
    | mk result w' =>
      rw [hrun] at hresult htree
      dsimp only at hresult htree
      subst hresult
      obtain ⟨t, hrest, hok, htree'⟩ := ih (w := w') (by rw [htree]; exact hmended.sturdy)
        (fun h hh => by
          rw [htree, hmended.hierarchies]
          exact hhosts h (List.mem_cons_of_mem _ hh))
        fun h hh => by
          rw [htree]
          exact hfree h (List.mem_cons_of_mem _ hh)
      have hstep : repairAll (first :: rest) env w = repairAll rest env w' :=
        bind_of_ok (bind_of_ok hrun)
      rw [htree] at hrest htree'
      exact ⟨t, hrepairs.append hrest, hstep ▸ hok, hstep ▸ htree'⟩

/-! ## Jobs -/

theorem reconcile_of_unknown (hunknown : ¬∃ host ∈ w.tree.store.hierarchies, host.id = hierarchy)
    (mode : Mode) : reconcile hierarchy mode env w = (.error (.notFound .hierarchy), w) := by
  have hnone : w.tree.store.hierarchy? hierarchy = none := by
    refine List.find?_eq_none.2 fun host hhost hid => ?_
    exact hunknown ⟨host, hhost, beq_iff_eq.1 hid⟩
  have hfirst : ((fun _ => ()) <$> Action.read (·.requireHierarchy hierarchy) : Action σ Unit) env w =
      (.error (.notFound .hierarchy), w) := by
    rw [map_run]
    show ((fun _ => ()) <$> w.tree.store.requireHierarchy hierarchy, w) = _
    rw [requireHierarchy, hnone]
    rfl
  exact bind_of_error hfirst

/-- No hierarchy needs more than an attempt to repair it while its lease is free. -/
theorem tryRepair_free (henv : env.Passive) (hs : w.tree.store.Sturdy)
    (hfree : w.tree.leases.isHeld hierarchy = false) :
    ∃ s, Repairs [hierarchy] w.tree.store s ∧
      (reconcile hierarchy .repair env w).2.tree = { w.tree with store := s } := by
  by_cases hhost : ∃ host ∈ w.tree.store.hierarchies, host.id = hierarchy
  · obtain ⟨_, s, hrepairs, -, htree⟩ := repair_free henv hs hhost hfree
    exact ⟨s, hrepairs, htree⟩
  · rw [reconcile_of_unknown hhost]
    exact ⟨w.tree.store, .unknown hhost (.nil _), rfl⟩

theorem tryRepairAll_free (henv : env.Passive) (hs : w.tree.store.Sturdy)
    (hfree : w.tree.leases = {}) (jobs : List HierarchyId) :
    ∃ s, Repairs jobs w.tree.store s ∧
      (tryRepairAll jobs env w).2.tree = { w.tree with store := s } := by
  induction jobs generalizing w with
  | nil => exact ⟨w.tree.store, .nil _, rfl⟩
  | cons first rest ih =>
    have hfirst : w.tree.leases.isHeld first = false := by
      rw [hfree]
      rfl
    obtain ⟨s, hrepairs, htree⟩ := tryRepair_free henv hs hfirst
    obtain ⟨t, hrest, htree'⟩ := ih (w := (reconcile first .repair env w).2)
      (by rw [htree]; exact (hrepairs.mended hs).sturdy) (by rw [htree, hfree])
    rw [htree] at hrest htree'
    exact ⟨t, hrepairs.append hrest, htree'⟩

/-- The jobs that the worker runs repair their hierarchies, and it is through with them. -/
theorem runJobs_free (henv : env.Passive) (hs : w.tree.store.Sturdy) (hfree : w.tree.leases = {})
    (jobs : List HierarchyId) :
    ∃ s stats, Repairs jobs w.tree.store s ∧ (runJobs jobs env w).1 = .ok () ∧
      (runJobs jobs env w).2.tree = { w.tree with
        store := s
        queue := { w.tree.queue with running := w.tree.queue.running.drop jobs.length, stats } } := by
  induction jobs generalizing w with
  | nil => exact ⟨w.tree.store, w.tree.queue.stats, .nil _, rfl, rfl⟩
  | cons first rest ih =>
    have hfirst : w.tree.leases.isHeld first = false := by
      rw [hfree]
      rfl
    obtain ⟨s, hrepairs, htree⟩ := tryRepair_free henv hs hfirst
    let failed := !(reconcile first .repair env w).1.toBool
    have hnext : ((reconcile first .repair env w).2.finished failed).tree =
        { w.tree with store := s, queue := w.tree.queue.finish failed } := by
      rw [World.finished, htree]
    obtain ⟨t, stats, hrest, hok, htree'⟩ :=
      ih (w := (reconcile first .repair env w).2.finished failed)
        (by rw [hnext]; exact (hrepairs.mended hs).sturdy) (by rw [hnext, hfree])
    rw [hnext] at hrest htree'
    rw [runJobs_cons]
    refine ⟨t, stats, hrepairs.append hrest, hok, htree'.trans ?_⟩
    rw [Queue.finish, List.length_cons]
    dsimp only
    rw [List.drop_tail]

theorem flush_free (henv : env.Passive) (hs : w.tree.store.Sturdy) (hfree : w.tree.leases = {}) :
    ∃ jobs s queue, (∀ h, h ∈ jobs ↔ h ∈ w.tree.queue.jobs) ∧ Repairs jobs w.tree.store s ∧
      (flush env w).1 = .ok () ∧ (flush env w).2.tree = { w.tree with store := s, queue } := by
  let w₁ : World σ := { w with tree := { w.tree with queue := (w.tree.queue.hasten 0).takeDue 0 } }
  obtain ⟨s, stats, hrepairs, hok, htree⟩ := runJobs_free (w := w₁) henv hs hfree w₁.tree.queue.running
  have hrest : flush env w =
      (runJobs w₁.tree.queue.running >>= fun _ => updateQueue Queue.retire) env w₁ := rfl
  cases hrun : runJobs w₁.tree.queue.running env w₁ with
  | mk result v =>
    rw [hrun] at hok htree
    dsimp only at hok htree
    subst hok
    rw [hrest, bind_of_ok hrun]
    refine ⟨w₁.tree.queue.running, s, v.tree.queue.retire, fun h => Queue.running_hasten _, hrepairs,
      rfl, ?_⟩
    show { v.tree with queue := v.tree.queue.retire } = _
    rw [htree]

end Tree
end Passive

namespace Store
variable {s t : Store}

theorem mem_pending {h : HierarchyId} : h ∈ s.pending ↔ h ∈ s.marked := List.mem_mergeSort

theorem Repaired.marked_eq_nil {repairs : List HierarchyId} (h : Repaired repairs s t)
    (hall : ∀ host ∈ s.marked, host ∈ repairs) : t.marked = [] := by
  rw [List.eq_nil_iff_forall_not_mem]
  intro host hhost
  obtain ⟨hmarked, hleft⟩ := (h.marked host).1 hhost
  exact hleft (hall host hmarked)

/-- Opening a sturdy store repairs what is marked and nothing else. -/
theorem Sturdy.openStore_eq (hs : s.Sturdy) (options : Options) :
    ∃ t, Repairs s.pending s t ∧ Tree.openStore s options = (.ok { options, store := t }, t) := by
  let fresh : World Unit := ⟨{ options, store := s }, ()⟩
  obtain ⟨t, hrepairs, hok, htree⟩ := Tree.repairAll_free (w := fresh) Surroundings.passive_quiet hs
    (fun h hh => hs.vouched h (mem_pending.1 hh)) fun _ _ => rfl
  refine ⟨t, hrepairs, ?_⟩
  rw [Tree.openStore]
  cases hrun : Tree.repairAll s.pending Surroundings.quiet fresh with
  | mk result w =>
    rw [hrun] at hok htree
    dsimp only at hok htree
    subst hok
    show (Except.ok w.tree, w.tree.store) = _
    rw [htree]

theorem Tidy.openStore_eq (hs : s.Tidy) (options : Options) :
    ∃ t, Repaired s.pending s t ∧ t.marked = [] ∧
      Tree.openStore s options = (.ok { options, store := t }, t) := by
  obtain ⟨t, hrepairs, hopen⟩ := hs.sturdy.openStore_eq options
  have hrepaired := hrepairs.repaired hs
  exact ⟨t, hrepaired, hrepaired.marked_eq_nil fun _ => mem_pending.2, hopen⟩

end Store
end Inventory
