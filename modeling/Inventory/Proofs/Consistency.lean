import Inventory.Proofs.Forest
import Inventory.Proofs.Store.Checking
import Inventory.Proofs.Tree.Repair

/-! # Consistency checks

A check of a hierarchy is a question: it is answered from the tables alone and changes nothing, and
its answer is clean just where the hierarchy is consistent. Every hierarchy that requests lead to is
consistent while it has no mark. -/
namespace Inventory
set_option autoImplicit false
open Inventory.Store

/-- Whatever tree holds the store and whoever watches it, a check gives this report and leaves
everything as it is. -/
def Store.Checks (s : Store) (hierarchy : HierarchyId) (report : Report) : Prop :=
  ∀ {σ : Type} (env : Surroundings σ) (w : World σ), w.tree.store = s →
    (Request.check hierarchy).run env w = (.ok (.report report), w)

namespace Store
variable {s : Store} {hierarchy : HierarchyId}

theorem checks_of_reconcile (hhost : ∃ host ∈ s.hierarchies, host.id = hierarchy) {report : Report}
    (h : reconcile hierarchy .checkOnly s = .ok (report, s)) : s.Checks hierarchy report := by
  rintro σ env w rfl
  have hrun : Tree.reconcile hierarchy .checkOnly env w = (.ok report, w) := by
    rw [Tree.reconcile_of_host hhost]
    show ((·.1) <$> Store.reconcile hierarchy .checkOnly w.tree.store, w) = _
    rw [h]
    rfl
  rw [Request.run, Action.map_run, hrun]
  rfl

/-- A check is clean if and only if its hierarchy is consistent, however much is wrong with it; then
a repair has no row to change. In a store that requests have led to, a hierarchy without a mark is
found clean. -/
theorem check_exact (hhost : ∃ host ∈ s.hierarchies, host.id = hierarchy) :
    (s.Orderly hierarchy → ∃ report, s.Checks hierarchy report ∧
      (report.clean = true ↔ s.Consistent hierarchy) ∧
      (report.clean = true →
        ∃ again, reconcile hierarchy .repair s = .ok (again, s.unmark hierarchy))) ∧
    (s.Reachable → hierarchy ∉ s.marked →
      ∃ report, s.Checks hierarchy report ∧ report.clean = true) := by
  constructor
  · intro hs
    obtain ⟨report, hrun, hclean⟩ := hs.exists_check
    exact ⟨report, checks_of_reconcile hhost hrun, hclean, fun h => (hclean.1 h).repair_eq hs⟩
  · intro hreachable hunmarked
    obtain ⟨report, hrun, hclean⟩ := hreachable.tidy.check_clean hhost hunmarked
    exact ⟨report, checks_of_reconcile hhost hrun, hclean⟩

/-- A check finds fault with the ruin, and none with the library. -/
theorem check_exact_library :
    (∃ report, ruin.Checks 1 report ∧ report.clean = false) ∧
      ∃ report, (({} : Tree).after library).store.Checks 1 report ∧ report.clean = true := by
  have hruin : ∃ host ∈ ruin.hierarchies, host.id = 1 := by decide
  have hlibrary : ∃ host ∈ (({} : Tree).after library).store.hierarchies, host.id = 1 := by
    decide +kernel
  obtain ⟨report, hcheck, hclean, -⟩ := (check_exact hruin).1 orderly_ruin
  refine ⟨⟨report, hcheck, ?_⟩, ?_⟩
  · rw [← Bool.not_eq_true, hclean]
    intro h
    -- nobody has the coin
    obtain ⟨node, hlink⟩ := h.placed ⟨2, 1, "Coin"⟩ (by decide) rfl
    simp [ruin] at hlink
  · exact (check_exact hlibrary).2 (Tree.reachable_after Reachable.empty library) (by decide +kernel)

end Store
end Inventory
