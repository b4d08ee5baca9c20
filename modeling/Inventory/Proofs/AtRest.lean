import Inventory.Proofs.Amounts
import Inventory.Proofs.Refusals
import Inventory.Proofs.Store.Counting

/-! # Stores at rest

A store without marks has nothing to be repaired: its amounts are exact and it is what its rows make
it, so that opening and closing it changes nothing. -/
namespace Inventory
set_option autoImplicit false
open Inventory.Store

/-- A tidy store without marks. -/
structure Store.AtRest (s : Store) : Prop extends Tidy s where
  unmarked : s.marked = []

namespace Store
variable {s t : Store}

theorem AtRest.pending (h : s.AtRest) : s.pending = [] := by
  rw [Store.pending, h.unmarked, sortIds, List.mergeSort_nil]

theorem AtRest.amount_eq_card (h : s.AtRest) {row : NodeRow} (hrow : row ∈ s.nodes) :
    row.amount = (s.holdings row.hierarchy row.key).card :=
  h.settled row hrow (h.unmarked ▸ List.not_mem_nil)

/-- The rows of a store at rest leave no choice of the amounts. -/
theorem AtRest.eq_of_bare (hs : s.AtRest) (ht : t.AtRest) (h : t.bare = s.bare) : t = s := by
  rw [← hs.settled.refreshed hs.unmarked, ← ht.settled.refreshed ht.unmarked, refreshed_congr h]

theorem AtRest.repaired_eq (h : s.AtRest) {repairs : List HierarchyId}
    (hrepaired : Repaired repairs s t) : t = s := by
  refine h.eq_of_bare ⟨hrepaired.tidy, ?_⟩ hrepaired.bare
  exact hrepaired.marked_eq_nil fun host hhost => absurd hhost (h.unmarked ▸ List.not_mem_nil)

/-- A tree opens with everything repaired. -/
theorem Tidy.exists_opened (hs : s.Tidy) (options : Options) :
    ∃ t, t.AtRest ∧ t.bare = s.bare ∧ Tree.openStore s options = (.ok { options, store := t }, t) := by
  obtain ⟨t, hrepaired, hmarked, hopen⟩ := hs.openStore_eq options
  exact ⟨t, ⟨hrepaired.tidy, hmarked⟩, hrepaired.bare, hopen⟩

end Store

namespace Tree
variable {tree : Tree} {s : Store}

theorem calm_of_atRest (hs : tree.store.AtRest) (hfree : tree.leases = {}) : tree.Calm :=
  ⟨hs.toTidy, hfree, fun _ hhost => absurd hhost (hs.unmarked ▸ List.not_mem_nil)⟩

theorem close_eq (hs : tree.store.AtRest) (hfree : tree.leases = {}) : tree.close = tree.store := by
  obtain ⟨s, hrepairs, hclosed⟩ := tryRepairAll_free
    (w := World.mk { tree with queue := tree.queue.takePending.2 } ()) Surroundings.passive_quiet
    hs.toTidy.sturdy hfree tree.queue.takePending.1
  have hstore : tree.close = s := congrArg Tree.store hclosed
  rw [hstore, hs.repaired_eq (hrepairs.repaired hs.toTidy)]

end Tree
end Inventory
