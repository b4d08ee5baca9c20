import Inventory.Proofs.Store.Mending
import Inventory.Tree.Questions

/-! # The assets of a subtree

The rows in the text range of a node are those at or below its key, so the totals over them are what
the node holds: a count of it, or the assets themselves. The totals over the whole hierarchy have the
same number for the node. -/
namespace Inventory.Store
set_option autoImplicit false
variable {s : Store} {hierarchy : HierarchyId}

theorem subtreeNodes_eq {key : Key} (h : ∀ row ∈ s.subtreeRows hierarchy key, row.Legible) :
    ∃ rows : List NodeRow, rows.Perm (s.subtreeRows hierarchy key) ∧
      s.subtreeNodes hierarchy key = .ok (sortNodes (rows.map NodeRow.node)) := by
  refine ⟨_, List.mergeSort_perm _ fun a b => decide (a.key ≤ b.key), ?_⟩
  rw [subtreeNodes, mapM_read_eq fun row hrow => h row (List.mem_mergeSort.1 hrow)]
  rfl

theorem Orderly.keyed (hs : s.Orderly hierarchy) :
    ∀ row ∈ s.nodes, row.hierarchy = hierarchy → ∃ key : Key, row.key = key.text := fun _ hrow hh =>
  ⟨_, hs.text_node (mem_rowsOf.2 ⟨hrow, hh⟩)⟩

/-- The totals below a node are those of rows which make up what it holds. -/
theorem Orderly.exists_totalsBelow {row : NodeRow} (hs : s.Orderly row.hierarchy)
    (hrow : row ∈ s.nodes) : ∃ keys pairs,
      (∀ keep, s.totalsBelow row.id keep = .ok (row.node.key, aggregate keys pairs keep)) ∧
      row.node.key ∈ keys ∧
      Totals.below ((Key.ascending keys).map (Totals.directTally pairs)) row.node.key =
        s.holdings row.hierarchy row.key := by
  have hof := mem_rowsOf.2 ⟨hrow, rfl⟩
  have htext := hs.text_node hof
  have hrows : ∀ other ∈ s.subtreeRows row.hierarchy row.node.key, other ∈ s.rowsOf row.hierarchy :=
    fun _ hother => List.mem_of_mem_filter hother
  have hlegible := fun other hother => hs.legible other (hrows other hother)
  obtain ⟨rows, hperm, hnodes⟩ := subtreeNodes_eq hlegible
  obtain ⟨pairs, hpairs⟩ := exists_keyedAssets hlegible
  have hkeys : ∀ other ∈ s.subtreeRows row.hierarchy row.node.key,
      other.node.key ∈ (sortNodes (rows.map NodeRow.node)).map (·.key) := fun other hother =>
    List.mem_map_of_mem ((sortNodes_perm _).mem_iff.2 (List.mem_map_of_mem (hperm.mem_iff.2 hother)))
  have hwithin : ∀ other ∈ s.nodes, other.isWithin row.hierarchy row.node.key.text = true →
      other ∈ s.subtreeRows row.hierarchy row.node.key := fun other hother hin =>
    (mem_subtreeRows hs.keyed).2 ⟨hother, hin⟩
  have hself := hwithin row hrow ((isWithin_iff htext).2 ⟨rfl, Key.descendant_refl _⟩)
  refine ⟨(sortNodes (rows.map NodeRow.node)).map (·.key), pairs, fun keep => ?_, hkeys row hself, ?_⟩
  · rw [totalsBelow, requireNode_eq hs.nodeIds hrow (hs.legible row hof)]
    show (s.subtreeNodes row.hierarchy row.node.key >>= _) = _
    rw [hnodes]
    show (s.keyedAssets (s.subtreeRows row.hierarchy row.node.key) >>= _) = _
    rw [hpairs]
    rfl
  · rw [htext]
    exact below_keyedAssets hrows
      (fun other hother => ⟨_, hkeys other hother, hs.text_node (hrows other hother)⟩) hpairs hwithin

/-- The count of the assets below a node is the number of what it holds. -/
theorem Orderly.subtreeCount_eq {row : NodeRow} (hs : s.Orderly row.hierarchy) (hrow : row ∈ s.nodes) :
    s.subtreeCount row.id = .ok (s.holdings row.hierarchy row.key).card := by
  obtain ⟨keys, pairs, htotals, hkey, hbelow⟩ := hs.exists_totalsBelow hrow
  rw [subtreeCount, htotals false, ok_bind]
  dsimp only
  rw [Totals.count?_aggregate pairs false hkey, hbelow]
  rfl

/-- The assets below a node, ascending and each once, are what it holds. -/
theorem Orderly.exists_assetIds {row : NodeRow} (hs : s.Orderly row.hierarchy) (hrow : row ∈ s.nodes) :
    ∃ ids, s.assetIdsOf row.id = .ok ids ∧ (ids.Pairwise fun a b => a < b) ∧
      ids.toFinset = s.holdings row.hierarchy row.key := by
  obtain ⟨keys, pairs, htotals, hkey, hbelow⟩ := hs.exists_totalsBelow hrow
  obtain ⟨ids, hids, hascending, hmem⟩ := Totals.exists_assets?_aggregate pairs hkey
  refine ⟨ids, ?_, hascending, ?_⟩
  · rw [assetIdsOf, htotals true, ok_bind]
    dsimp only
    rw [hids]
    rfl
  · ext asset
    rw [List.mem_toFinset, hmem, hbelow]

theorem Orderly.exists_computedCounts (hs : s.Orderly hierarchy) :
    ∃ counts, s.computedCounts hierarchy = .ok counts ∧
      ∀ row ∈ s.rowsOf hierarchy, ∀ n,
        (row.node.key, n) ∈ counts ↔ n = (s.holdings hierarchy row.key).card := by
  obtain ⟨nodes, hnodes, hlists⟩ := hs.exists_lists
  obtain ⟨pairs, hpairs⟩ : ∃ pairs, s.keyedAssets (s.rowsOf hierarchy) = .ok pairs :=
    exists_keyedAssets hs.legible
  refine ⟨(aggregate (nodes.map (·.key)) pairs false).counts, ?_, fun row hrow n => ?_⟩
  · rw [computedCounts, hnodes, ok_bind, hpairs]
    rfl
  · have hcount := hlists.computed_eq hs hpairs hrow
    rw [computedAmount] at hcount
    obtain ⟨hin, hh⟩ := mem_rowsOf.1 hrow
    have hkey : row.node.key ∈ nodes.map (·.key) :=
      List.mem_map_of_mem (hlists.mem_iff.2 ⟨row, hin, hh, rfl⟩)
    simp only [Totals.counts_aggregate, List.mem_map, Key.mem_ascending, Prod.mk.injEq]
    constructor
    · rintro ⟨key, -, rfl, rfl⟩
      omega
    · rintro rfl
      exact ⟨row.node.key, List.mem_map.1 hkey, rfl, by omega⟩

end Inventory.Store
