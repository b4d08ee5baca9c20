import Inventory.Proofs.Store.Shape

/-! # Nodes as they are listed

In a tidy store every row can be read, and the node determines the row again. The children of a node
and the nodes of a hierarchy are listed by ascending keys, each once. -/
namespace Inventory
set_option autoImplicit false

theorem Node.row_injective : Function.Injective Node.row := by
  intro a b h
  have hkey : a.key = b.key := Key.text_injective (congrArg NodeRow.key h)
  cases a
  cases b
  simp_all [Node.row]

namespace Store
variable {s : Store} {hierarchy : HierarchyId}

theorem Formed.nodup_keys (hs : s.Formed) {rows : List NodeRow} (hrows : rows.Subperm s.nodes)
    {nodes : List Node} (hnodes : nodes.map Node.row = rows) : (nodes.map (·.key)).Nodup := by
  have hkeys : (rows.map (·.key)).Nodup := by
    obtain ⟨sub, hperm, hsub⟩ := hrows
    exact (hperm.map _).nodup_iff.1 (hs.keys.sublist (hsub.map _))
  rw [← hnodes, List.map_map] at hkeys
  exact List.Nodup.of_map Key.text (by rwa [List.map_map])

theorem Tidy.exists_node (hs : s.Tidy) {row : NodeRow} (hrow : row ∈ s.nodes) :
    ∃ node : Node, node.row = row :=
  ⟨row.node, hs.formed.read_eq_ok hrow (hs.legible row hrow).read_eq⟩

/-- Rows that are read and sorted. -/
theorem Tidy.exists_sorted (hs : s.Tidy) {rows : List NodeRow} (hrows : rows.Subperm s.nodes) :
    ∃ nodes, rows.mapM NodeRow.read = .ok nodes ∧
      ((sortNodes nodes).Pairwise fun a b => a.key < b.key) ∧
      ∀ node, node ∈ sortNodes nodes ↔ node.row ∈ rows := by
  obtain ⟨nodes, hread⟩ := exists_mapM_read rows fun row hrow => hs.legible row (hrows.subset hrow)
  have hback := hs.formed.mapM_read (fun row hrow => hrows.subset hrow) hread
  refine ⟨nodes, hread, ?_, fun node => ?_⟩
  · rw [← List.pairwise_map, map_key_sortNodes]
    exact Key.pairwise_lt_sort (hs.formed.nodup_keys hrows hback)
  · rw [(sortNodes_perm nodes).mem_iff, ← hback, List.mem_map_of_injective Node.row_injective]

theorem Tidy.exists_nodes (hs : s.Tidy) (hierarchy : HierarchyId) :
    ∃ nodes, s.nodesOf hierarchy = .ok nodes ∧ (nodes.Pairwise fun a b => a.key < b.key) ∧
      ∀ node, node ∈ nodes ↔ node.row ∈ s.nodes ∧ node.hierarchy = hierarchy := by
  have hrows := (List.mergeSort_perm (s.rowsOf hierarchy) fun a b =>
    decide (a.parentKey ≤ b.parentKey)).subperm.trans (List.filter_sublist.subperm)
  obtain ⟨nodes, hread, hascending, hmem⟩ := hs.exists_sorted hrows
  refine ⟨sortNodes nodes, ?_, hascending, fun node => ?_⟩
  · rw [nodesOf, hread]
    rfl
  · rw [hmem, List.mem_mergeSort, mem_rowsOf]
    rfl

theorem Tidy.exists_children (hs : s.Tidy) (hierarchy : HierarchyId) (parent : Key) :
    ∃ kids, s.children hierarchy parent = .ok kids ∧ (kids.Pairwise fun a b => a.key < b.key) ∧
      ∀ kid, kid ∈ kids ↔
        kid.row ∈ s.nodes ∧ kid.hierarchy = hierarchy ∧ kid.key.parent? = some parent := by
  have hrows : (s.childRows hierarchy parent).Subperm s.nodes :=
    (List.filter_sublist.trans List.filter_sublist).subperm
  obtain ⟨nodes, hread, hascending, hmem⟩ := hs.exists_sorted hrows
  refine ⟨sortNodes nodes, ?_, hascending, fun kid => ?_⟩
  · rw [children, hread]
    rfl
  · rw [hmem, childRows, List.mem_filter, mem_rowsOf, beq_iff_eq, and_assoc, ← Key.parentText_eq_text]
    rfl

theorem Tidy.requireNode_eq (hs : s.Tidy) {node : Node} (hnode : node.row ∈ s.nodes) :
    s.requireNode node.id = .ok node := by
  have hlegible := hs.legible node.row hnode
  have hread := Node.row_injective (hs.formed.read_eq_ok hnode hlegible.read_eq)
  have hfound := Store.requireNode_eq hs.formed.nodeIds hnode hlegible
  rw [hread] at hfound
  exact hfound

end Store
end Inventory
