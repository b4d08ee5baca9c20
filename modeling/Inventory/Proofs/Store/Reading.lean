import Inventory.Proofs.Distinct
import Inventory.Proofs.Store.Sound
import Inventory.Tree.Attaching

/-! # What the questions to a well-formed store answer

A question may fail on a key that is too large to be read. When it does not, the nodes that it
gives are exactly the rows it asks for. -/
namespace Inventory
set_option autoImplicit false

section Except
variable {ε α β : Type}

theorem ok_bind (a : α) (next : α → Except ε β) : (Except.ok a >>= next) = next a := rfl

theorem bind_eq_ok {x : Except ε α} {next : α → Except ε β} {b : β} :
    (x >>= next) = .ok b ↔ ∃ a, x = .ok a ∧ next a = .ok b := by
  cases x with
  | ok a =>
    refine ⟨fun h => ⟨a, rfl, h⟩, ?_⟩
    rintro ⟨a', h, h'⟩
    cases h
    exact h'
  | error e =>
    refine ⟨(fun h => nomatch h), ?_⟩
    rintro ⟨a, h, -⟩
    cases h

theorem map_eq_ok {f : α → β} {x : Except ε α} {b : β} :
    f <$> x = .ok b ↔ ∃ a, x = .ok a ∧ f a = b := by
  cases x with
  | ok a =>
    refine ⟨fun h => ⟨a, rfl, Except.ok.inj h⟩, ?_⟩
    rintro ⟨a', h, rfl⟩
    cases h
    rfl
  | error e =>
    refine ⟨(fun h => nomatch h), ?_⟩
    rintro ⟨a, h, -⟩
    cases h

theorem mapM_eq_ok {read : α → Except ε β} {back : β → α} {items : List α} {answers : List β}
    (hread : ∀ item ∈ items, ∀ answer, read item = .ok answer → back answer = item)
    (h : items.mapM read = .ok answers) : answers.map back = items := by
  induction items generalizing answers with
  | nil =>
    rw [List.mapM_nil] at h
    cases h
    rfl
  | cons item items ih =>
    rw [List.mapM_cons, bind_eq_ok] at h
    obtain ⟨answer, hanswer, h⟩ := h
    obtain ⟨others, hothers, h⟩ := bind_eq_ok.1 h
    cases h
    rw [List.map_cons, hread item (List.mem_cons_self ..) answer hanswer,
      ih (fun i hi => hread i (List.mem_cons_of_mem _ hi)) hothers]

end Except

theorem NodeRow.readKey_eq_ok {row : NodeRow} {column : Nat} {key key' : Key}
    (hkey : row.key = key.text) (h : row.readKey column = .ok key') : key' = key := by
  rw [readKey, hkey] at h
  cases hread : Key.ofText? key.text with
  | none => rw [hread] at h; cases h
  | some found =>
    rw [hread] at h
    cases h
    exact Key.eq_of_ofText?_text hread

namespace Store
variable {s : Store}

theorem Formed.read_eq_ok (hs : s.Formed) {row : NodeRow} (hrow : row ∈ s.nodes) {node : Node}
    (h : row.read = .ok node) : node.row = row := by
  obtain ⟨key, hkey, hparent⟩ := hs.canonical row hrow
  rw [NodeRow.read, bind_eq_ok] at h
  obtain ⟨key', hread, h⟩ := h
  have heq := NodeRow.readKey_eq_ok hkey hread
  cases h
  rw [Node.row, heq, ← hkey, ← hparent]

theorem Formed.mapM_read (hs : s.Formed) {rows : List NodeRow} (hrows : ∀ row ∈ rows, row ∈ s.nodes)
    {nodes : List Node} (h : rows.mapM NodeRow.read = .ok nodes) : nodes.map Node.row = rows :=
  mapM_eq_ok (fun row hrow _ hread => hs.read_eq_ok (hrows row hrow) hread) h

/-! ## Single nodes -/

theorem Formed.requireNode (hs : s.Formed) {id : NodeId} {node : Node}
    (h : s.requireNode id = .ok node) : node.row ∈ s.nodes ∧ node.id = id := by
  rw [Store.requireNode, bind_eq_ok] at h
  obtain ⟨found, hfound, h⟩ := h
  cases found with
  | none => cases h
  | some found =>
    cases h
    rw [node?] at hfound
    cases hrow : s.nodes.find? (·.id == id) with
    | none => rw [hrow] at hfound; cases hfound
    | some row =>
      rw [hrow] at hfound
      obtain ⟨read, hread, heq⟩ := map_eq_ok.1 hfound
      cases heq
      have hmem := List.mem_of_find?_eq_some hrow
      have hback := hs.read_eq_ok hmem hread
      have hid : row.id = id := by simpa using List.find?_some hrow
      exact ⟨hback ▸ hmem, (congrArg NodeRow.id hback).trans hid⟩

theorem mem_rowsOf {hierarchy : HierarchyId} {row : NodeRow} :
    row ∈ s.rowsOf hierarchy ↔ row ∈ s.nodes ∧ row.hierarchy = hierarchy := by
  rw [rowsOf, List.mem_filter, beq_iff_eq]

theorem Formed.rootNode? (hs : s.Formed) {hierarchy : HierarchyId} {found : Option Node}
    (h : s.rootNode? hierarchy = .ok found) :
    (∀ row ∈ s.nodes, row.hierarchy = hierarchy → row.parentKey = "" →
      ∃ root, found = some root ∧ root.row = row) ∧
      ∀ root, found = some root →
        root.row ∈ s.nodes ∧ root.hierarchy = hierarchy ∧ root.row.parentKey = "" := by
  rw [Store.rootNode?, bind_eq_ok] at h
  obtain ⟨roots, hread, h⟩ := h
  have hmem : ∀ {row : NodeRow}, row ∈ (s.rowsOf hierarchy).filter (·.parentKey == "") ↔
      row ∈ s.nodes ∧ row.hierarchy = hierarchy ∧ row.parentKey = "" := by
    intro row
    rw [List.mem_filter, mem_rowsOf, beq_iff_eq, and_assoc]
  have hrows := hs.mapM_read (fun row hrow => (hmem.1 hrow).1) hread
  rw [← hrows] at hmem
  match roots, h with
  | [], h =>
    cases h
    refine ⟨fun row hrow hh hp => ?_, fun root heq => nomatch heq⟩
    exact absurd (hmem.2 ⟨hrow, hh, hp⟩) List.not_mem_nil
  | [root], h =>
    cases h
    refine ⟨fun row hrow hh hp => ⟨root, rfl, ?_⟩, fun found heq => ?_⟩
    · exact (List.mem_singleton.1 (hmem.2 ⟨hrow, hh, hp⟩)).symm
    · cases heq
      exact hmem.1 (List.mem_singleton_self _)
  | _ :: _ :: _, h => cases h

theorem Formed.requireRoot (hs : s.Formed) {hierarchy : HierarchyId} {root : Node}
    (h : s.requireRoot hierarchy = .ok root) :
    root.row ∈ s.nodes ∧ root.hierarchy = hierarchy ∧ root.row.parentKey = "" := by
  rw [Store.requireRoot, bind_eq_ok] at h
  obtain ⟨found, hfound, h⟩ := h
  cases found with
  | none => cases h
  | some node =>
    cases h
    exact (hs.rootNode? hfound).2 _ rfl

/-! ## Lists of nodes -/

theorem sortNodes_perm (nodes : List Node) : (sortNodes nodes).Perm nodes :=
  List.mergeSort_perm _ _

theorem map_key_sortNodes (nodes : List Node) :
    (sortNodes nodes).map (·.key) = Key.sort (nodes.map (·.key)) := by
  rw [sortNodes, Key.sort, List.map_mergeSort]
  exact fun _ _ _ _ => rfl

theorem Formed.nodesByIds (hs : s.Formed) {ids : List NodeId} {nodes : List Node}
    (h : s.nodesByIds ids = .ok nodes) :
    nodes.map Node.row = s.nodes.filter (ids.contains ·.id) :=
  hs.mapM_read (fun _ hrow => List.mem_of_mem_filter hrow) h

theorem Formed.children (hs : s.Formed) {hierarchy : HierarchyId} {parent : Key}
    {nodes : List Node} (h : s.children hierarchy parent = .ok nodes) :
    (nodes.map Node.row).Perm (s.childRows hierarchy parent) := by
  obtain ⟨read, hread, rfl⟩ := map_eq_ok.1 h
  have hrows := hs.mapM_read (fun row hrow => (mem_rowsOf.1 (List.mem_of_mem_filter hrow)).1) hread
  rw [childRows, ← hrows]
  exact (sortNodes_perm read).map _

theorem Formed.nodesOf (hs : s.Formed) {hierarchy : HierarchyId} {nodes : List Node}
    (h : s.nodesOf hierarchy = .ok nodes) : (nodes.map Node.row).Perm (s.rowsOf hierarchy) := by
  obtain ⟨read, hread, rfl⟩ := map_eq_ok.1 h
  have hrows := hs.mapM_read (fun row hrow => (mem_rowsOf.1 (List.mem_mergeSort.1 hrow)).1) hread
  have hperm := (sortNodes_perm read).map Node.row
  rw [hrows] at hperm
  exact hperm.trans (List.mergeSort_perm _ _)

theorem Formed.loadNodesIn (hs : s.Formed) {hierarchy : HierarchyId} {ids : List NodeId}
    {nodes : List Node} (h : s.loadNodesIn hierarchy ids = .ok nodes) :
    (nodes.map (·.id)).Nodup ∧ (nodes.map (·.id)).Perm ids ∧
      ∀ node ∈ nodes, node.row ∈ s.nodes ∧ node.hierarchy = hierarchy := by
  rw [Store.loadNodesIn, bind_eq_ok] at h
  obtain ⟨read, hread, h⟩ := h
  have hrows := hs.nodesByIds hread
  by_cases hlen : read.length ≠ ids.length
  · rw [if_pos hlen] at h
    cases h
  · rw [if_neg hlen] at h
    rw [not_not] at hlen
    have hmap : read.map (·.id) = (s.nodes.filter (ids.contains ·.id)).map (·.id) := by
      rw [← hrows, List.map_map]
      rfl
    have hnodup : (read.map (·.id)).Nodup := by
      rw [hmap]
      exact hs.nodeIds.sublist (List.filter_sublist.map _)
    have hsub : (read.map (·.id)) ⊆ ids := by
      intro id hid
      rw [hmap] at hid
      obtain ⟨row, hrow, rfl⟩ := List.mem_map.1 hid
      simpa using (List.mem_filter.1 hrow).2
    have hfound := (hnodup.subperm hsub).perm_of_length_le (by rw [List.length_map, hlen])
    cases hstray : read.find? (·.hierarchy != hierarchy) with
    | some stray => simp only [hstray] at h; cases h
    | none =>
      simp only [hstray] at h
      cases h
      refine ⟨hnodup, hfound, fun node hnode => ⟨?_, ?_⟩⟩
      · have hin : node.row ∈ s.nodes.filter (ids.contains ·.id) :=
          hrows ▸ List.mem_map_of_mem hnode
        exact List.mem_of_mem_filter hin
      · simpa using List.find?_eq_none.1 hstray node hnode

/-! ## Hierarchies and assets -/

theorem requireHierarchy_eq_ok {id : HierarchyId} {found : Hierarchy}
    (h : s.requireHierarchy id = .ok found) : found ∈ s.hierarchies ∧ found.id = id := by
  rw [requireHierarchy] at h
  cases hfind : s.hierarchy? id with
  | none => rw [hfind] at h; cases h
  | some host =>
    rw [hfind] at h
    cases h
    exact ⟨List.mem_of_find?_eq_some hfind, by simpa using List.find?_some hfind⟩

theorem requireAsset_eq_ok {id : AssetId} {found : Asset} (h : s.requireAsset id = .ok found) :
    found ∈ s.assets ∧ found.id = id := by
  rw [requireAsset] at h
  cases hfind : s.asset? id with
  | none => rw [hfind] at h; cases h
  | some asset =>
    rw [hfind] at h
    cases h
    exact ⟨List.mem_of_find?_eq_some hfind, by simpa using List.find?_some hfind⟩

/-- The ids of a batch that are those of assets of the hierarchy. -/
def idsIn (s : Store) (hierarchy : HierarchyId) (ids : List AssetId) : List AssetId :=
  ((s.assetsOf hierarchy).filter (ids.contains ·.id)).map (·.id)

theorem mem_idsIn {hierarchy : HierarchyId} {ids : List AssetId} {id : AssetId} :
    id ∈ s.idsIn hierarchy ids ↔
      id ∈ ids ∧ ∃ asset ∈ s.assets, asset.id = id ∧ asset.hierarchy = hierarchy := by
  simp only [idsIn, assetsOf, List.mem_map, List.mem_filter, List.contains_iff_mem, beq_iff_eq]
  constructor
  · rintro ⟨asset, ⟨⟨hasset, hhost⟩, hid⟩, rfl⟩
    exact ⟨hid, asset, hasset, rfl, hhost⟩
  · rintro ⟨hid, asset, hasset, rfl, hhost⟩
    exact ⟨asset, ⟨⟨hasset, hhost⟩, hid⟩, rfl⟩

theorem Formed.nodup_idsIn (hs : s.Formed) (hierarchy : HierarchyId) (ids : List AssetId) :
    (s.idsIn hierarchy ids).Nodup := by
  refine hs.assetIds.sublist (List.Sublist.map _ ?_)
  exact List.filter_sublist.trans List.filter_sublist

/-- The check of a batch passes exactly when each of its ids is that of an asset of the hierarchy. -/
theorem Formed.ensureAssetsIn_iff (hs : s.Formed) {hierarchy : HierarchyId} {ids : List AssetId} :
    s.ensureAssetsIn hierarchy ids = .ok () ↔
      ∀ id ∈ ids, ∃ asset ∈ s.assets, asset.id = id ∧ asset.hierarchy = hierarchy := by
  have hsub : s.idsIn hierarchy ids.eraseDups ⊆ ids.eraseDups := fun id hid => (mem_idsIn.1 hid).1
  have hsubperm := (hs.nodup_idsIn hierarchy ids.eraseDups).subperm hsub
  have hlength : (s.assetsOf hierarchy).countP (ids.eraseDups.contains ·.id) =
      (s.idsIn hierarchy ids.eraseDups).length := by
    rw [idsIn, List.length_map, List.countP_eq_length_filter]
  rw [Store.ensureAssetsIn, hlength]
  constructor
  · intro h id hid
    by_cases hcount : (s.idsIn hierarchy ids.eraseDups).length = ids.eraseDups.length
    · have hperm := hsubperm.perm_of_length_le hcount.ge
      exact (mem_idsIn.1 (hperm.mem_iff.2 (List.mem_eraseDups.2 hid))).2
    · rw [if_neg hcount] at h
      cases h
  · intro h
    have hall : ids.eraseDups ⊆ s.idsIn hierarchy ids.eraseDups := fun id hid =>
      mem_idsIn.2 ⟨hid, h id (List.mem_eraseDups.1 hid)⟩
    have hperm := hsubperm.antisymm ((nodup_eraseDups ids).subperm hall)
    exact if_pos hperm.length_eq

end Store
end Inventory
