import Inventory.Proofs.Store.Membership

/-! # Creating and deleting assets

The id of a new row is larger than every id in use, so a new asset has no rows yet and gets exactly
those for its targets. A deleted asset takes exactly its own rows with it. -/
namespace Inventory
set_option autoImplicit false

theorem lt_nextId {used : List Int} {id : Int} (h : id ∈ used) : id < nextId used := by
  rw [nextId]
  cases hm : used.max? with
  | none =>
    rw [List.max?_eq_none_iff.1 hm] at h
    exact absurd h List.not_mem_nil
  | some m =>
    have hle := (List.max?_eq_some_iff.1 hm).2 id h
    simp only [Option.map_some, Option.getD_some]
    omega

theorem nodup_nextId {used : List Int} (h : used.Nodup) : (used ++ [nextId used]).Nodup :=
  h.append (List.nodup_singleton _) fun _ hid hnew =>
    ne_of_lt (lt_nextId hid) (List.mem_singleton.1 hnew)

namespace Store
variable {s s' : Store}

/-- The store with a further asset. -/
def withAsset (s : Store) (asset : Asset) : Store := { s with assets := s.assets ++ [asset] }

theorem Steady.withAsset (hs : s.Steady) {asset : Asset}
    (hnew : ∀ old ∈ s.assets, old.id ≠ asset.id)
    (hhost : ∃ h ∈ s.hierarchies, h.id = asset.hierarchy) : (s.withAsset asset).Steady := by
  have hf := hs.formed
  refine ⟨⟨hf.hierarchyIds, hf.nodeIds, ?_, hf.canonical, hf.keys, hf.apart, hf.hosted, hf.rooted, ?_⟩,
    hs.single, ?_, hs.parented, hs.settled⟩
  · rw [Store.withAsset, List.map_append]
    refine hf.assetIds.append (List.nodup_singleton _) ?_
    intro id hid hnewid
    obtain ⟨old, hold, rfl⟩ := List.mem_map.1 hid
    exact hnew old hold (by simpa using hnewid)
  · intro other hother
    rcases List.mem_append.1 hother with hold | hone
    · exact hf.owned other hold
    · rw [List.mem_singleton.1 hone]
      exact hhost
  · intro link hlink
    obtain ⟨known, hknown, rest⟩ := hs.joined link hlink
    exact ⟨known, List.mem_append_left _ hknown, rest⟩

theorem insertAsset_eq_ok {hierarchy : HierarchyId} {name : String} {id : AssetId}
    (h : insertAsset hierarchy name s = .ok (id, s')) :
    (∀ old ∈ s.assets, old.id ≠ id) ∧ s' = s.withAsset ⟨id, hierarchy, name⟩ := by
  rw [insertAsset, Transaction.get_bind] at h
  by_cases hknown : (s.hierarchy? hierarchy).isNone = true
  · rw [if_pos hknown] at h
    cases h
  · rw [if_neg hknown] at h
    cases h
    refine ⟨fun old hold heq => ?_, rfl⟩
    exact absurd heq (ne_of_lt (lt_nextId (List.mem_map_of_mem hold)))

/-- A new asset on chosen targets, whichever way they were found. -/
theorem insertAsset_attached (hs : s.Steady) {host : Hierarchy} (hhost : host ∈ s.hierarchies)
    {name : String} {targets : List Node} (hn : (targets.map (·.id)).Nodup)
    (htargets : ∀ node ∈ targets, node.row ∈ s.nodes ∧ node.hierarchy = host.id) {propagate : Bool}
    {asset : Asset} {nodes : List NodeId}
    (h : (do
      let id ← insertAsset host.id name
      let added ← addToNodes host.id id targets propagate
      markUnless propagate host.id
      return (⟨id, host.id, name⟩, added.changed.map (·.id)) : Transaction _) s =
      .ok ((asset, nodes), s')) :
    nodes = targets.map (·.id) ∧ asset.hierarchy = host.id ∧ asset.name = name ∧
      (∀ old ∈ s.assets, old.id ≠ asset.id) ∧
      Attached propagate host.id (nodes.map (asset.id, ·)) (s.withAsset asset) s' := by
  obtain ⟨id, s₂, hinsert, h⟩ := Transaction.bind_eq_ok.1 h
  obtain ⟨added, s₃, hadd, h⟩ := Transaction.bind_eq_ok.1 h
  obtain ⟨_, s₄, hmark, h⟩ := Transaction.bind_eq_ok.1 h
  cases h
  obtain ⟨hnew, rfl⟩ := insertAsset_eq_ok hinsert
  have hsteady : (s.withAsset ⟨id, host.id, name⟩).Steady :=
    hs.withAsset hnew ⟨host, hhost, rfl⟩
  obtain ⟨hchanged, rfl⟩ := addToNodes_eq_ok hsteady.formed.indexed hn (areIn_of_rows htargets) hadd
  have hunused : ∀ node, (id, node) ∉ (s.withAsset ⟨id, host.id, name⟩).attachments := by
    intro node hlink
    obtain ⟨old, hold, -, -, hid, -, -⟩ := hs.joined _ hlink
    exact hnew old hold hid
  have hall : added.changed = targets := by
    rw [hchanged, List.filter_eq_self]
    intro node _
    simpa [isAttached] using hunused node.id
  rw [hall]
  have hmap := links_of_ids targets id
  refine ⟨rfl, rfl, rfl, hnew, ⟨?_, ?_, ?_, ?_, ?_⟩⟩
  · exact hn.map fun _ _ h => (Prod.mk.inj h).2
  · intro link hlink
    obtain ⟨node, -, rfl⟩ := List.mem_map.1 hlink
    exact hunused node
  · intro link hlink
    rw [hmap] at hlink
    obtain ⟨node, hnode, rfl⟩ := List.mem_map.1 hlink
    obtain ⟨hin, hh⟩ := htargets node hnode
    exact ⟨⟨id, host.id, name⟩, List.mem_append_right _ (List.mem_singleton_self _), node.row, hin,
      rfl, rfl, hh.symm⟩
  · rw [hmap]
    exact within_nodes hsteady.formed htargets id
  · rw [hmap, ← hall]
    exact markUnless_eq_ok hmark

theorem createAsset_eq_ok (hs : s.Steady) {hierarchy : HierarchyId} {name : String}
    {ids : List NodeId} {propagate : Bool} {asset : Asset} {nodes : List NodeId}
    (h : createAsset hierarchy name ids propagate s = .ok ((asset, nodes), s')) :
    asset.hierarchy = hierarchy ∧ asset.name = name ∧ (∀ old ∈ s.assets, old.id ≠ asset.id) ∧
      (∃ h ∈ s.hierarchies, h.id = asset.hierarchy) ∧
      (if ids = [] then ∃ root ∈ s.nodes, root.hierarchy = hierarchy ∧ root.parentKey = "" ∧
          nodes = [root.id]
        else nodes.Perm ids) ∧
      Attached propagate hierarchy (nodes.map (asset.id, ·)) (s.withAsset asset) s' := by
  rw [createAsset, Transaction.get_bind, Transaction.bind_eq_ok] at h
  obtain ⟨_, s₁, hhost, h⟩ := h
  obtain ⟨host, hhost, -⟩ := Transaction.map_eq_ok.1 hhost
  obtain ⟨hhost, rfl⟩ := Transaction.lift_eq_ok.1 hhost
  obtain ⟨hknown, rfl⟩ := requireHierarchy_eq_ok hhost
  by_cases hempty : ids = []
  · rw [if_pos (by simpa using hempty)] at h
    rw [if_pos hempty]
    obtain ⟨targets, s₂, htargets, hrest⟩ := Transaction.bind_eq_ok.1 h
    obtain ⟨root, hroot, rfl⟩ := Transaction.map_eq_ok.1 htargets
    obtain ⟨hroot, rfl⟩ := Transaction.lift_eq_ok.1 hroot
    obtain ⟨hin, hh, hp⟩ := hs.formed.requireRoot hroot
    have htarget : ∀ node ∈ [root], node.row ∈ s₂.nodes ∧ node.hierarchy = host.id := by
      simpa using ⟨hin, hh⟩
    have hone : ([root].map (·.id)).Nodup := List.nodup_singleton root.id
    obtain ⟨hnodes, hah, hname, hnew, hattached⟩ := insertAsset_attached hs hknown hone htarget hrest
    exact ⟨hah, hname, hnew, ⟨host, hknown, hah.symm⟩, ⟨root.row, hin, hh, hp, hnodes⟩, hattached⟩
  · rw [if_neg (by simpa using hempty)] at h
    rw [if_neg hempty]
    obtain ⟨targets, hload, h⟩ := Transaction.lift_bind_eq_ok.1 h
    obtain ⟨hn, hperm, htargets⟩ := hs.formed.loadNodesIn hload
    obtain ⟨hnodes, hah, hname, hnew, hattached⟩ := insertAsset_attached hs hknown hn htargets h
    exact ⟨hah, hname, hnew, ⟨host, hknown, hah.symm⟩, hnodes ▸ hperm, hattached⟩

theorem createAsset_sound (hs : s.Sound) {hierarchy : HierarchyId} {name : String}
    {ids : List NodeId} {propagate : Bool} {asset : Asset} {nodes : List NodeId}
    (h : createAsset hierarchy name ids propagate s = .ok ((asset, nodes), s')) : s'.Sound := by
  obtain ⟨-, -, hnew, hhost, hnodes, hattached⟩ := createAsset_eq_ok hs.toSteady h
  have hne : ∃ node, node ∈ nodes := by
    by_cases hempty : ids = []
    · rw [if_pos hempty] at hnodes
      obtain ⟨root, -, -, -, rfl⟩ := hnodes
      exact ⟨root.id, List.mem_singleton_self _⟩
    · rw [if_neg hempty] at hnodes
      obtain ⟨node, hnode⟩ := List.exists_mem_of_ne_nil ids hempty
      exact ⟨node, hnodes.mem_iff.2 hnode⟩
  rw [hattached.result]
  refine hattached.keeps.sound (hs.withAsset hnew hhost) fun other hother => ?_
  rcases List.mem_append.1 hother with hold | hone
  · exact (hs.placed other hold).imp fun _ hlink => List.mem_append_left _ hlink
  · obtain ⟨node, hnode⟩ := hne
    rw [List.mem_singleton.1 hone]
    exact ⟨node, List.mem_append_right _ (List.mem_map_of_mem hnode)⟩

/-! ## Deleting -/

theorem adjustForAsset_foreign (hs : s.Formed) {hierarchy : HierarchyId} {nodes : List Node}
    (hnodes : ∀ node ∈ nodes, node.IsIn s ∧ node.hierarchy ≠ hierarchy) (edit : Edit)
    (asset : AssetId) :
    (Counts.adjustForAsset s edit hierarchy asset (nodes.map (·.key))).2 = s := by
  rw [Counts.adjustForAsset_shifted hs.keyed]
  refine shifted_eq_self fun row hrow => if_neg ?_
  rintro ⟨⟨hh, key, hkey, hbelow⟩, -⟩
  obtain ⟨node, hnode, rfl⟩ := List.mem_map.1 hkey
  obtain ⟨⟨other, hother, -, hoh, hok⟩, hne⟩ := hnodes node hnode
  rw [← hok] at hbelow
  exact hne (hoh.symm.trans ((hs.hierarchy_of_below hother hrow hbelow).trans hh))

theorem mem_nodesOfAsset {asset : AssetId} {node : NodeId} :
    node ∈ s.nodesOfAsset asset ↔ (asset, node) ∈ s.attachments := by
  simp only [nodesOfAsset, sortIds, List.mem_mergeSort, List.mem_map, List.mem_filter, beq_iff_eq]
  constructor
  · rintro ⟨⟨a, n⟩, ⟨hlink, rfl⟩, rfl⟩
    exact hlink
  · exact fun hlink => ⟨(asset, node), ⟨hlink, rfl⟩, rfl⟩

/-- The nodes of an asset, with the rows that attach it to them. -/
theorem Steady.nodesOfAsset (hs : s.Steady) {id : AssetId} {nodes : List Node}
    (h : s.nodesByIds (s.nodesOfAsset id) = .ok nodes) :
    (nodes.map (·.id)).Nodup ∧ (∀ node ∈ nodes, node.row ∈ s.nodes) ∧
      ∀ node, node ∈ nodes.map (·.id) ↔ (id, node) ∈ s.attachments := by
  have hrows := hs.formed.nodesByIds h
  have hmap : nodes.map (·.id) = (s.nodes.filter ((s.nodesOfAsset id).contains ·.id)).map (·.id) := by
    rw [← hrows, List.map_map]
    rfl
  refine ⟨?_, fun node hnode => ?_, fun node => ?_⟩
  · rw [hmap]
    exact hs.formed.nodeIds.sublist (List.filter_sublist.map _)
  · have hin : node.row ∈ nodes.map Node.row := List.mem_map_of_mem hnode
    rw [hrows] at hin
    exact List.mem_of_mem_filter hin
  · rw [hmap, List.mem_map]
    constructor
    · rintro ⟨row, hrow, rfl⟩
      exact mem_nodesOfAsset.1 (List.contains_iff_mem.1 (List.mem_filter.1 hrow).2)
    · intro hlink
      obtain ⟨-, -, row, hrow, -, hid, -⟩ := hs.joined _ hlink
      refine ⟨row, List.mem_filter.2 ⟨hrow, ?_⟩, hid⟩
      rw [List.contains_iff_mem, mem_nodesOfAsset, hid]
      exact hlink

/-- The store without an asset that has no rows left. -/
def withoutAsset (s : Store) (id : AssetId) : Store :=
  { s with assets := s.assets.filter (·.id != id) }

/-- The row of an asset without attachments is all that there is to delete. -/
theorem deleteAsset_eq_withoutAsset {id : AssetId} (hnone : ∀ node, (id, node) ∉ s.attachments) :
    s.deleteAsset id = s.withoutAsset id := by
  have hkept : s.attachments.filter (·.1 != id) = s.attachments := by
    rw [List.filter_eq_self]
    intro link hlink
    rw [bne_iff_ne]
    rintro rfl
    exact hnone link.2 hlink
  rw [deleteAsset, hkept]
  rfl

/-- Deleting removes the rows of the asset. The amounts are adjusted where it belongs to the
hierarchy it is deleted from, and left alone where it does not. -/
theorem removeAsset_eq_ok (hs : s.Steady) {hierarchy : HierarchyId} {id : AssetId}
    {propagates : Nat → Bool} {nodes : List NodeId} {propagate : Bool}
    (h : removeAsset hierarchy id propagates s = .ok ((nodes, propagate), s')) :
    nodes.Nodup ∧ (∀ node, node ∈ nodes ↔ (id, node) ∈ s.attachments) ∧
      (s.Within hierarchy (nodes.map (id, ·)) →
        s' = ((s.removing (nodes.map (id, ·)) propagate).withoutAsset id).marking propagate
          hierarchy) ∧
      ((∀ row ∈ s.nodes, row.hierarchy = hierarchy → row.id ∉ nodes) →
        s' = ((s.minus (nodes.map (id, ·))).withoutAsset id).marking propagate hierarchy) := by
  rw [removeAsset, Transaction.get_bind] at h
  obtain ⟨found, hfound, h⟩ := Transaction.lift_bind_eq_ok.1 h
  obtain ⟨removed, s₁, hremove, h⟩ := Transaction.bind_eq_ok.1 h
  obtain ⟨_, s₂, hmodify, h⟩ := Transaction.bind_eq_ok.1 h
  cases hmodify
  obtain ⟨_, s₃, hmark, h⟩ := Transaction.bind_eq_ok.1 h
  cases h
  obtain ⟨hn, hin, hmem⟩ := hs.nodesOfAsset hfound
  obtain ⟨hchanged, hs₁⟩ := removeFromNodes_eq hn hremove
  have hall : removed.changed = found := by
    rw [hchanged, List.filter_eq_self]
    intro node hnode
    exact isAttached_iff.2 ((hmem node.id).1 (List.mem_map_of_mem hnode))
  have hmap := links_of_ids found id
  rw [hall] at hs₁ ⊢
  have hmarked : s' = (s₁.deleteAsset id).marking (propagates found.length) hierarchy :=
    markUnless_eq_ok hmark
  rw [hmarked, hmap]
  have hgone : ∀ node, (id, node) ∉ (s.minus (found.map (id, ·.id))).attachments := by
    intro node hlink
    obtain ⟨hold, hkept⟩ := mem_minus.1 hlink
    rw [← hmap] at hkept
    exact hkept (List.mem_map_of_mem ((hmem node).2 hold))
  have hformed := (alike_minus s (found.map (id, ·.id))).formed hs.formed
  refine ⟨hn, hmem, fun hw => ?_, fun hforeign => ?_⟩
  · have hhere : ∀ node ∈ found, node.row ∈ s.nodes ∧ node.hierarchy = hierarchy := fun node hnode =>
      ⟨hin node hnode, hw (id, node.id) (List.mem_map_of_mem hnode) node.row (hin node hnode) rfl⟩
    rw [adjusted_asset hformed.indexed id (areIn_of_rows hhere)] at hs₁
    rw [hs₁, deleteAsset_eq_withoutAsset (s := (s.minus _).shifted _) hgone, removing]
    simp only [Edit.sign, Int.neg_mul, Int.one_mul]
  · have hsame : s₁ = s.minus (found.map (id, ·.id)) := by
      rw [hs₁]
      cases found.length |> propagates with
      | true =>
        rw [if_pos rfl]
        refine adjustForAsset_foreign hformed (fun node hnode => ⟨isIn_of_row (hin node hnode), ?_⟩) _ _
        intro hh
        exact hforeign node.row (hin node hnode) hh (List.mem_map_of_mem hnode)
      | false => rfl
    rw [hsame, deleteAsset_eq_withoutAsset hgone]

theorem marking_withoutAsset (s : Store) (id : AssetId) (propagate : Bool) (hierarchy : HierarchyId) :
    (s.withoutAsset id).marking propagate hierarchy = (s.marking propagate hierarchy).withoutAsset id :=
  rfl

theorem Steady.withoutAsset (hs : s.Steady) {id : AssetId} (hnone : ∀ node, (id, node) ∉ s.attachments) :
    (s.withoutAsset id).Steady := by
  have hf := hs.formed
  refine ⟨⟨hf.hierarchyIds, hf.nodeIds, ?_, hf.canonical, hf.keys, hf.apart, hf.hosted, hf.rooted, ?_⟩,
    hs.single, ?_, hs.parented, hs.settled⟩
  · exact hf.assetIds.sublist (List.filter_sublist.map _)
  · exact fun asset hasset => hf.owned asset (List.mem_of_mem_filter hasset)
  · intro link hlink
    obtain ⟨asset, hasset, row, hrow, hid, rest⟩ := hs.joined link hlink
    refine ⟨asset, List.mem_filter.2 ⟨hasset, ?_⟩, row, hrow, hid, rest⟩
    rw [bne_iff_ne, hid]
    rintro rfl
    exact hnone link.2 hlink

theorem removeAsset_sound (hs : s.Sound) {hierarchy : HierarchyId} {id : AssetId}
    {propagates : Nat → Bool} {nodes : List NodeId} {propagate : Bool}
    (h : removeAsset hierarchy id propagates s = .ok ((nodes, propagate), s'))
    (hw : s.Within hierarchy (nodes.map (id, ·))) : s'.Sound := by
  obtain ⟨-, hmem, hwithin, -⟩ := removeAsset_eq_ok hs.toSteady h
  have hold : ∀ link ∈ nodes.map (id, ·), link ∈ s.attachments := by
    intro link hlink
    obtain ⟨node, hnode, rfl⟩ := List.mem_map.1 hlink
    exact (hmem node).1 hnode
  have hkeeps := keeps_removing propagate hold hw
  have hnone : ∀ node, (id, node) ∉ (s.removing (nodes.map (id, ·)) propagate).attachments := by
    intro node hlink
    obtain ⟨hin, hkept⟩ := mem_removing.1 hlink
    exact hkept (List.mem_map_of_mem ((hmem node).2 hin))
  have hplaced : ∀ asset ∈ s.assets, asset.id ≠ id →
      ∃ node, (asset.id, node) ∈ (s.removing (nodes.map (id, ·)) propagate).attachments := by
    intro asset hasset hne
    obtain ⟨node, hlink⟩ := hs.placed asset hasset
    refine ⟨node, mem_removing.2 ⟨hlink, fun hgone => ?_⟩⟩
    obtain ⟨other, -, heq⟩ := List.mem_map.1 hgone
    exact hne (Prod.mk.inj heq).1.symm
  have hsteady := (hkeeps.steady hs.toSteady).withoutAsset hnone
  rw [hwithin hw, marking_withoutAsset]
  refine ⟨hsteady, fun asset hasset => ?_⟩
  obtain ⟨hin, hne⟩ := List.mem_filter.1 hasset
  exact hplaced asset hin (bne_iff_ne.1 hne)

end Store
end Inventory
