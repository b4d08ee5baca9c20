import Inventory.Proofs.Attaching
import Inventory.Proofs.Store.Preservation

/-! # Transactions on attachments

A transaction that attaches adds the rows that are new. One that detaches removes the rows that are
there and brings the assets of the hierarchy that they leave without a node to its root. Either
keeps a sound store sound when the rows are of the hierarchy that it works in. -/
namespace Inventory.Store
set_option autoImplicit false

/-! ## What the rows of a store tell -/

section
variable {s s' : Store}

theorem isAttached_iff {asset : AssetId} {node : NodeId} :
    s.isAttached asset node = true ↔ (asset, node) ∈ s.attachments := List.contains_iff_mem

/-- An attachment to a known node joins it to an asset of its hierarchy. -/
theorem Joined.asset_of (hs : s.Formed) (hj : s.Joined) {link : Attachment}
    (hlink : link ∈ s.attachments) {row : NodeRow} (hrow : row ∈ s.nodes) (hid : row.id = link.2) :
    ∃ asset ∈ s.assets, asset.id = link.1 ∧ asset.hierarchy = row.hierarchy := by
  obtain ⟨asset, hasset, other, hother, haid, hoid, hh⟩ := hj link hlink
  rw [hs.eq_of_id hother hrow (hoid.trans hid.symm)] at hh
  exact ⟨asset, hasset, haid, hh⟩

theorem within_node (hs : s.Formed) {row : NodeRow} (hrow : row ∈ s.nodes) (assets : List AssetId) :
    s.Within row.hierarchy (assets.map (·, row.id)) := by
  intro link hlink other hother hid
  obtain ⟨asset, -, rfl⟩ := List.mem_map.1 hlink
  rw [hs.eq_of_id hother hrow hid]

theorem within_nodes (hs : s.Formed) {hierarchy : HierarchyId} {nodes : List Node}
    (hnodes : ∀ node ∈ nodes, node.row ∈ s.nodes ∧ node.hierarchy = hierarchy) (asset : AssetId) :
    s.Within hierarchy (nodes.map (asset, ·.id)) := by
  intro link hlink other hother hid
  obtain ⟨node, hnode, rfl⟩ := List.mem_map.1 hlink
  obtain ⟨hin, hh⟩ := hnodes node hnode
  rw [hs.eq_of_id hother hin hid]
  exact hh

theorem Sound.within (hs : s.Sound) {hierarchy : HierarchyId} {rows : List Attachment}
    (hrows : ∀ link ∈ rows, link ∈ s.attachments ∧
      ∃ asset ∈ s.assets, asset.id = link.1 ∧ asset.hierarchy = hierarchy) :
    s.Within hierarchy rows := by
  intro link hlink row hrow hid
  obtain ⟨hold, asset, hasset, haid, hh⟩ := hrows link hlink
  obtain ⟨other, hother, hoid, hjoin⟩ := hs.joined.asset_of hs.formed hold hrow hid
  rw [← hjoin, hs.formed.asset_eq_of_id hother hasset (hoid.trans haid.symm), hh]

theorem Sound.within_asset (hs : s.Sound) {asset : Asset} (hasset : asset ∈ s.assets)
    {nodes : List NodeId} (hnodes : ∀ node ∈ nodes, (asset.id, node) ∈ s.attachments) :
    s.Within asset.hierarchy (nodes.map (asset.id, ·)) := by
  refine hs.within fun link hlink => ?_
  obtain ⟨node, hnode, rfl⟩ := List.mem_map.1 hlink
  exact ⟨hnodes node hnode, asset, hasset, rfl, rfl⟩

theorem Formed.within_found (hs : s.Formed) {id : NodeId} {node : Node}
    (hnode : s.requireNode id = .ok node) (assets : List AssetId) :
    s.Within node.hierarchy (assets.map (·, id)) := by
  obtain ⟨hin, rfl⟩ := hs.requireNode hnode
  exact within_node hs hin assets

end

/-! ## Attaching -/

/-- The effect of a transaction that attaches new rows within a hierarchy. -/
structure Attached (propagate : Bool) (hierarchy : HierarchyId) (rows : List Attachment)
    (s s' : Store) : Prop where
  single : rows.Nodup
  new : ∀ link ∈ rows, link ∉ s.attachments
  joins : s.Joins rows
  within : s.Within hierarchy rows
  result : s' = (s.adding rows propagate).marking propagate hierarchy

section Attached
variable {s s' : Store} {propagate : Bool} {hierarchy : HierarchyId} {rows : List Attachment}

theorem Attached.keeps (h : Attached propagate hierarchy rows s s') :
    Keeps propagate hierarchy s (s.adding rows propagate) :=
  keeps_adding h.single h.new h.joins h.within

theorem Attached.sound (h : Attached propagate hierarchy rows s s') (hs : s.Sound) : s'.Sound := by
  rw [h.result]
  exact h.keeps.sound hs.toSteady (placed_adding hs.placed)

theorem Attached.attachments (h : Attached propagate hierarchy rows s s') :
    s'.attachments = s.attachments ++ rows := by
  rw [h.result]
  rfl

theorem attachAll_eq_ok (hs : s.Formed) {id : NodeId} {assets : List AssetId}
    {host : HierarchyId} {outcome : Outcome}
    (h : attachAll id assets propagate s = .ok ((host, outcome), s')) :
    Attached propagate host
        ((assets.eraseDups.filter (!s.isAttached · id)).map (·, id)) s s' ∧
      outcome.changes = Change.perAsset (assets.eraseDups.filter (!s.isAttached · id)) id ∧
      outcome.rehomed = [] ∧ ∃ row ∈ s.nodes, row.id = id ∧ row.hierarchy = host := by
  rw [attachAll, Transaction.get_bind] at h
  obtain ⟨node, hnode, h⟩ := Transaction.lift_bind_eq_ok.1 h
  obtain ⟨_, hassets, h⟩ := Transaction.lift_bind_eq_ok.1 h
  obtain ⟨edited, s₁, hadd, h⟩ := Transaction.bind_eq_ok.1 h
  obtain ⟨_, s₂, hmark, h⟩ := Transaction.bind_eq_ok.1 h
  cases h
  obtain ⟨hin, rfl⟩ := hs.requireNode hnode
  obtain ⟨hchanged, rfl, -⟩ := addToNode_eq_ok hs.indexed (isIn_of_row hin) hadd
  rw [← hchanged]
  have hknown := hs.ensureAssetsIn_iff.1 hassets
  refine ⟨⟨?_, ?_, ?_, ?_, ?_⟩, rfl, rfl, node.row, hin, rfl, rfl⟩
  · rw [hchanged]
    exact nodup_links (nodup_fresh ..) node.id
  · intro link hlink
    obtain ⟨asset, hasset, rfl⟩ := List.mem_map.1 hlink
    rw [hchanged] at hasset
    simpa [isAttached] using (List.mem_filter.1 hasset).2
  · intro link hlink
    obtain ⟨id, hid, rfl⟩ := List.mem_map.1 hlink
    rw [hchanged] at hid
    obtain ⟨asset, hasset, haid, hh⟩ :=
      hknown id (List.mem_eraseDups.1 (List.mem_of_mem_filter hid))
    exact ⟨asset, hasset, node.row, hin, haid, rfl, hh⟩
  · exact within_node hs hin edited.changed
  · exact markUnless_eq_ok hmark

theorem attachToAll_eq_ok (hs : s.Formed) {id : AssetId} {ids : List NodeId}
    {host : HierarchyId} {outcome : Outcome}
    (h : attachToAll id ids propagate s = .ok ((host, outcome), s')) :
    ∃ nodes : List NodeId, (∀ node, node ∈ nodes ↔ node ∈ ids ∧ (id, node) ∉ s.attachments) ∧
      Attached propagate host (nodes.map (id, ·)) s s' ∧
      outcome.changes = Change.perNode id nodes ∧ outcome.rehomed = [] := by
  rw [attachToAll, Transaction.get_bind] at h
  obtain ⟨asset, hasset, h⟩ := Transaction.lift_bind_eq_ok.1 h
  obtain ⟨targets, hload, h⟩ := Transaction.lift_bind_eq_ok.1 h
  obtain ⟨edited, s₁, hadd, h⟩ := Transaction.bind_eq_ok.1 h
  obtain ⟨_, s₂, hmark, h⟩ := Transaction.bind_eq_ok.1 h
  cases h
  obtain ⟨hknown, rfl⟩ := requireAsset_eq_ok hasset
  obtain ⟨hn, hperm, htargets⟩ := hs.loadNodesIn hload
  obtain ⟨hchanged, rfl⟩ := addToNodes_eq_ok hs.indexed hn (areIn_of_rows htargets) hadd
  have hmap := links_of_ids edited.changed asset.id
  refine ⟨edited.changed.map (·.id), ?_, ⟨?_, ?_, ?_, ?_, ?_⟩, rfl, rfl⟩
  · intro node
    rw [← hperm.mem_iff, hchanged]
    simp only [List.mem_map, List.mem_filter, Bool.not_eq_true', ← Bool.not_eq_true, isAttached_iff]
    constructor
    · rintro ⟨target, ⟨hin, hnew⟩, rfl⟩
      exact ⟨⟨target, hin, rfl⟩, hnew⟩
    · rintro ⟨⟨target, hin, rfl⟩, hnew⟩
      exact ⟨target, ⟨hin, hnew⟩, rfl⟩
  · rw [hmap, hchanged]
    exact nodup_targets hn asset.id _
  · intro link hlink
    rw [hmap, hchanged] at hlink
    obtain ⟨target, htarget, rfl⟩ := List.mem_map.1 hlink
    simpa [isAttached] using (List.mem_filter.1 htarget).2
  · intro link hlink
    rw [hmap, hchanged] at hlink
    obtain ⟨target, htarget, rfl⟩ := List.mem_map.1 hlink
    obtain ⟨hin, hh⟩ := htargets target (List.mem_of_mem_filter htarget)
    exact ⟨asset, hknown, target.row, hin, rfl, rfl, hh.symm⟩
  · rw [hmap, hchanged]
    exact within_nodes hs (fun node hnode => htargets node (List.mem_of_mem_filter hnode)) asset.id
  · rw [hmap]
    exact markUnless_eq_ok hmark

end Attached

/-! ## Detaching -/

/-- The effect of a transaction that removes rows and brings the assets of a hierarchy that are left
without a node by that to its root. -/
structure Detached (propagate : Bool) (hierarchy : HierarchyId) (gone rehomed : List Attachment)
    (s s' : Store) : Prop where
  old : ∀ link ∈ gone, link ∈ s.attachments
  strays : ∀ asset, asset ∈ rehomed.map (·.1) ↔
    asset ∈ gone.map (·.1) ∧ asset ∈ (s.removing gone propagate).orphans hierarchy
  single : rehomed.Nodup
  home : ∀ link ∈ rehomed, ∃ root ∈ s.nodes, root.id = link.2 ∧ root.hierarchy = hierarchy ∧
    root.parentKey = ""
  result : s' = ((s.removing gone propagate).adding rehomed propagate).marking propagate hierarchy

section Detached
variable {s s' : Store} {propagate : Bool} {hierarchy : HierarchyId} {gone rehomed : List Attachment}

theorem Detached.mem_attachments (h : Detached propagate hierarchy gone rehomed s s')
    {link : Attachment} :
    link ∈ s'.attachments ↔ (link ∈ s.attachments ∧ link ∉ gone) ∨ link ∈ rehomed := by
  rw [h.result, marking_attachments, adding_attachments, List.mem_append, mem_removing]

theorem Detached.unplaced (h : Detached propagate hierarchy gone rehomed s s') {link : Attachment}
    (hlink : link ∈ rehomed) :
    (∃ asset ∈ s.assets, asset.id = link.1 ∧ asset.hierarchy = hierarchy) ∧
      ∀ node, (link.1, node) ∉ (s.removing gone propagate).attachments :=
  mem_orphans.1 ((h.strays link.1).1 (List.mem_map_of_mem hlink)).2

/-- After the removal the assets that are left without a node are attached to the root. -/
theorem Detached.attached (h : Detached propagate hierarchy gone rehomed s s') (hs : s.Formed) :
    Attached propagate hierarchy rehomed (s.removing gone propagate) s' := by
  have halike := alike_removing s gone propagate
  refine ⟨h.single, fun link hlink => (h.unplaced hlink).2 link.2, ?_, ?_, h.result⟩
  · refine halike.joins fun link hlink => ?_
    obtain ⟨asset, hasset, hid, hh⟩ := (h.unplaced hlink).1
    obtain ⟨root, hroot, hrid, hrh, -⟩ := h.home link hlink
    exact ⟨asset, hasset, root, hroot, hid, hrid, hh.trans hrh.symm⟩
  · intro link hlink row hrow hid
    obtain ⟨root, hroot, hrid, hrh, -⟩ := h.home link hlink
    obtain ⟨old, hold, holdid, holdh, -, -⟩ := halike.exists_row hrow
    rw [← holdh, hs.eq_of_id hold hroot (holdid.trans (hid.trans hrid.symm))]
    exact hrh

theorem Detached.keeps (h : Detached propagate hierarchy gone rehomed s s') (hs : s.Formed)
    (hw : s.Within hierarchy gone) :
    Keeps propagate hierarchy s ((s.removing gone propagate).adding rehomed propagate) :=
  (keeps_removing propagate h.old hw).trans (h.attached hs).keeps

theorem Detached.placed (h : Detached propagate hierarchy gone rehomed s s') (hs : s.Sound)
    (hw : s.Within hierarchy gone) :
    ((s.removing gone propagate).adding rehomed propagate).Placed := by
  intro asset hasset
  by_cases hleft : ∃ node, (asset.id, node) ∈ (s.removing gone propagate).attachments
  · exact hleft.imp fun node hnode => List.mem_append_left _ hnode
  · rw [not_exists] at hleft
    obtain ⟨node, hnode⟩ := hs.placed asset hasset
    have hgone : (asset.id, node) ∈ gone := by
      by_contra hkept
      exact hleft node (mem_removing.2 ⟨hnode, hkept⟩)
    obtain ⟨known, hknown, row, hrow, hid, hrid, hh⟩ := hs.joined _ hnode
    rw [hs.formed.asset_eq_of_id hknown hasset hid] at hh
    have horphan : asset.id ∈ (s.removing gone propagate).orphans hierarchy :=
      mem_orphans.2 ⟨⟨asset, hasset, rfl, hh.trans (hw _ hgone row hrow hrid)⟩, hleft⟩
    obtain ⟨link, hlink, heq⟩ :=
      List.mem_map.1 ((h.strays asset.id).2 ⟨List.mem_map_of_mem hgone, horphan⟩)
    exact ⟨link.2, List.mem_append_right _ (heq ▸ hlink)⟩

theorem Detached.sound (h : Detached propagate hierarchy gone rehomed s s') (hs : s.Sound)
    (hw : s.Within hierarchy gone) : s'.Sound := by
  rw [h.result]
  exact (h.keeps hs.formed hw).sound hs.toSteady (h.placed hs hw)

theorem nodup_of_nodup_assets {rows : List Attachment} (h : (rows.map (·.1)).Nodup) : rows.Nodup :=
  h.of_map _

/-- Rehoming after rows were removed, as the second half of detaching. -/
theorem detached_of_rehome (hs : s.Formed) (hold : ∀ link ∈ gone, link ∈ s.attachments)
    {assets : List AssetId} (hassets : ∀ asset, asset ∈ assets ↔ asset ∈ gone.map (·.1))
    {changes : List Change} {t : Store}
    (h : rehome hierarchy assets propagate (s.removing gone propagate) = .ok (changes, t))
    (hs' : s' = t.marking propagate hierarchy) :
    Detached propagate hierarchy gone (Change.rows changes) s s' := by
  have hformed := (alike_removing s gone propagate).formed hs
  obtain ⟨rows, rfl, hrows, hassets', hhome⟩ := rehome_eq_ok hformed h
  rw [hrows]
  refine ⟨hold, fun asset => ?_, nodup_of_nodup_assets ?_, fun link hlink => ?_, hs'⟩
  · rw [hassets', List.mem_filter, List.contains_iff_mem, hassets]
    exact and_comm
  · rw [hassets']
    exact (nodup_orphans hformed.assetIds hierarchy).filter _
  · obtain ⟨root, hroot, hid, hh, hp⟩ := hhome link hlink
    obtain ⟨old, hin, hid', hh', -, hp'⟩ := (alike_removing s gone propagate).exists_row hroot
    exact ⟨old, hin, hid'.trans hid, hh'.trans hh, hp'.trans hp⟩

theorem detachAll_eq_ok (hs : s.Formed) {id : NodeId} {assets : List AssetId} {outcome : Outcome}
    (h : detachAll hierarchy id assets propagate s = .ok (outcome, s')) :
    Detached propagate hierarchy ((assets.eraseDups.filter (s.isAttached · id)).map (·, id))
        (Change.rows outcome.rehomed) s s' ∧
      outcome.changes = Change.perAsset (assets.eraseDups.filter (s.isAttached · id)) id ∧
      ∃ row ∈ s.nodes, row.id = id := by
  rw [detachAll, Transaction.get_bind] at h
  obtain ⟨node, hnode, h⟩ := Transaction.lift_bind_eq_ok.1 h
  obtain ⟨removed, s₁, hremove, h⟩ := Transaction.bind_eq_ok.1 h
  obtain ⟨rehomed, s₂, hrehome, h⟩ := Transaction.bind_eq_ok.1 h
  obtain ⟨_, s₃, hmark, h⟩ := Transaction.bind_eq_ok.1 h
  cases h
  obtain ⟨hin, rfl⟩ := hs.requireNode hnode
  obtain ⟨hchanged, rfl⟩ := removeFromNode_eq_ok hs.indexed (isIn_of_row hin) hremove
  rw [← hchanged]
  refine ⟨detached_of_rehome hs ?_ ?_ hrehome (markUnless_eq_ok hmark), rfl, node.row, hin, rfl⟩
  · intro link hlink
    obtain ⟨asset, hasset, rfl⟩ := List.mem_map.1 hlink
    rw [hchanged] at hasset
    exact isAttached_iff.1 (List.mem_filter.1 hasset).2
  · intro asset
    rw [List.map_map]
    exact (congrArg (asset ∈ ·) (List.map_id _).symm).to_iff

/-- The nodes that an asset is taken from are those of the given ones that it was attached to. -/
theorem removed_from_targets (hs : s.Formed) {id : AssetId} {ids : List NodeId} {targets : List Node}
    (hload : s.loadNodesIn hierarchy ids = .ok targets) {removed : Edited Node} {s₁ : Store}
    (h : removeFromNodes hierarchy id targets propagate s = .ok (removed, s₁)) :
    (∀ node, node ∈ removed.changed.map (·.id) ↔ node ∈ ids ∧ (id, node) ∈ s.attachments) ∧
      (removed.changed.map (·.id)).Nodup ∧ s.Within hierarchy (removed.changed.map (id, ·.id)) ∧
      s₁ = s.removing (removed.changed.map (id, ·.id)) propagate := by
  obtain ⟨hn, hperm, htargets⟩ := hs.loadNodesIn hload
  obtain ⟨hchanged, rfl⟩ := removeFromNodes_eq_ok hs.indexed hn (areIn_of_rows htargets) h
  refine ⟨fun node => ?_, ?_, ?_, rfl⟩
  · rw [← hperm.mem_iff, hchanged]
    simp only [List.mem_map, List.mem_filter, isAttached_iff]
    constructor
    · rintro ⟨target, ⟨hin, hlink⟩, rfl⟩
      exact ⟨⟨target, hin, rfl⟩, hlink⟩
    · rintro ⟨⟨target, hin, rfl⟩, hlink⟩
      exact ⟨target, ⟨hin, hlink⟩, rfl⟩
  · rw [hchanged]
    exact hn.sublist (List.filter_sublist.map _)
  · rw [hchanged]
    exact within_nodes hs (fun node hnode => htargets node (List.mem_of_mem_filter hnode)) id

theorem detachFromAll_eq_ok (hs : s.Formed) {id : AssetId} {ids : List NodeId} {outcome : Outcome}
    (h : detachFromAll hierarchy id ids propagate s = .ok (outcome, s')) :
    ∃ nodes : List NodeId, (∀ node, node ∈ nodes ↔ node ∈ ids ∧ (id, node) ∈ s.attachments) ∧
      nodes.Nodup ∧ s.Within hierarchy (nodes.map (id, ·)) ∧
      Detached propagate hierarchy (nodes.map (id, ·)) (Change.rows outcome.rehomed) s s' ∧
      outcome.changes = Change.perNode id nodes := by
  rw [detachFromAll, Transaction.get_bind] at h
  obtain ⟨targets, hload, h⟩ := Transaction.lift_bind_eq_ok.1 h
  obtain ⟨removed, s₁, hremove, h⟩ := Transaction.bind_eq_ok.1 h
  obtain ⟨hmem, hnodup, hwithin, rfl⟩ := removed_from_targets hs hload hremove
  have hmap := links_of_ids removed.changed id
  have hold : ∀ link ∈ removed.changed.map (id, ·.id), link ∈ s.attachments := by
    intro link hlink
    obtain ⟨node, hnode, rfl⟩ := List.mem_map.1 hlink
    exact ((hmem node.id).1 (List.mem_map_of_mem hnode)).2
  -- where no row went, nobody is looked for who might have lost the last one
  by_cases hempty : removed.changed.isEmpty = true
  · rw [if_pos hempty] at h
    obtain ⟨rehomed, s₂, hnone, h⟩ := Transaction.bind_eq_ok.1 h
    cases hnone
    obtain ⟨_, s₃, hmark, h⟩ := Transaction.bind_eq_ok.1 h
    cases h
    refine ⟨removed.changed.map (·.id), hmem, hnodup, hmap ▸ hwithin, ?_, rfl⟩
    rw [List.isEmpty_iff] at hempty
    rw [hempty] at hmark ⊢
    refine ⟨by simp, by simp [Change.rows], List.nodup_nil, by simp [Change.rows], ?_⟩
    rw [markUnless_eq_ok hmark]
    simp only [Change.rows, List.flatMap_nil, adding_nil, List.map_nil]
  · rw [if_neg hempty] at h
    obtain ⟨rehomed, s₂, hrehome, h⟩ := Transaction.bind_eq_ok.1 h
    obtain ⟨_, s₃, hmark, h⟩ := Transaction.bind_eq_ok.1 h
    cases h
    refine ⟨removed.changed.map (·.id), hmem, hnodup, hmap ▸ hwithin, ?_, rfl⟩
    rw [hmap]
    refine detached_of_rehome hs hold ?_ hrehome (markUnless_eq_ok hmark)
    intro asset
    rw [List.isEmpty_iff] at hempty
    obtain ⟨first, rest, hcons⟩ := List.exists_cons_of_ne_nil hempty
    rw [List.mem_singleton, List.map_map, hcons]
    constructor
    · rintro rfl
      exact List.mem_cons_self
    · intro hin
      obtain ⟨target, -, rfl⟩ := List.mem_map.1 hin
      rfl

end Detached
end Inventory.Store
