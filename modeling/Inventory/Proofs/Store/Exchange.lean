import Inventory.Proofs.Store.Relation
import Inventory.Proofs.Tree.Operations

/-! # Rows that go and rows that come

What a transaction does to the attachments, row by row: it takes away rows that are there, each
once, and brings rows that are not there then. A row may go and come again. -/
namespace Inventory.Store
set_option autoImplicit false
variable {s s' : Store} {propagate : Bool} {hierarchy : HierarchyId}

/-- The attachments are those of before, without the rows that go and with those that come. -/
structure Exchanged (gone come : List Attachment) (s s' : Store) : Prop where
  old : ∀ link ∈ gone, link ∈ s.attachments
  goneOnce : gone.Nodup
  comeOnce : come.Nodup
  new : ∀ link ∈ come, link ∈ s.attachments → link ∈ gone
  mem : ∀ link, link ∈ s'.attachments ↔ link ∈ s.attachments ∧ link ∉ gone ∨ link ∈ come

theorem exchanged_nothing (h : s'.relation = s.relation) : Exchanged [] [] s s' where
  old _ hlink := absurd hlink List.not_mem_nil
  goneOnce := List.nodup_nil
  comeOnce := List.nodup_nil
  new _ hlink := absurd hlink List.not_mem_nil
  mem link := by
    rw [← mem_relation, h, mem_relation, or_iff_left List.not_mem_nil,
      and_iff_left List.not_mem_nil]

theorem Exchanged.congr {gone come : List Attachment} {t : Store} (h : Exchanged gone come t s')
    (ht : t.attachments = s.attachments) : Exchanged gone come s s' where
  old := ht ▸ h.old
  goneOnce := h.goneOnce
  comeOnce := h.comeOnce
  new := ht ▸ h.new
  mem := ht ▸ h.mem

theorem Exchanged.perm {gone gone' come : List Attachment} (h : Exchanged gone come s s')
    (hperm : gone'.Perm gone) : Exchanged gone' come s s' where
  old link hlink := h.old link (hperm.mem_iff.1 hlink)
  goneOnce := hperm.nodup_iff.2 h.goneOnce
  comeOnce := h.comeOnce
  new link hlink hold := hperm.mem_iff.2 (h.new link hlink hold)
  mem link := by rw [h.mem, hperm.mem_iff]

theorem Attached.exchanged {rows : List Attachment} (h : Attached propagate hierarchy rows s s') :
    Exchanged [] rows s s' where
  old _ hlink := absurd hlink List.not_mem_nil
  goneOnce := List.nodup_nil
  comeOnce := h.single
  new link hlink hold := absurd hold (h.new link hlink)
  mem link := by simp [h.attachments]

/-- Whoever goes to the root has no row left at that moment. -/
theorem Detached.exchanged {gone rehomed : List Attachment}
    (h : Detached propagate hierarchy gone rehomed s s') (hgone : gone.Nodup) :
    Exchanged gone rehomed s s' where
  old := h.old
  goneOnce := hgone
  comeOnce := h.single
  new link hlink hold := by
    have hunplaced := (h.unplaced hlink).2 link.2
    rw [mem_removing] at hunplaced
    exact not_not.1 fun hkept => hunplaced ⟨hold, hkept⟩
  mem link := h.mem_attachments

theorem removeAsset_exchanged (hs : s.Sound) {asset : Asset} (hasset : asset ∈ s.assets)
    {propagates : Nat → Bool} {removed : List NodeId × Bool}
    (h : removeAsset asset.hierarchy asset.id propagates s = .ok (removed, s')) :
    removed.1.Perm (s.nodesOfAsset asset.id) ∧
      Exchanged (removed.1.map (asset.id, ·)) [] s s' := by
  obtain ⟨hn, hnodes, hresult, -⟩ := removeAsset_eq_ok hs.toSteady h
  have hw := hs.within_asset hasset fun node => (hnodes node).1
  refine ⟨?_, ⟨?_, ?_, List.nodup_nil, ?_, fun link => ?_⟩⟩
  · have hn' := hs.toSteady.nodup_nodesOfAsset asset.id
    refine (List.perm_ext_iff_of_nodup hn hn').2 fun node => ?_
    rw [hnodes, mem_nodesOfAsset]
  · intro link hlink
    obtain ⟨node, hnode, rfl⟩ := List.mem_map.1 hlink
    exact (hnodes node).1 hnode
  · exact hn.map fun _ _ heq => (Prod.mk.inj heq).2
  · exact fun _ hlink => absurd hlink List.not_mem_nil
  · have hattached : s'.attachments =
        (s.removing (removed.1.map (asset.id, ·)) removed.2).attachments := by
      rw [hresult hw]
      rfl
    rw [hattached, mem_removing, or_iff_left List.not_mem_nil]

/-- The rows of a batch that move to a node, also where one is there already. -/
theorem move_exchanged (hs : s.Sound) {id : NodeId} {assets : List AssetId}
    {found : HierarchyId × List Attachment} (hfound : Tree.observe assets id s = .ok found)
    {added : Edited AssetId}
    (h : move found.1 id assets found.2 propagate s = .ok (added, s')) :
    Exchanged found.2 (added.changed.map (·, id)) s s' := by
  obtain ⟨-, -, hobserved⟩ := Tree.observe_eq_ok hs.formed hfound
  obtain ⟨target, rfl, hmoved⟩ := move_eq_ok hs.toSteady h
  obtain ⟨t, ht, hresult⟩ := hmoved.result
  have hnew : ∀ link ∈ added.changed.map (·, target.id), link ∉ (s.minus found.2).attachments := by
    intro link hlink
    obtain ⟨asset, hasset, rfl⟩ := List.mem_map.1 hlink
    rw [hmoved.new] at hasset
    simpa [isAttached] using (List.mem_filter.1 hasset).2
  refine ⟨hmoved.old, ?_, ?_, ?_, fun link => ?_⟩
  · rw [hobserved]
    exact hs.toSteady.nodup_attachmentsOf assets
  · rw [hmoved.new]
    exact nodup_links (nodup_fresh ..) target.id
  · intro link hlink hold
    exact not_not.1 fun hkept => hnew link hlink (mem_minus.2 ⟨hold, hkept⟩)
  · rw [hresult, marking_attachments, adding_attachments, List.mem_append, ht.attachments,
      mem_minus]

end Inventory.Store
