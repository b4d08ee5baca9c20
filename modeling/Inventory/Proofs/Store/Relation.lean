import Inventory.Proofs.Notice
import Inventory.Proofs.Store.Assets
import Inventory.Proofs.Store.Moving
import Mathlib.Data.Set.Basic

/-! # Attachments as a relation

The attachments of a store are a relation between assets and nodes. Each change of attachments takes
some pairs out of it and puts others in, and what it reports are the rows that really went and
came. -/
namespace Inventory
set_option autoImplicit false

/-- Every one of the assets with every one of the nodes. -/
def pairs (assets : List AssetId) (nodes : List NodeId) : Set Attachment :=
  {link | link.1 ∈ assets ∧ link.2 ∈ nodes}

theorem mem_pairs {assets : List AssetId} {nodes : List NodeId} {link : Attachment} :
    link ∈ pairs assets nodes ↔ link.1 ∈ assets ∧ link.2 ∈ nodes := Iff.rfl

theorem pairs_nil_left (nodes : List NodeId) : pairs [] nodes = ∅ :=
  Set.eq_empty_of_forall_notMem fun _ h => List.not_mem_nil h.1

theorem pairs_nil_right (assets : List AssetId) : pairs assets [] = ∅ :=
  Set.eq_empty_of_forall_notMem fun _ h => List.not_mem_nil h.2

/-- The changes stand for the given rows, each of which comes once. -/
structure Change.Lists (changes : List Change) (rows : Set Attachment) : Prop where
  nodup : (Change.rows changes).Nodup
  mem : ∀ link, link ∈ Change.rows changes ↔ link ∈ rows

theorem Change.lists_nil : Change.Lists [] ∅ :=
  ⟨List.nodup_nil, fun link => iff_of_false List.not_mem_nil (Set.notMem_empty link)⟩

namespace Store

def relation (s : Store) : Set Attachment := {link | link ∈ s.attachments}

theorem mem_relation {s : Store} {link : Attachment} :
    link ∈ s.relation ↔ link ∈ s.attachments := Iff.rfl

theorem relation_congr {s t : Store} (h : t.attachments = s.attachments) :
    t.relation = s.relation := by rw [relation, h]; rfl

/-- The node is the root of the hierarchy that the asset belongs to. -/
def IsHome (s : Store) (link : Attachment) : Prop :=
  ∃ asset ∈ s.assets, ∃ root ∈ s.nodes, asset.id = link.1 ∧ root.id = link.2 ∧
    root.hierarchy = asset.hierarchy ∧ root.parentKey = ""

/-- The rows to their root for the assets that lose a row with the given ones and have no other. -/
def homecoming (s : Store) (gone : Set Attachment) : Set Attachment :=
  {link | s.IsHome link ∧ (∃ node, (link.1, node) ∈ s.relation ∩ gone) ∧
    ∀ node, (link.1, node) ∈ s.relation → (link.1, node) ∈ gone}

theorem homecoming_empty (s : Store) : s.homecoming ∅ = ∅ :=
  Set.eq_empty_of_forall_notMem fun _ ⟨_, ⟨_, _, h⟩, _⟩ => h

section
variable {s s' : Store} {propagate : Bool} {hierarchy : HierarchyId}

/-! ## Attaching -/

theorem Attached.relation {rows : List Attachment}
    (h : Attached propagate hierarchy rows s s') {come : Set Attachment}
    (hcome : ∀ link, link ∈ rows ↔ link ∈ come ∧ link ∉ s.attachments) :
    s'.relation = s.relation ∪ come := by
  ext link
  rw [Set.mem_union, mem_relation, mem_relation, h.attachments, List.mem_append, hcome]
  tauto

theorem Attached.lists {rows : List Attachment} (h : Attached propagate hierarchy rows s s')
    {come : Set Attachment} (hcome : ∀ link, link ∈ rows ↔ link ∈ come ∧ link ∉ s.attachments)
    {changes : List Change} (hchanges : Change.rows changes = rows) :
    Change.Lists changes (come \ s.relation) where
  nodup := hchanges ▸ h.single
  mem link := by rw [hchanges, hcome, Set.mem_sdiff, mem_relation]

/-! ## Detaching -/

section Detached
variable {gone rehomed : List Attachment} {asked : Set Attachment}

/-- Within a hierarchy exactly those come home that have lost all they had. -/
theorem Detached.homecoming (h : Detached propagate hierarchy gone rehomed s s') (hs : s.Sound)
    (hw : s.Within hierarchy gone) (hgone : ∀ link, link ∈ gone ↔ link ∈ s.attachments ∧ link ∈ asked)
    (link : Attachment) : link ∈ rehomed ↔ link ∈ s.homecoming asked := by
  constructor
  · intro hlink
    obtain ⟨⟨asset, hasset, hid, hh⟩, hnone⟩ := h.unplaced hlink
    obtain ⟨root, hroot, hrid, hrh, hempty⟩ := h.home link hlink
    have hlost := ((h.strays link.1).1 (List.mem_map_of_mem hlink)).1
    obtain ⟨⟨id, node⟩, hin, rfl⟩ := List.mem_map.1 hlost
    refine ⟨⟨asset, hasset, root, hroot, hid, hrid, hrh.trans hh.symm, hempty⟩,
      ⟨node, (hgone _).1 hin⟩, fun other hother => ?_⟩
    by_contra hkept
    exact hnone other (mem_removing.2 ⟨hother, fun hmem => hkept ((hgone _).1 hmem).2⟩)
  · rintro ⟨⟨asset, hasset, root, hroot, hid, hrid, hrh, hempty⟩, ⟨node, hnode⟩, hall⟩
    have hin : (link.1, node) ∈ gone := (hgone _).2 hnode
    obtain ⟨other, hother, row, hrow, hoid, hrow', hjoin⟩ := hs.joined _ hnode.1
    have hsame := hs.formed.asset_eq_of_id hother hasset (hoid.trans hid.symm)
    have hhost : asset.hierarchy = hierarchy := by
      rw [← hsame, hjoin]
      exact hw _ hin row hrow hrow'
    have hstray : link.1 ∈ rehomed.map (·.1) := by
      refine (h.strays link.1).2 ⟨List.mem_map.2 ⟨_, hin, rfl⟩, ?_⟩
      refine mem_orphans.2 ⟨⟨asset, hasset, hid, hhost⟩, fun other hmem => ?_⟩
      obtain ⟨hold, hkept⟩ := mem_removing.1 hmem
      exact hkept ((hgone _).2 ⟨hold, hall other hold⟩)
    obtain ⟨⟨id, home⟩, hrehomed, heq⟩ := List.mem_map.1 hstray
    obtain ⟨root', hroot', hrid', hrh', hempty'⟩ := h.home _ hrehomed
    have hroots := hs.formed.root_unique hroot' hroot
      (hrh'.trans (hrh.trans hhost).symm) hempty' hempty
    have hlink : (id, home) = link := by
      refine Prod.ext heq ?_
      rw [← hrid, ← hroots]
      exact hrid'.symm
    exact hlink ▸ hrehomed

theorem Detached.relation (h : Detached propagate hierarchy gone rehomed s s') (hs : s.Sound)
    (hw : s.Within hierarchy gone)
    (hgone : ∀ link, link ∈ gone ↔ link ∈ s.attachments ∧ link ∈ asked) :
    s'.relation = s.relation \ asked ∪ s.homecoming asked := by
  ext link
  rw [mem_relation, h.mem_attachments, h.homecoming hs hw hgone, hgone, Set.mem_union,
    Set.mem_sdiff, mem_relation]
  tauto

theorem Detached.lists (h : Detached propagate hierarchy gone rehomed s s') (hs : s.Sound)
    (hw : s.Within hierarchy gone)
    (hgone : ∀ link, link ∈ gone ↔ link ∈ s.attachments ∧ link ∈ asked)
    {changes : List Change} (hchanges : Change.rows changes = rehomed) :
    Change.Lists changes (s.homecoming asked) where
  nodup := hchanges ▸ h.single
  mem link := by rw [hchanges, h.homecoming hs hw hgone]

end Detached

/-! ## Moving -/

theorem mem_attachmentsOf {assets : List AssetId} {link : Attachment} :
    link ∈ s.attachmentsOf assets ↔ link ∈ s.attachments ∧ link.1 ∈ assets := by
  obtain ⟨asset, node⟩ := link
  simp only [attachmentsOf, List.mem_flatMap, sortIds, List.mem_mergeSort, List.mem_eraseDups,
    List.mem_map, Prod.mk.injEq]
  constructor
  · rintro ⟨id, hid, node', hnode, rfl, rfl⟩
    exact ⟨mem_nodesOfAsset.1 hnode, hid⟩
  · rintro ⟨hlink, hid⟩
    exact ⟨asset, hid, node, mem_nodesOfAsset.2 hlink, rfl, rfl⟩

theorem nodup_sortIds {ids : List Int} (h : ids.Nodup) : (sortIds ids).Nodup :=
  (List.mergeSort_perm ..).nodup_iff.2 h

theorem Steady.nodup_nodesOfAsset (hs : s.Steady) (asset : AssetId) :
    (s.nodesOfAsset asset).Nodup := by
  refine nodup_sortIds (List.Nodup.map_on ?_ (hs.single.filter _))
  rintro ⟨a, node⟩ hlink ⟨b, node'⟩ hlink' heq
  have ha : a = asset := by simpa using (List.mem_filter.1 hlink).2
  have hb : b = asset := by simpa using (List.mem_filter.1 hlink').2
  exact Prod.ext (ha.trans hb.symm) heq

theorem Steady.nodup_attachmentsOf (hs : s.Steady) (assets : List AssetId) :
    (s.attachmentsOf assets).Nodup := by
  rw [attachmentsOf, List.nodup_flatMap]
  constructor
  · intro asset _
    exact (hs.nodup_nodesOfAsset asset).map fun _ _ heq => (Prod.mk.inj heq).2
  · refine (nodup_sortIds (nodup_eraseDups assets)).imp fun {asset other} hne => ?_
    intro link hlink hother
    obtain ⟨_, -, rfl⟩ := List.mem_map.1 hlink
    obtain ⟨_, -, heq⟩ := List.mem_map.1 hother
    exact hne (Prod.mk.inj heq).1.symm

/-- A move takes as many rows as the assets have. -/
theorem Steady.length_attachmentsOf (hs : s.Steady) (assets : List AssetId) :
    (s.attachmentsOf assets).length = s.attachments.countP (assets.contains ·.1) := by
  rw [List.countP_eq_length_filter]
  refine List.Perm.length_eq ?_
  refine (List.perm_ext_iff_of_nodup (hs.nodup_attachmentsOf assets) (hs.single.filter _)).2 ?_
  intro link
  rw [mem_attachmentsOf, List.mem_filter, List.contains_iff_mem]

theorem Moved.relation {target : NodeRow} {assets fresh : List AssetId} {rows : List Attachment}
    (h : Moved propagate hierarchy target assets rows fresh s s')
    (hrows : ∀ link, link ∈ rows ↔ link ∈ s.attachments ∧ link.1 ∈ assets) :
    s'.relation = s.relation \ {link | link.1 ∈ assets} ∪ pairs assets [target.id] := by
  ext link
  rw [mem_relation, h.mem_attachments, hrows, Set.mem_union, Set.mem_sdiff, mem_relation,
    Set.mem_ofPred_eq, mem_pairs, List.mem_singleton]
  tauto

end

end Store
end Inventory
