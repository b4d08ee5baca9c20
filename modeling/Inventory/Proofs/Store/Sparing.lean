import Inventory.Proofs.Store.Growth
import Inventory.Proofs.Store.Moving
import Inventory.Proofs.Store.Share

/-! # What transactions leave to other hierarchies

A transaction on one hierarchy spares the others: their shares stay as they are. Rows are told apart
by ids and attachments by the ids at their ends, which are distinct in the whole store; an amount is
adjusted where the rows of an edit reach, and they reach nothing in another hierarchy. -/
namespace Inventory
set_option autoImplicit false

section Filter
variable {α : Type} {p q : α → Bool} {items more : List α}

/-- Entries that come and are not looked for. -/
theorem filter_append_of_none (h : ∀ item ∈ more, ¬p item = true) :
    (items ++ more).filter p = items.filter p := by
  rw [List.filter_append, List.filter_eq_nil_iff.2 h, List.append_nil]

/-- Entries that go and are not looked for. -/
theorem filter_filter_of_all (h : ∀ item ∈ items.filter p, q item = true) :
    (items.filter q).filter p = items.filter p := by
  rw [List.filter_comm, List.filter_eq_self.2 h]

end Filter

namespace Store
variable {s s' t u : Store} {host other : HierarchyId} {rows : List Attachment} {propagate : Bool}

/-- The share of the hierarchy stays as it is. -/
def Spares (other : HierarchyId) (s t : Store) : Prop := t.share other = s.share other

theorem Spares.refl (other : HierarchyId) (s : Store) : Spares other s s := rfl

theorem Spares.trans (h : Spares other s t) (h' : Spares other t u) : Spares other s u :=
  Eq.trans h' h

/-! ## Elementary changes -/

theorem spares_of_parts
    (hhosts : t.hierarchies.filter (·.id == other) = s.hierarchies.filter (·.id == other))
    (hrows : t.rowsOf other = s.rowsOf other) (hassets : t.assetsOf other = s.assetsOf other)
    (hlinks : t.linksOf other = s.linksOf other)
    (hmarked : t.marked.filter (· == other) = s.marked.filter (· == other)) : Spares other s t := by
  rw [Spares, share, share, hhosts, hrows, hassets, hlinks, hmarked]

/-- With the attachments as they were, those of a hierarchy are told by its rows and assets. -/
theorem linksOf_congr (hrows : t.rowsOf other = s.rowsOf other)
    (hassets : t.assetsOf other = s.assetsOf other) (hattached : t.attachments = s.attachments) :
    t.linksOf other = s.linksOf other := by
  rw [linksOf, hrows, hassets, hattached, linksOf]

/-- A change of hierarchies, nodes and assets that are not of the hierarchy. -/
theorem spares_of_others
    (hhosts : t.hierarchies.filter (·.id == other) = s.hierarchies.filter (·.id == other))
    (hrows : t.rowsOf other = s.rowsOf other) (hassets : t.assetsOf other = s.assetsOf other)
    (hattached : t.attachments = s.attachments) (hmarked : t.marked = s.marked) :
    Spares other s t :=
  spares_of_parts hhosts hrows hassets (linksOf_congr hrows hassets hattached) (by rw [hmarked])

theorem spares_withNode {hosts : List Hierarchy} {row : NodeRow}
    (hhosts : ∀ made ∈ hosts, made.id ≠ other) (hrow : row.hierarchy ≠ other) :
    Spares other s (s.withNode hosts row) := by
  refine spares_of_others (filter_append_of_none fun made hmade hid => ?_)
    (filter_append_of_none fun new hnew hhost => ?_) rfl rfl rfl
  · exact hhosts made hmade (beq_iff_eq.1 hid)
  · rw [List.mem_singleton.1 hnew] at hhost
    exact hrow (beq_iff_eq.1 hhost)

theorem spares_deleteNode {id : NodeId} (h : ∀ row ∈ s.rowsOf other, row.id ≠ id) :
    Spares other s (s.deleteNode id) :=
  spares_of_others rfl (filter_filter_of_all fun row hrow => bne_iff_ne.2 (h row hrow)) rfl rfl rfl

/-- Rows that change in place, those of the hierarchy excepted. -/
theorem spares_map {change : NodeRow → NodeRow}
    (hhost : ∀ row, (change row).hierarchy = row.hierarchy)
    (hkept : ∀ row ∈ s.rowsOf other, change row = row) :
    Spares other s { s with nodes := s.nodes.map change } := by
  refine spares_of_others rfl ?_ rfl rfl rfl
  have hsame : ((·.hierarchy == other) ∘ change) = (·.hierarchy == other) :=
    funext fun row => congrArg (· == other) (hhost row)
  rw [rowsOf, List.filter_map, hsame]
  exact (List.map_congr_left hkept).trans (List.map_id' _)

theorem spares_shifted {delta : HierarchyId → String → Int}
    (h : ∀ row ∈ s.rowsOf other, delta row.hierarchy row.key = 0) :
    Spares other s (s.shifted delta) := by
  refine spares_map (fun _ => rfl) fun row hrow => ?_
  rw [h row hrow, Int.add_zero]

theorem spares_setAmount {id : NodeId} (amount : Int) (h : ∀ row ∈ s.rowsOf other, row.id ≠ id) :
    Spares other s (s.setAmount id amount) := by
  refine spares_map (fun row => ?_) fun row hrow => if_neg ?_
  · split <;> rfl
  · exact fun hid => h row hrow (beq_iff_eq.1 hid)

theorem spares_withAsset {asset : Asset} (h : asset.hierarchy ≠ other) :
    Spares other s (s.withAsset asset) := by
  refine spares_of_others rfl rfl (filter_append_of_none fun new hnew hhost => ?_) rfl rfl
  rw [List.mem_singleton.1 hnew] at hhost
  exact h (beq_iff_eq.1 hhost)

theorem spares_withoutAsset {id : AssetId} (h : ∀ asset ∈ s.assetsOf other, asset.id ≠ id) :
    Spares other s (s.withoutAsset id) :=
  spares_of_others rfl rfl
    (filter_filter_of_all fun asset hasset => bne_iff_ne.2 (h asset hasset)) rfl rfl

theorem spares_marking (hne : other ≠ host) (propagate : Bool) :
    Spares other s (s.marking propagate host) := by
  refine spares_of_parts rfl rfl rfl rfl ?_
  rw [marking]
  split
  · rfl
  · refine filter_append_of_none fun mark hmark hother => ?_
    rw [List.mem_singleton.1 hmark] at hother
    exact hne (beq_iff_eq.1 hother).symm

theorem spares_unmark (hne : other ≠ host) : Spares other s (s.unmark host) := by
  refine spares_of_parts rfl rfl rfl rfl (filter_filter_of_all fun mark hmark => ?_)
  rw [beq_iff_eq.1 (List.mem_filter.1 hmark).2]
  exact bne_iff_ne.2 hne

/-! ## Edits of attachments -/

/-- None of the attachments has a node or an asset of the hierarchy. -/
def Apart (s : Store) (other : HierarchyId) (rows : List Attachment) : Prop :=
  ∀ link ∈ rows, (∀ row ∈ s.rowsOf other, row.id ≠ link.2) ∧
    ∀ asset ∈ s.assetsOf other, asset.id ≠ link.1

/-- Attachments within one hierarchy are apart from every other. -/
theorem apart_of_joins (hs : s.Formed) (hj : s.Joins rows) (hw : s.Within host rows)
    (hne : other ≠ host) : s.Apart other rows := by
  intro link hlink
  obtain ⟨asset, hasset, row, hrow, haid, hrid, hh⟩ := hj link hlink
  have hplace : row.hierarchy = host := hw link hlink row hrow hrid
  constructor
  · intro node hnode hid
    obtain ⟨hin, hother⟩ := mem_rowsOf.1 hnode
    rw [hs.eq_of_id hin hrow (hid.trans hrid.symm)] at hother
    exact hne (hother.symm.trans hplace)
  · intro known hknown hid
    obtain ⟨hin, hother⟩ := mem_assetsOf.1 hknown
    rw [hs.asset_eq_of_id hin hasset (hid.trans haid.symm)] at hother
    exact hne (hother.symm.trans (hh.trans hplace))

theorem Apart.not_linked (h : s.Apart other rows) {link : Attachment} (hlink : link ∈ rows) :
    ((s.rowsOf other).any (·.id == link.2) || (s.assetsOf other).any (·.id == link.1)) = false := by
  obtain ⟨hnode, hasset⟩ := h link hlink
  simp only [Bool.or_eq_false_iff, List.any_eq_false, beq_iff_eq]
  exact ⟨hnode, hasset⟩

theorem spares_plus (h : s.Apart other rows) : Spares other s (s.plus rows) := by
  refine spares_of_parts rfl rfl rfl (filter_append_of_none fun link hlink => ?_) rfl
  exact ne_true_of_eq_false (h.not_linked hlink)

theorem spares_minus (h : s.Apart other rows) : Spares other s (s.minus rows) := by
  refine spares_of_parts rfl rfl rfl (filter_filter_of_all fun link hlink => ?_) rfl
  rw [Bool.not_eq_true', ← Bool.not_eq_true, List.contains_iff_mem]
  exact fun hin => ne_true_of_eq_false (h.not_linked hin) (List.mem_filter.1 hlink).2

/-- Rows of one hierarchy bring nothing to the nodes of another. -/
theorem gain_foreign (hw : s.Within host rows) (hne : other ≠ host) (top : String) :
    s.gain rows other top = 0 := by
  rw [gain_eq_zero, reach_eq_empty (hw.foreign hne)]
  exact Finset.empty_subset _

theorem spares_adding (ha : s.Apart other rows) (hw : s.Within host rows) (hne : other ≠ host) :
    Spares other s (s.adding rows propagate) := by
  refine (spares_plus ha).trans (spares_shifted fun row hrow => ?_)
  rw [(mem_rowsOf.1 hrow).2, gain_foreign hw hne, ite_self]

theorem spares_removing (ha : s.Apart other rows) (hw : s.Within host rows) (hne : other ≠ host) :
    Spares other s (s.removing rows propagate) := by
  have hw' : (s.minus rows).Within host rows := hw
  refine (spares_minus ha).trans (spares_shifted fun row hrow => ?_)
  rw [(mem_rowsOf.1 hrow).2, gain_foreign hw' hne, Int.neg_zero, ite_self]

/-- Rows that are removed within a hierarchy. -/
theorem Sound.spares_removing (hs : s.Sound) (hold : ∀ link ∈ rows, link ∈ s.attachments)
    (hw : s.Within host rows) (hne : other ≠ host) :
    Spares other s (s.removing rows propagate) :=
  Store.spares_removing
    (apart_of_joins hs.formed (fun link hlink => hs.joined link (hold link hlink)) hw hne) hw hne

theorem Attached.spares (h : Attached propagate host rows s s') (hs : s.Formed)
    (hne : other ≠ host) : Spares other s s' := by
  rw [h.result]
  exact (spares_adding (apart_of_joins hs h.joins h.within hne) h.within hne).trans
    (spares_marking hne propagate)

theorem Detached.spares {gone rehomed : List Attachment}
    (h : Detached propagate host gone rehomed s s') (hs : s.Sound) (hw : s.Within host gone)
    (hne : other ≠ host) : Spares other s s' :=
  (hs.spares_removing h.old hw hne).trans
    ((h.attached hs.formed).spares ((alike_removing s gone propagate).formed hs.formed) hne)

theorem Moved.spares {target : NodeRow} {assets fresh : List AssetId}
    (h : Moved propagate host target assets rows fresh s s') (hs : s.Sound)
    (hw : s.Within host rows) (htarget : target.hierarchy = host)
    (hassets : ∀ id ∈ assets, ∃ asset ∈ s.assets, asset.id = id ∧ asset.hierarchy = host)
    (hne : other ≠ host) : Spares other s s' :=
  (hs.spares_removing h.old hw hne).trans
    ((h.attached hs.formed hw htarget hassets).spares
      ((alike_removing s rows propagate).formed hs.formed) hne)

/-! ## Structural transactions -/

theorem hierarchy_of_read {row : NodeRow} {node : Node} (h : row.read = .ok node) :
    node.hierarchy = row.hierarchy := by
  obtain ⟨key, -, h⟩ := Inventory.bind_eq_ok.1 h
  cases h
  rfl

theorem hierarchy_of_children {key : Key} {nodes : List Node} (h : s.children host key = .ok nodes)
    {node : Node} (hnode : node ∈ nodes) : node.hierarchy = host := by
  obtain ⟨read, hread, rfl⟩ := Inventory.map_eq_ok.1 h
  obtain ⟨row, hrow, hnode⟩ := (mem_of_mapM_eq_ok hread).1 ((sortNodes_perm read).mem_iff.1 hnode)
  rw [hierarchy_of_read hnode]
  exact (mem_rowsOf.1 (List.mem_of_mem_filter hrow)).2

theorem insertNode_spares (hne : host ≠ other) {key : Key} {value fullValue : String} {id : NodeId}
    (h : insertNode host key value fullValue s = .ok (id, s')) : Spares other s s' := by
  obtain ⟨-, -, -, rfl⟩ := insertNode_eq_ok h
  exact spares_withNode (fun _ hmade => absurd hmade List.not_mem_nil) hne

section Children
variable {parent child : Node} {value : String}

theorem insertChild_spares (hne : parent.hierarchy ≠ other) {siblings : List Node}
    (h : insertChild parent siblings value s = .ok (child, s')) :
    Spares other s s' ∧ child.hierarchy = parent.hierarchy := by
  obtain ⟨-, h⟩ := ensureWord_bind_eq_ok.1 h
  obtain ⟨id, s₁, hinsert, h⟩ := Transaction.bind_eq_ok.1 h
  cases h
  exact ⟨insertNode_spares hne hinsert, rfl⟩

theorem getOrInsertChild_spares (hne : parent.hierarchy ≠ other) {created : Bool}
    (h : getOrInsertChild parent value s = .ok ((child, created), s')) :
    Spares other s s' ∧ child.hierarchy = parent.hierarchy := by
  rw [getOrInsertChild, Transaction.get_bind] at h
  obtain ⟨siblings, hsiblings, h⟩ := Transaction.lift_bind_eq_ok.1 h
  cases hfind : siblings.find? (·.value == value) with
  | some found =>
    simp only [hfind] at h
    cases h
    exact ⟨Spares.refl .., hierarchy_of_children hsiblings (List.mem_of_find?_eq_some hfind)⟩
  | none =>
    simp only [hfind] at h
    obtain ⟨name, -, h⟩ := Transaction.lift_bind_eq_ok.1 h
    obtain ⟨node, s₁, hinsert, h⟩ := Transaction.bind_eq_ok.1 h
    cases h
    exact insertChild_spares hne hinsert

/-- All nodes on the way down are of the hierarchy in which it begins. -/
theorem descend_spares (hne : parent.hierarchy ≠ other) {values : List String}
    (h : descend parent values s = .ok (child, s')) : Spares other s s' := by
  induction values generalizing s parent with
  | nil =>
    cases h
    exact Spares.refl ..
  | cons value rest ih =>
    rw [descend, Transaction.bind_eq_ok] at h
    obtain ⟨⟨next, created⟩, s₁, hnext, h⟩ := h
    obtain ⟨hspares, hplace⟩ := getOrInsertChild_spares hne hnext
    exact hspares.trans (ih (hplace ▸ hne) h)

theorem createPath_spares (hs : s.Formed) (hne : host ≠ other) {path : String}
    (h : createPath host path s = .ok (child, s')) : Spares other s s' := by
  rw [createPath, Transaction.get_bind] at h
  obtain ⟨root, hroot, h⟩ := Transaction.lift_bind_eq_ok.1 h
  obtain ⟨-, hplace, -⟩ := hs.requireRoot hroot
  exact descend_spares (hplace ▸ hne) h

theorem createChild_spares {id : NodeId} (hparent : ∀ node, s.requireNode id = .ok node →
    node.hierarchy ≠ other) {option : Option String} {preset : String}
    (h : createChild host id option preset s = .ok (child, s')) : Spares other s s' := by
  rw [createChild, Transaction.get_bind] at h
  obtain ⟨parent, hfound, h⟩ := Transaction.lift_bind_eq_ok.1 h
  have hne := hparent parent hfound
  rw [Transaction.get_bind] at h
  obtain ⟨siblings, -, h⟩ := Transaction.lift_bind_eq_ok.1 h
  cases option with
  | none =>
    obtain ⟨-, h⟩ := ensureWord_bind_eq_ok.1 h
    exact (insertChild_spares hne h).1
  | some name =>
    obtain ⟨stored, -, h⟩ := Transaction.lift_bind_eq_ok.1 h
    by_cases htaken : siblings.any (·.value == stored) = true
    · rw [if_pos htaken] at h
      cases h
    · rw [if_neg htaken] at h
      exact (insertChild_spares hne h).1

end Children

theorem createHierarchy_spares (hne : other ≠ nextId (s.hierarchies.map (·.id))) {name : String}
    {made : Hierarchy × Node} (h : createHierarchy name s = .ok (made, s')) : Spares other s s' := by
  obtain ⟨id, s₁, hhost, h⟩ := Transaction.bind_eq_ok.1 h
  cases hhost
  obtain ⟨keys, -, h⟩ := Transaction.lift_bind_eq_ok.1 (Transaction.get_bind.symm.trans h)
  obtain ⟨-, h⟩ := ensureWord_bind_eq_ok.1 h
  obtain ⟨node, s₂, hinsert, h⟩ := Transaction.bind_eq_ok.1 h
  cases h
  refine Spares.trans ?_ (insertNode_spares hne.symm hinsert)
  refine spares_of_others (filter_append_of_none fun known hknown hid => ?_) rfl rfl rfl rfl
  rw [List.mem_singleton.1 hknown] at hid
  exact hne (beq_iff_eq.1 hid).symm

theorem removeNode_spares (hs : s.Formed) {id : NodeId} (hplace : ∀ row ∈ s.rowsOf other, row.id ≠ id)
    (h : removeNode host id s = .ok ((), s')) : Spares other s s' := by
  obtain ⟨row, rfl, -, rfl, -⟩ := removeNode_eq_ok hs h
  exact spares_deleteNode hplace

/-! ## Transactions on assets -/

theorem createAsset_spares (hs : s.Sound) (hne : other ≠ host) {name : String} {ids : List NodeId}
    {made : Asset × List NodeId} (h : createAsset host name ids propagate s = .ok (made, s')) :
    Spares other s s' := by
  obtain ⟨hplace, -, hnew, hhost, -, hattached⟩ := createAsset_eq_ok hs.toSteady h
  have hformed := (hs.toSteady.withAsset hnew hhost).formed
  exact (spares_withAsset (hplace ▸ hne.symm)).trans (hattached.spares hformed hne)

theorem removeAsset_spares (hs : s.Sound) {asset : Asset} (hasset : asset ∈ s.assets)
    (hne : other ≠ asset.hierarchy) {propagates : Nat → Bool} {removed : List NodeId × Bool}
    (h : removeAsset asset.hierarchy asset.id propagates s = .ok (removed, s')) :
    Spares other s s' := by
  obtain ⟨-, hnodes, hresult, -⟩ := removeAsset_eq_ok hs.toSteady h
  have hw := hs.within_asset hasset fun node => (hnodes node).1
  have hold : ∀ link ∈ removed.1.map (asset.id, ·), link ∈ s.attachments := by
    intro link hlink
    obtain ⟨node, hnode, rfl⟩ := List.mem_map.1 hlink
    exact (hnodes node).1 hnode
  rw [hresult hw]
  refine (hs.spares_removing hold hw hne).trans
    ((spares_withoutAsset fun known hknown hid => ?_).trans (spares_marking hne removed.2))
  obtain ⟨hin, hplace⟩ := mem_assetsOf.1 hknown
  rw [hs.formed.asset_eq_of_id hin hasset hid] at hplace
  exact hne hplace.symm

/-! ## Repairs -/

theorem spares_setAmounts {nodes : List Node} (value : Node → Int)
    (h : ∀ row ∈ s.rowsOf other, ∀ node ∈ nodes, row.id ≠ node.id) :
    Spares other s (s.setAmounts nodes value) := by
  induction nodes generalizing s with
  | nil => exact Spares.refl ..
  | cons node rest ih =>
    have hfirst : Spares other s (s.setAmount node.id (value node)) :=
      spares_setAmount _ fun row hrow => h row hrow node List.mem_cons_self
    have hrows : (s.setAmount node.id (value node)).rowsOf other = s.rowsOf other :=
      congrArg Store.nodes hfirst
    refine hfirst.trans (ih fun row hrow later hlater => ?_)
    exact h row (hrows ▸ hrow) later (List.mem_cons_of_mem _ hlater)

theorem reconcile_spares (hs : s.Sound) (hne : other ≠ host) {report : Report}
    (h : reconcile host .repair s = .ok (report, s')) : Spares other s s' := by
  obtain ⟨nodes, pairs, hnodes, -, rfl⟩ := reconcile_eq_ok hs h
  refine (spares_setAmounts _ fun row hrow node hnode hid => ?_).trans (spares_unmark hne)
  obtain ⟨hin, hplace⟩ := mem_rowsOf.1 hrow
  obtain ⟨hknown, hhost⟩ := mem_rowsOf.1
    (hnodes.mem_iff.1 (List.mem_map_of_mem (List.mem_of_mem_filter hnode)))
  rw [hs.formed.eq_of_id hin hknown hid] at hplace
  exact hne (hplace.symm.trans hhost)

end Store
end Inventory
