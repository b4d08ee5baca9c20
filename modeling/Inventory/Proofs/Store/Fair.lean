import Inventory.Proofs.Key.Allocation
import Inventory.Proofs.Store.Mistakes
import Inventory.Proofs.Tree.Operations
import Inventory.Proofs.Twins.Basic

/-! # Transactions that fail only on mistakes

In a tidy store the key of a new row is free, and every row that a transaction writes refers to rows
that are there, so that neither a collision nor a dangling reference stops it. A conflict needs rows
that have gone since they were read. -/
namespace Inventory
set_option autoImplicit false
variable {full : Prop}

namespace Store
variable {s s' t : Store} {hierarchy : HierarchyId} {propagate : Bool}

/-- A number in use is the largest of 64 bits: one at the end of a key, or that of a preset name. -/
def Exhausted (s : Store) (preset : String) : Prop :=
  ∃ row ∈ s.nodes, (∃ key : Key, row.key = key.text ∧ Text.maxWord ≤ key.lastSegment) ∨
    ∃ n, Name.presetNumber? preset row.value = some n ∧ Text.maxWord ≤ n

theorem Formed.nextChild_free (hs : s.Formed) {parent : Node} {siblings : List Node}
    (hsiblings : s.children parent.hierarchy parent.key = .ok siblings) {old : NodeRow}
    (hold : old ∈ s.nodes) (hh : old.hierarchy = parent.hierarchy) :
    old.key ≠ (Key.nextChild parent.key (siblings.map (·.key))).text := by
  intro hkey
  have hup : old.parentKey = parent.key.text :=
    (hs.parentKey_eq hold hkey).trans (Key.parentText_of_parent? (Key.parent?_child _ _))
  have hlisted : old ∈ s.childRows parent.hierarchy parent.key := by
    rw [childRows, List.mem_filter, mem_rowsOf, beq_iff_eq]
    exact ⟨⟨hold, hh⟩, hup⟩
  obtain ⟨sibling, hsibling, rfl⟩ := List.mem_map.1 ((hs.children hsiblings).mem_iff.2 hlisted)
  have hsame : sibling.key = Key.nextChild parent.key (siblings.map (·.key)) :=
    Key.text_injective hkey
  apply Key.nextChild_not_mem parent.key
  rw [← hsame]
  exact List.mem_map_of_mem hsibling

/-! ## New rows -/

theorem ensureWord_fair {n : Nat} (h : Text.maxWord < n → full) : Fair full (ensureWord n s) := by
  rw [ensureWord]
  by_cases hn : n ≤ Text.maxWord
  · rw [if_pos hn]
    exact fair_ok _
  · rw [if_neg hn]
    exact fair_error ⟨by simp [Error.isMistake, Error.kind], fun _ => h (Nat.lt_of_not_le hn)⟩

theorem ensureWord_eq_ok {n : Nat} {a : Unit} (h : ensureWord n s = .ok (a, t)) : t = s := by
  rw [ensureWord] at h
  by_cases hn : n ≤ Text.maxWord
  · rw [if_pos hn] at h
    cases h
    rfl
  · rw [if_neg hn] at h
    cases h

theorem exists_insertNode {key : Key}
    (hfree : ∀ old ∈ s.nodes, old.hierarchy = hierarchy → old.key ≠ key.text)
    (hhost : ∃ host ∈ s.hierarchies, host.id = hierarchy) (value fullValue : String) :
    ∃ r, insertNode hierarchy key value fullValue s = .ok r := by
  have hnone : (s.rowsOf hierarchy).any (·.key == key.text) = false := by
    rw [List.any_eq_false]
    intro old hold
    rw [beq_iff_eq]
    exact hfree old (mem_rowsOf.1 hold).1 (mem_rowsOf.1 hold).2
  have hfound : (s.hierarchy? hierarchy).isNone = false := by
    obtain ⟨host, hin, hid⟩ := hhost
    rw [Option.isNone_eq_false_iff, hierarchy?, List.find?_isSome]
    exact ⟨host, hin, beq_iff_eq.2 hid⟩
  rw [insertNode, Transaction.get_bind, hnone, hfound]
  exact ⟨_, rfl⟩

section Children
variable {parent : Node} {value : String}

theorem insertChild_fair (hs : s.Tidy) (hparent : parent.row ∈ s.nodes) {siblings : List Node}
    (hsiblings : s.children parent.hierarchy parent.key = .ok siblings)
    (hroom : ∀ sibling ∈ siblings, Text.maxWord ≤ sibling.key.lastSegment → full) :
    Fair full (insertChild parent siblings value s) := by
  rw [insertChild]
  refine Transaction.fair_bind (ensureWord_fair fun hlarge => ?_) fun _ t hword => ?_
  · rw [Key.nextChild, Key.lastSegment_child] at hlarge
    obtain ⟨n, hn, hlarge⟩ := Key.exists_of_lt_nextNumber (by decide) hlarge
    obtain ⟨key, hkey, rfl⟩ := List.mem_map.1 hn
    obtain ⟨sibling, hsibling, rfl⟩ := List.mem_map.1 (List.mem_of_mem_filter hkey)
    exact hroom sibling hsibling hlarge
  · have hfree : ∀ old ∈ s.nodes, old.hierarchy = parent.hierarchy →
        old.key ≠ (Key.nextChild parent.key (siblings.map (·.key))).text :=
      fun _ hold hh => hs.formed.nextChild_free hsiblings hold hh
    obtain ⟨r, hr⟩ := exists_insertNode hfree (hs.formed.hosted parent.row hparent) value
      (parent.fullValue ++ "/" ++ value)
    rw [ensureWord_eq_ok hword]
    exact fair_of_eq (Transaction.bind_eq_ok.2 ⟨r.1, r.2, hr, rfl⟩)

/-- The children of a node that is in the store. -/
theorem Tidy.children_rows (hs : s.Tidy) {siblings : List Node}
    (hsiblings : s.children hierarchy parent.key = .ok siblings) {sibling : Node}
    (hin : sibling ∈ siblings) : sibling.row ∈ s.nodes :=
  (mem_rowsOf.1 (List.mem_of_mem_filter
    ((hs.formed.children hsiblings).mem_iff.1 (List.mem_map_of_mem hin)))).1

theorem exhausted_of_key {node : Node} (hnode : node.row ∈ s.nodes)
    (hlarge : Text.maxWord ≤ node.key.lastSegment) (preset : String) : s.Exhausted preset :=
  ⟨node.row, hnode, .inl ⟨node.key, rfl, hlarge⟩⟩

/-- Nothing is below a row that has just come. -/
theorem insertChild_childless (hs : s.Tidy) (hparent : parent.row ∈ s.nodes) {siblings : List Node}
    {child : Node} (h : insertChild parent siblings value s = .ok (child, s')) :
    s'.childRows child.hierarchy child.key = [] := by
  obtain ⟨hfits, rfl, ⟨n, -, hkey⟩, -⟩ := insertChild_fits hs.toSound (isIn_of_row hparent) h
  rw [List.eq_nil_iff_forall_not_mem]
  intro row hrow
  obtain ⟨hin, hup⟩ := List.mem_filter.1 hrow
  rw [beq_iff_eq] at hup
  rcases List.mem_append.1 (mem_rowsOf.1 hin).1 with hold | hnew
  · obtain ⟨above, habove, -, hak⟩ := hs.parented row hold (hup ▸ Key.text_ne_empty child.key)
    exact hfits.new above habove (hak.trans hup)
  · rw [List.mem_singleton.1 hnew] at hup
    have hself := Key.parentText_eq_text.1 hup
    rw [hkey, Key.parent?_child] at hself
    exact Key.child_ne_self _ _ (Option.some.inj hself).symm

theorem getOrInsertChild_fair (hs : s.Tidy) (hparent : parent.row ∈ s.nodes)
    (hroom : ∀ node : Node, node.row ∈ s.childRows parent.hierarchy parent.key →
      Text.maxWord ≤ node.key.lastSegment → full) :
    Fair full (getOrInsertChild parent value s) := by
  rw [getOrInsertChild, Transaction.get_bind]
  refine Transaction.fair_lift_bind (hs.children_fair _ _) fun siblings hsiblings => ?_
  cases siblings.find? (·.value == value) with
  | some found => exact fair_ok _
  | none =>
    refine Transaction.fair_lift_bind (Name.validate_fair value) fun name _ => ?_
    refine Transaction.fair_bind (insertChild_fair hs hparent hsiblings fun sibling hin => ?_)
      fun _ _ _ => fair_ok _
    exact hroom sibling ((hs.formed.children hsiblings).mem_iff.1 (List.mem_map_of_mem hin))

/-- Either the child was there, or it has come and nothing is below it. -/
theorem getOrInsertChild_childless (hs : s.Tidy) (hparent : parent.row ∈ s.nodes) {child : Node}
    {created : Bool} (h : getOrInsertChild parent value s = .ok ((child, created), s')) :
    (s' = s ∧ child.row ∈ s.childRows parent.hierarchy parent.key) ∨
      s'.childRows child.hierarchy child.key = [] := by
  rw [getOrInsertChild, Transaction.get_bind] at h
  obtain ⟨siblings, hsiblings, h⟩ := Transaction.lift_bind_eq_ok.1 h
  cases hfind : siblings.find? (·.value == value) with
  | some found =>
    simp only [hfind] at h
    cases h
    exact .inl ⟨rfl, (hs.formed.children hsiblings).mem_iff.1
      (List.mem_map_of_mem (List.mem_of_find?_eq_some hfind))⟩
  | none =>
    simp only [hfind] at h
    obtain ⟨name, -, h⟩ := Transaction.lift_bind_eq_ok.1 h
    obtain ⟨node, s₁, hinsert, h⟩ := Transaction.bind_eq_ok.1 h
    cases h
    exact .inr (insertChild_childless hs hparent hinsert)

/-- Numbers can only run out among the rows that were there before: below rows that have come on the
way there are none. -/
theorem descend_fair (hs : s.Tidy) (hparent : parent.row ∈ s.nodes) {values : List String}
    (hplain : ∀ value ∈ values, Name.Plain value) {preset : String}
    (hroom : (s.Exhausted preset → full) ∨ s.childRows parent.hierarchy parent.key = []) :
    Fair full (descend parent values s) := by
  induction values generalizing s parent with
  | nil => exact fair_ok _
  | cons value rest ih =>
    rw [descend]
    refine Transaction.fair_bind (getOrInsertChild_fair hs hparent fun node hnode hlarge => ?_) ?_
    · rcases hroom with hroom | hnone
      · exact hroom (exhausted_of_key (mem_rowsOf.1 (List.mem_of_mem_filter hnode)).1 hlarge preset)
      · exact absurd (hnone ▸ hnode) List.not_mem_nil
    · rintro ⟨child, created⟩ t hchild
      obtain ⟨hshapes, hin⟩ :=
        getOrInsertChild_shapes hs.toSound hparent (hplain value List.mem_cons_self) hchild
      refine ih (tidy_of_shapes hshapes hs) hin
        (fun other hother => hplain other (List.mem_cons_of_mem _ hother)) ?_
      rcases getOrInsertChild_childless hs hparent hchild with ⟨rfl, hold⟩ | hnone
      · refine hroom.imp_right fun hnone => absurd (hnone ▸ hold) List.not_mem_nil
      · exact .inr hnone

end Children

section Structure
variable {preset : String} (hs : s.Tidy) (hfull : s.Exhausted preset → full)
include hs hfull

theorem createPath_fair (hierarchy : HierarchyId) (path : String) :
    Fair full (createPath hierarchy path s) := by
  rw [createPath, Transaction.get_bind]
  refine Transaction.fair_lift_bind (hs.requireRoot_fair hierarchy) fun root hroot => ?_
  have hroot := (hs.formed.requireRoot hroot).1
  exact descend_fair hs hroot (fun _ hvalue => Name.plain_of_mem_below hvalue) (.inl hfull)

theorem createChild_fair {id : NodeId} {parent : Node} (hparent : s.requireNode id = .ok parent)
    (value : Option String) : Fair full (createChild parent.hierarchy id value preset s) := by
  rw [createChild, Transaction.get_bind]
  refine Transaction.fair_lift_bind (hs.requireNode_fair id) fun found hfound => ?_
  cases hparent.symm.trans hfound
  rw [Transaction.get_bind]
  refine Transaction.fair_lift_bind (hs.children_fair _ _) fun siblings hsiblings => ?_
  have hin := (hs.formed.requireNode hparent).1
  have hroom : ∀ sibling ∈ siblings, Text.maxWord ≤ sibling.key.lastSegment → full :=
    fun sibling hsibling hlarge =>
      hfull (exhausted_of_key (hs.children_rows hsiblings hsibling) hlarge preset)
  cases value with
  | some name =>
    refine Transaction.fair_lift_bind (Name.validate_fair name) fun stored _ => ?_
    by_cases htaken : siblings.any (·.value == stored) = true
    · rw [if_pos htaken]
      exact fair_error (by simp [Error.isMistake, Error.kind])
    · rw [if_neg htaken]
      exact insertChild_fair hs hin hsiblings hroom
  | none =>
    refine Transaction.fair_bind (ensureWord_fair fun hlarge => ?_) fun _ t hword => ?_
    · obtain ⟨n, hn, hlarge⟩ := Key.exists_of_lt_nextNumber (by decide) hlarge
      obtain ⟨name, hname, hread⟩ := List.mem_filterMap.1 hn
      obtain ⟨sibling, hsibling, rfl⟩ := List.mem_map.1 hname
      exact hfull ⟨sibling.row, hs.children_rows hsiblings hsibling, .inr ⟨n, hread, hlarge⟩⟩
    · rw [ensureWord_eq_ok hword]
      exact insertChild_fair hs hin hsiblings hroom

theorem createHierarchy_fair (name : String) : Fair full (createHierarchy name s) := by
  rw [createHierarchy, insertHierarchy]
  refine Transaction.fair_bind (fair_of_eq rfl) fun id t hhost => ?_
  cases hhost
  rw [Transaction.get_bind]
  have hroots : ∀ row ∈ s.nodes.filter (·.parentKey == ""), row ∈ s.nodes :=
    fun row hrow => List.mem_of_mem_filter hrow
  have hread : Fair full s.rootKeys := fair_mapM fun row hrow => by
    obtain ⟨key, hkey⟩ := hs.legible row (hroots row hrow)
    rw [NodeRow.readKey, hkey]
    exact fair_ok key
  refine Transaction.fair_lift_bind hread fun keys hkeys => ?_
  refine Transaction.fair_bind (ensureWord_fair fun hlarge => ?_) fun _ t hword => ?_
  · obtain ⟨n, hn, hlarge⟩ := Key.exists_of_lt_nextNumber (by decide) hlarge
    obtain ⟨key, hkey, rfl⟩ := List.mem_map.1 hn
    have htext : key.text ∈ keys.map Key.text := List.mem_map_of_mem (List.mem_of_mem_filter hkey)
    rw [hs.formed.rootKeys hkeys] at htext
    obtain ⟨row, hrow, htext⟩ := List.mem_map.1 htext
    exact hfull ⟨row, hroots row hrow, .inl ⟨key, htext, hlarge⟩⟩
  · rw [ensureWord_eq_ok hword]
    have hfree : ∀ old ∈ s.nodes, old.hierarchy = nextId (s.hierarchies.map (·.id)) →
        old.key ≠ (Key.nextRoot keys).text := by
      intro old hold hh
      obtain ⟨host, hhost, hid⟩ := hs.formed.hosted old hold
      exact absurd (hid.trans hh) (ne_of_lt (lt_nextId (List.mem_map_of_mem hhost)))
    obtain ⟨r, hr⟩ := exists_insertNode
      (s := { s with hierarchies := s.hierarchies ++ [⟨nextId (s.hierarchies.map (·.id)), name⟩] })
      hfree ⟨_, List.mem_append_right _ (List.mem_singleton_self _), rfl⟩ name ("/" ++ name)
    exact fair_of_eq (Transaction.bind_eq_ok.2 ⟨r.1, r.2, hr, rfl⟩)

end Structure

theorem Tidy.removeNode_fair (hs : s.Tidy) (hierarchy : HierarchyId) (id : NodeId) :
    Fair full (removeNode hierarchy id s) := by
  rw [removeNode, Transaction.get_bind]
  refine Transaction.fair_lift_bind (hs.requireNode_fair id) fun node _ => ?_
  by_cases hroot : node.key.isRoot = true
  · rw [if_pos hroot]
    exact fair_error (by simp [Error.isMistake, Error.kind])
  · rw [if_neg hroot]
    dsimp only
    split
    · exact fair_error (by simp [Error.isMistake, Error.kind])
    · exact fair_ok _

/-! ## Attachments -/

theorem markUnless_fair (hhost : ∃ host ∈ s.hierarchies, host.id = hierarchy) :
    Fair full (markUnless propagate hierarchy s) := by
  obtain ⟨s', hmark⟩ := exists_markUnless propagate hierarchy hhost
  exact fair_of_eq hmark

/-- There is a root to go to, and it can be read. -/
theorem exists_rehome (hs : s.Formed) (hlegible : ∀ row ∈ s.nodes, row.Legible)
    (hhost : ∃ host ∈ s.hierarchies, host.id = hierarchy) (assets : List AssetId)
    (propagate : Bool) : ∃ changes s', rehome hierarchy assets propagate s = .ok (changes, s') := by
  rw [rehome, Transaction.get_bind]
  have hknown : ∀ id ∈ (s.orphans hierarchy).filter (assets.contains ·),
      ∃ asset ∈ s.assets, asset.id = id := fun id hid =>
    (mem_orphans.1 (List.mem_of_mem_filter hid)).1.imp fun _ h => ⟨h.1, h.2.1⟩
  cases hstrays : (s.orphans hierarchy).filter (assets.contains ·) with
  | nil => exact ⟨_, _, rfl⟩
  | cons first rest =>
    rw [hstrays] at hknown
    obtain ⟨root, hroot, hin, -⟩ := hs.exists_root hlegible hhost
    obtain ⟨edited, s', hadd, -⟩ := exists_addToNode hs.indexed (isIn_of_row hin) hknown propagate
    exact ⟨_, s', Transaction.lift_bind_eq_ok.2
      ⟨some root, hroot, Transaction.bind_eq_ok.2 ⟨edited, s', hadd, rfl⟩⟩⟩

theorem Alike.legible (h : Alike s t) (hs : ∀ row ∈ s.nodes, row.Legible) :
    ∀ row ∈ t.nodes, row.Legible := by
  intro row hrow
  obtain ⟨old, hold, -, -, hkey, -⟩ := h.exists_row hrow
  rw [NodeRow.Legible, ← hkey]
  exact hs old hold

namespace Tidy
variable (hs : s.Tidy)
include hs

/-- What is left to do once rows have gone: look after those that have lost their last node. -/
theorem rehome_bind_fair {α : Type} (halike : Alike s t)
    (hhost : ∃ host ∈ s.hierarchies, host.id = hierarchy) (assets : List AssetId)
    (result : List Change → α) :
    Fair full ((do
      let rehomed ← rehome hierarchy assets propagate
      markUnless propagate hierarchy
      return result rehomed : Transaction α) t) := by
  have hhost' : ∃ host ∈ t.hierarchies, host.id = hierarchy := halike.hierarchies ▸ hhost
  obtain ⟨rehomed, u, hrehome⟩ := exists_rehome (halike.formed hs.formed)
    (halike.legible hs.legible) hhost' assets propagate
  rw [Transaction.bind_of_ok hrehome]
  have hstill := Transaction.stays_rehome hierarchy assets propagate _ _ hrehome
  exact Transaction.fair_bind (markUnless_fair (hstill.toStill.exists_host hhost'))
    fun _ _ _ => fair_ok _

theorem attachAll_fair (id : NodeId) (assets : List AssetId) :
    Fair full (attachAll id assets propagate s) := by
  rw [attachAll, Transaction.get_bind]
  refine Transaction.fair_lift_bind (hs.requireNode_fair id) fun node hnode => ?_
  refine Transaction.fair_lift_bind (ensureAssetsIn_fair s _ assets) fun _ hassets => ?_
  have hin := (hs.formed.requireNode hnode).1
  have hknown : ∀ id ∈ assets, ∃ asset ∈ s.assets, asset.id = id := fun id hid =>
    (hs.formed.ensureAssetsIn_iff.1 hassets id hid).imp fun _ h => ⟨h.1, h.2.1⟩
  obtain ⟨added, t, hadd, hhosts⟩ :=
    exists_addToNode hs.formed.indexed (isIn_of_row hin) hknown propagate
  rw [Transaction.bind_of_ok hadd]
  exact Transaction.fair_bind (markUnless_fair (hhosts ▸ hs.formed.hosted _ hin))
    fun _ _ _ => fair_ok _

theorem attachToAll_fair (id : AssetId) (ids : List NodeId) :
    Fair full (attachToAll id ids propagate s) := by
  rw [attachToAll, Transaction.get_bind]
  refine Transaction.fair_lift_bind (requireAsset_fair s id) fun asset hasset => ?_
  obtain ⟨hknown, hid⟩ := requireAsset_eq_ok hasset
  refine Transaction.fair_lift_bind (hs.loadNodesIn_fair _ ids) fun nodes hload => ?_
  obtain ⟨hn, -, hnodes⟩ := hs.formed.loadNodesIn hload
  obtain ⟨added, t, hadd, hhosts⟩ :=
    exists_addToNodes hs.formed.indexed ⟨asset, hknown, hid⟩ hn (areIn_of_rows hnodes) propagate
  rw [Transaction.bind_of_ok hadd]
  exact Transaction.fair_bind (markUnless_fair (hhosts ▸ hs.formed.owned asset hknown))
    fun _ _ _ => fair_ok _

theorem insertAsset_fair {host : Hierarchy} (hhost : host ∈ s.hierarchies) (name : String)
    {targets : List Node} (hn : (targets.map (·.id)).Nodup)
    (htargets : ∀ node ∈ targets, node.row ∈ s.nodes ∧ node.hierarchy = host.id) :
    Fair full ((do
      let id ← insertAsset host.id name
      let added ← addToNodes host.id id targets propagate
      markUnless propagate host.id
      return (⟨id, host.id, name⟩, added.changed.map (·.id)) :
        Transaction (Asset × List NodeId)) s) := by
  have hfound : (s.hierarchy? host.id).isNone = false := by
    rw [Option.isNone_eq_false_iff, hierarchy?, List.find?_isSome]
    exact ⟨host, hhost, beq_self_eq_true host.id⟩
  have hinsert : ∃ r, insertAsset host.id name s = .ok r := by
    rw [insertAsset, Transaction.get_bind, hfound]
    exact ⟨_, rfl⟩
  obtain ⟨⟨id, t⟩, hinsert⟩ := hinsert
  rw [Transaction.bind_of_ok hinsert]
  obtain ⟨hnew, rfl⟩ := insertAsset_eq_ok hinsert
  have hsteady : (s.withAsset ⟨id, host.id, name⟩).Steady := hs.withAsset hnew ⟨host, hhost, rfl⟩
  obtain ⟨added, u, hadd, hhosts⟩ := exists_addToNodes hsteady.formed.indexed
    ⟨_, List.mem_append_right _ (List.mem_singleton_self _), rfl⟩ hn (areIn_of_rows htargets) propagate
  rw [Transaction.bind_of_ok hadd]
  exact Transaction.fair_bind (markUnless_fair (hhosts ▸ ⟨host, hhost, rfl⟩)) fun _ _ _ => fair_ok _

theorem createAsset_fair (hierarchy : HierarchyId) (name : String) (ids : List NodeId) :
    Fair full (createAsset hierarchy name ids propagate s) := by
  rw [createAsset, Transaction.get_bind, Transaction.discard_lift_bind]
  refine Transaction.fair_lift_bind (requireHierarchy_fair s hierarchy) fun host hhost => ?_
  obtain ⟨hknown, rfl⟩ := requireHierarchy_eq_ok hhost
  by_cases hempty : ids.isEmpty = true
  · rw [if_pos hempty]
    refine Transaction.fair_bind (Transaction.fair_map_lift _ (hs.requireRoot_fair host.id))
      fun targets t htargets => ?_
    obtain ⟨root, hroot, rfl⟩ := Transaction.map_eq_ok.1 htargets
    obtain ⟨hroot, rfl⟩ := Transaction.lift_eq_ok.1 hroot
    obtain ⟨hin, hh, -⟩ := hs.formed.requireRoot hroot
    refine hs.insertAsset_fair hknown name (List.nodup_singleton root.id) fun node hnode => ?_
    rw [List.mem_singleton.1 hnode]
    exact ⟨hin, hh⟩
  · rw [if_neg hempty]
    refine Transaction.fair_lift_bind (hs.loadNodesIn_fair _ ids) fun targets hload => ?_
    obtain ⟨hn, -, htargets⟩ := hs.formed.loadNodesIn hload
    exact hs.insertAsset_fair hknown name hn htargets

theorem removeAsset_fair (hhost : ∃ host ∈ s.hierarchies, host.id = hierarchy) (id : AssetId)
    (propagates : Nat → Bool) : Fair full (removeAsset hierarchy id propagates s) := by
  rw [removeAsset, Transaction.get_bind]
  refine Transaction.fair_lift_bind (hs.nodesByIds_fair _) fun nodes _ => ?_
  obtain ⟨⟨removed, t⟩, hremove⟩ :=
    exists_removeFromNodes s hierarchy id nodes (propagates nodes.length)
  rw [Transaction.bind_of_ok hremove]
  have hstill := Transaction.stays_removeFromNodes hierarchy id nodes _ _ _ hremove
  refine Transaction.fair_bind (fair_of_eq rfl) fun _ u hu => ?_
  cases hu
  exact Transaction.fair_bind (markUnless_fair (hstill.toStill.exists_host hhost))
    fun _ _ _ => fair_ok _

theorem detachAll_fair {id : NodeId} {node : Node} (hnode : s.requireNode id = .ok node)
    (assets : List AssetId) : Fair full (detachAll node.hierarchy id assets propagate s) := by
  rw [detachAll, Transaction.get_bind, hnode]
  obtain ⟨hin, -⟩ := hs.formed.requireNode hnode
  obtain ⟨⟨removed, t⟩, hremove⟩ := exists_removeFromNode s node assets propagate
  obtain ⟨-, rfl⟩ := removeFromNode_eq_ok hs.formed.indexed (isIn_of_row hin) hremove
  refine Transaction.fair_lift_bind (fair_ok node) fun found hfound => ?_
  cases hfound
  rw [Transaction.bind_of_ok hremove]
  exact hs.rehome_bind_fair (alike_removing s _ propagate) (hs.formed.hosted node.row hin) _ _

theorem detachFromAll_fair (hhost : ∃ host ∈ s.hierarchies, host.id = hierarchy) (id : AssetId)
    (ids : List NodeId) : Fair full (detachFromAll hierarchy id ids propagate s) := by
  rw [detachFromAll, Transaction.get_bind]
  refine Transaction.fair_lift_bind (hs.loadNodesIn_fair hierarchy ids) fun targets hload => ?_
  obtain ⟨⟨removed, t⟩, hremove⟩ := exists_removeFromNodes s hierarchy id targets propagate
  obtain ⟨-, -, -, rfl⟩ := removed_from_targets hs.formed hload hremove
  rw [Transaction.bind_of_ok hremove]
  have halike := alike_removing s (removed.changed.map (id, ·.id)) propagate
  by_cases hnone : removed.changed.isEmpty = true
  · rw [if_pos hnone]
    refine Transaction.fair_bind (fair_of_eq rfl) fun rehomed t ht => ?_
    cases ht
    rw [← halike.hierarchies] at hhost
    exact Transaction.fair_bind (markUnless_fair hhost) fun _ _ _ => fair_ok _
  · rw [if_neg hnone]
    exact hs.rehome_bind_fair halike hhost _ _

/-- A move of rows that have been read from the same store. -/
theorem move_fair {id : NodeId} {assets : List AssetId} {found : HierarchyId × List Attachment}
    (hfound : Tree.observe assets id s = .ok found) :
    Fair full (move found.1 id assets found.2 propagate s) := by
  obtain ⟨⟨target, htarget, rfl, hh⟩, hassets, hrows⟩ := Tree.observe_eq_ok hs.formed hfound
  obtain ⟨node, hnode⟩ := hs.formed.exists_requireNode htarget rfl (hs.legible target htarget)
  have hold : ∀ link ∈ found.2, link ∈ s.attachments := by
    intro link hlink
    rw [hrows] at hlink
    exact (mem_attachmentsOf.1 hlink).1
  obtain ⟨r, hr⟩ := exists_move hs.toSteady hnode
    (fun id hid => (hassets id hid).imp fun _ h => ⟨h.1, h.2.1⟩) hold
    (hh ▸ hs.formed.hosted target htarget) hs.legible propagate
  exact fair_of_eq hr

end Tidy
end Store
end Inventory
