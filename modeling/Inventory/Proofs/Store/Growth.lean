import Inventory.Proofs.Store.Assets
import Inventory.Tree.Structure

/-! # Growing and pruning the forest

A new row holds a key that no row holds, so no row stands below it and it holds no assets. A row is
deleted only when nothing is attached to it and nothing stands below it. Both leave all holdings as
they were. -/
namespace Inventory.Store
set_option autoImplicit false
variable {s s' : Store}

/-! ## Ancestors -/

theorem descendant_root {key : Key} {number : Nat} {path : List Nat}
    (h : (⟨number, path⟩ : Key).isDescendantOrSelf key = true) : key.root = number :=
  (List.cons_prefix_cons.1 (Key.isDescendantOrSelf_iff.1 h)).1

/-- With a row all keys above it have rows. -/
theorem exists_above (hf : s.Formed) (hp : s.Parented) {row : NodeRow} (hrow : row ∈ s.nodes)
    {key top : Key} (hkey : row.key = key.text) (h : key.isDescendantOrSelf top = true) :
    ∃ above ∈ s.nodes, above.key = top.text := by
  induction hlen : key.path.length generalizing row key with
  | zero =>
    have hroot : key.parent? = none := Key.parent?_eq_none.2 (List.length_eq_zero_iff.1 hlen)
    obtain ⟨number, path⟩ := key
    obtain rfl := Key.parent?_eq_none.1 hroot
    have htop : top = ⟨number, []⟩ := by
      have hsame := descendant_root h
      have hprefix := Key.isDescendantOrSelf_iff.1 h
      obtain ⟨number', path'⟩ := top
      obtain rfl : number' = number := hsame
      rw [Key.segments, Key.segments, List.cons_prefix_cons, List.prefix_nil] at hprefix
      have hpath : path' = [] := hprefix.2
      rw [hpath]
    exact ⟨row, hrow, htop ▸ hkey⟩
  | succ n ih =>
    have hne : key.path ≠ [] := by
      intro hnil
      rw [hnil] at hlen
      cases hlen
    obtain ⟨parent, hparent⟩ := Option.ne_none_iff_exists'.1 (mt Key.parent?_eq_none.1 hne)
    rcases (Key.descendant_iff_of_parent? hparent).1 h with rfl | habove
    · exact ⟨row, hrow, hkey⟩
    · have hpk : row.parentKey = parent.text := by
        rw [hf.parentKey_eq hrow hkey, Key.parentText_of_parent? hparent]
      obtain ⟨up, hup, -, hupkey⟩ := hp row hrow (hpk ▸ Key.text_ne_empty parent)
      refine ih hup (hupkey.trans hpk) habove ?_
      obtain ⟨segment, rfl⟩ := Key.eq_child_of_parent? hparent
      simpa [Key.child] using hlen

/-! ## New rows -/

/-- The store with a further row and perhaps the hierarchy that it is the root of. -/
def withNode (s : Store) (hosts : List Hierarchy) (row : NodeRow) : Store :=
  { s with hierarchies := s.hierarchies ++ hosts, nodes := s.nodes ++ [row] }

/-- A row that may be added to a store. -/
structure Fits (s : Store) (hosts : List Hierarchy) (row : NodeRow) (key : Key) : Prop where
  hostIds : ((s.hierarchies ++ hosts).map (·.id)).Nodup
  host : ∃ h ∈ s.hierarchies ++ hosts, h.id = row.hierarchy
  root : ∀ h ∈ hosts, h.id = row.hierarchy ∧ row.parentKey = ""
  id : ∀ old ∈ s.nodes, old.id ≠ row.id
  text : row.key = key.text
  parentKey : row.parentKey = key.parentText
  new : ∀ old ∈ s.nodes, old.key ≠ row.key
  apart : ∀ old ∈ s.nodes, ∀ k : Key, old.key = k.text →
    (old.hierarchy = row.hierarchy ↔ k.root = key.root)
  parent : row.parentKey ≠ "" →
    ∃ parent ∈ s.nodes, parent.hierarchy = row.hierarchy ∧ parent.key = row.parentKey
  amount : row.amount = 0

section Fits
variable {hosts : List Hierarchy} {row : NodeRow} {key : Key}

theorem Fits.formed (h : s.Fits hosts row key) (hf : s.Formed) : (s.withNode hosts row).Formed := by
  refine ⟨h.hostIds, ?_, hf.assetIds, ?_, ?_, ?_, ?_, ?_, ?_⟩
  · rw [withNode, List.map_append]
    refine hf.nodeIds.append (List.nodup_singleton _) fun id hold hnew => ?_
    obtain ⟨old, hin, rfl⟩ := List.mem_map.1 hold
    exact h.id old hin (by simpa using hnew)
  · intro other hother
    rcases List.mem_append.1 hother with hold | hone
    · exact hf.canonical other hold
    · rw [List.mem_singleton.1 hone]
      exact ⟨key, h.text, h.parentKey⟩
  · rw [withNode, List.map_append]
    refine hf.keys.append (List.nodup_singleton _) fun text hold hnew => ?_
    obtain ⟨old, hin, rfl⟩ := List.mem_map.1 hold
    exact h.new old hin (by simpa using hnew)
  · intro first hfirst second hsecond k k' hk hk'
    rcases List.mem_append.1 hfirst with hold | hone <;>
      rcases List.mem_append.1 hsecond with hold' | hone'
    · exact hf.apart first hold second hold' k k' hk hk'
    · rw [List.mem_singleton.1 hone'] at hk' ⊢
      rw [Key.text_injective (hk'.symm.trans h.text)]
      exact h.apart first hold k hk
    · rw [List.mem_singleton.1 hone] at hk ⊢
      rw [Key.text_injective (hk.symm.trans h.text), eq_comm, h.apart second hold' k' hk', eq_comm]
    · rw [List.mem_singleton.1 hone] at hk ⊢
      rw [List.mem_singleton.1 hone'] at hk' ⊢
      rw [Key.text_injective (hk.symm.trans hk')]
      exact ⟨fun _ => rfl, fun _ => rfl⟩
  · intro other hother
    rcases List.mem_append.1 hother with hold | hone
    · obtain ⟨host, hhost, hid⟩ := hf.hosted other hold
      exact ⟨host, List.mem_append_left _ hhost, hid⟩
    · rw [List.mem_singleton.1 hone]
      exact h.host
  · intro host hhost
    rcases List.mem_append.1 hhost with hold | hnew
    · obtain ⟨root, hroot, hh, hp⟩ := hf.rooted host hold
      exact ⟨root, List.mem_append_left _ hroot, hh, hp⟩
    · obtain ⟨hh, hp⟩ := h.root host hnew
      exact ⟨row, List.mem_append_right _ (List.mem_singleton_self _), hh.symm, hp⟩
  · intro asset hasset
    obtain ⟨host, hhost, hid⟩ := hf.owned asset hasset
    exact ⟨host, List.mem_append_left _ hhost, hid⟩

theorem Fits.unattached (h : s.Fits hosts row key) (hj : s.Joined) (asset : AssetId) :
    (asset, row.id) ∉ s.attachments := by
  intro hlink
  obtain ⟨-, -, old, hold, -, hid, -⟩ := hj _ hlink
  exact h.id old hold hid

theorem Fits.holdings_eq (h : s.Fits hosts row key) (hj : s.Joined) (hierarchy : HierarchyId)
    (top : String) : (s.withNode hosts row).holdings hierarchy top = s.holdings hierarchy top := by
  ext asset
  rw [mem_holdings, mem_holdings]
  constructor
  · rintro ⟨other, hother, hwithin, hlink⟩
    rcases List.mem_append.1 hother with hold | hone
    · exact ⟨other, hold, hwithin, hlink⟩
    · rw [List.mem_singleton.1 hone] at hlink
      exact absurd hlink (h.unattached hj asset)
  · rintro ⟨other, hother, hwithin, hlink⟩
    exact ⟨other, List.mem_append_left _ hother, hwithin, hlink⟩

/-- A new key holds nothing, for with a row below it there would be one with it. -/
theorem Fits.holdings_new (h : s.Fits hosts row key) (hs : s.Steady) :
    s.holdings row.hierarchy row.key = ∅ := by
  rw [Finset.eq_empty_iff_forall_notMem]
  intro asset hasset
  obtain ⟨other, hother, hwithin, -⟩ := mem_holdings.1 hasset
  obtain ⟨k, hk⟩ := hs.formed.keyed other hother
  rw [h.text] at hwithin
  obtain ⟨above, habove, heq⟩ :=
    exists_above hs.formed hs.parented hother hk ((isWithin_iff hk).1 hwithin).2
  exact h.new above habove (heq.trans h.text.symm)

theorem Sound.withNode (hs : s.Sound) (h : s.Fits hosts row key) :
    (s.withNode hosts row).Sound := by
  refine ⟨⟨h.formed hs.formed, hs.single, ?_, ?_, ?_⟩, hs.placed⟩
  · intro link hlink
    obtain ⟨asset, hasset, other, hother, rest⟩ := hs.joined link hlink
    exact ⟨asset, hasset, other, List.mem_append_left _ hother, rest⟩
  · intro other hother hne
    rcases List.mem_append.1 hother with hold | hone
    · obtain ⟨parent, hparent, rest⟩ := hs.parented other hold hne
      exact ⟨parent, List.mem_append_left _ hparent, rest⟩
    · rw [List.mem_singleton.1 hone] at hne ⊢
      obtain ⟨parent, hparent, rest⟩ := h.parent hne
      exact ⟨parent, List.mem_append_left _ hparent, rest⟩
  · intro other hother hunmarked
    rw [h.holdings_eq hs.joined]
    rcases List.mem_append.1 hother with hold | hone
    · exact hs.settled other hold hunmarked
    · rw [List.mem_singleton.1 hone, h.holdings_new hs.toSteady, h.amount]
      rfl

end Fits

/-! ## Children -/

theorem hierarchy?_isSome {id : HierarchyId} (h : ¬(s.hierarchy? id).isNone = true) :
    ∃ host ∈ s.hierarchies, host.id = id := by
  rw [Option.isNone_iff_eq_none] at h
  obtain ⟨host, hhost⟩ := Option.ne_none_iff_exists'.1 h
  exact ⟨host, List.mem_of_find?_eq_some hhost, by simpa using List.find?_some hhost⟩

theorem insertNode_eq_ok {hierarchy : HierarchyId} {key : Key} {value fullValue : String}
    {id : NodeId} (h : insertNode hierarchy key value fullValue s = .ok (id, s')) :
    (∀ old ∈ s.nodes, old.hierarchy = hierarchy → old.key ≠ key.text) ∧
      (∃ host ∈ s.hierarchies, host.id = hierarchy) ∧ (∀ old ∈ s.nodes, old.id ≠ id) ∧
      s' = s.withNode [] ⟨id, hierarchy, key.text, key.parentText, value, fullValue, 0⟩ := by
  rw [insertNode, Transaction.get_bind] at h
  by_cases htaken : (s.rowsOf hierarchy).any (·.key == key.text) = true
  · rw [if_pos htaken] at h
    cases h
  · rw [if_neg htaken] at h
    by_cases hknown : (s.hierarchy? hierarchy).isNone = true
    · simp only [hknown, if_true] at h
      cases h
    · simp only [hknown] at h
      cases h
      refine ⟨fun old hold hh heq => htaken ?_, hierarchy?_isSome hknown, fun old hold heq => ?_, ?_⟩
      · rw [List.any_eq_true]
        exact ⟨old, mem_rowsOf.2 ⟨hold, hh⟩, by simpa using heq⟩
      · exact absurd heq (ne_of_lt (lt_nextId (List.mem_map_of_mem hold)))
      · rw [withNode, List.append_nil]

/-- The store is sound still, and assets, attachments and marks are untouched. -/
structure Grown (s t : Store) : Prop where
  sound : s.Sound → t.Sound
  assets : t.assets = s.assets
  attachments : t.attachments = s.attachments
  marked : t.marked = s.marked

theorem Grown.refl (s : Store) : Grown s s := ⟨id, rfl, rfl, rfl⟩

theorem Grown.trans {t u : Store} (h : Grown s t) (h' : Grown t u) : Grown s u where
  sound hs := h'.sound (h.sound hs)
  assets := h'.assets.trans h.assets
  attachments := h'.attachments.trans h.attachments
  marked := h'.marked.trans h.marked

theorem ensureWord_bind_eq_ok {α : Type} {n : Nat} {next : Unit → Transaction α} {r : α × Store} :
    (ensureWord n >>= next) s = .ok r ↔ n ≤ Text.maxWord ∧ next () s = .ok r := by
  rw [ensureWord]
  by_cases hn : n ≤ Text.maxWord
  · rw [if_pos hn]
    exact ⟨fun h => ⟨hn, h⟩, fun h => h.2⟩
  · rw [if_neg hn]
    exact ⟨(fun h => nomatch h), fun h => absurd h.1 hn⟩

/-- A new child stands below its parent, under a number of 64 bits. -/
theorem insertChild_fits (hs : s.Sound) {parent : Node} (hparent : parent.IsIn s)
    {siblings : List Node} {value : String} {child : Node}
    (h : insertChild parent siblings value s = .ok (child, s')) :
    s.Fits [] child.row child.key ∧ s' = s.withNode [] child.row ∧
      (∃ n ≤ Text.maxWord, child.key = parent.key.child n) ∧ child.hierarchy = parent.hierarchy ∧
      child.value = value ∧ child.fullValue = parent.fullValue ++ "/" ++ value := by
  rw [insertChild] at h
  obtain ⟨hword, h⟩ := ensureWord_bind_eq_ok.1 h
  obtain ⟨id, s₁, hinsert, h⟩ := Transaction.bind_eq_ok.1 h
  cases h
  obtain ⟨hfree, hknown, hid, rfl⟩ := insertNode_eq_ok hinsert
  obtain ⟨row, hrow, hrid, hrh, hrk⟩ := hparent
  have hlast : (Key.nextChild parent.key (siblings.map (·.key))).lastSegment =
      Key.nextNumber (((siblings.map (·.key)).filter (·.isChildOf parent.key)).map
        Key.lastSegment) := by
    rw [Key.nextChild, Key.lastSegment_child]
  have hsame : (Key.nextChild parent.key (siblings.map (·.key))).root = parent.key.root := rfl
  have hup : (Key.nextChild parent.key (siblings.map (·.key))).parent? = some parent.key :=
    Key.parent?_child _ _
  rw [hlast] at hword
  refine ⟨?_, rfl, ⟨_, hword, rfl⟩, rfl, rfl, rfl⟩
  generalize Key.nextChild parent.key (siblings.map (·.key)) = key at *
  -- the root number of the key leads from any row with that key to the hierarchy of the parent
  have hapart : ∀ old ∈ s.nodes, ∀ k : Key, old.key = k.text →
      (old.hierarchy = parent.hierarchy ↔ k.root = key.root) := by
    intro old hold k hk
    rw [← hrh, hsame]
    exact hs.formed.apart old hold row hrow k parent.key hk hrk
  refine ⟨?_, ?_, ?_, hid, rfl, rfl, ?_, hapart, ?_, rfl⟩
  · rw [List.append_nil]
    exact hs.formed.hierarchyIds
  · rw [List.append_nil]
    exact hknown
  · exact fun host hhost => absurd hhost List.not_mem_nil
  · intro old hold heq
    exact hfree old hold ((hapart old hold key heq).2 rfl) heq
  · intro _
    exact ⟨row, hrow, hrh, hrk.trans (Key.parentText_of_parent? hup).symm⟩

theorem insertChild_eq_ok (hs : s.Sound) {parent : Node} (hparent : parent.IsIn s)
    {siblings : List Node} {value : String} {child : Node}
    (h : insertChild parent siblings value s = .ok (child, s')) : Grown s s' ∧ child.IsIn s' := by
  obtain ⟨hfits, rfl, -⟩ := insertChild_fits hs hparent h
  refine ⟨⟨fun _ => hs.withNode hfits, rfl, rfl, rfl⟩, ?_⟩
  exact ⟨_, List.mem_append_right _ (List.mem_singleton_self _), rfl, rfl, rfl⟩

theorem getOrInsertChild_eq_ok (hs : s.Sound) {parent : Node} (hparent : parent.IsIn s)
    {value : String} {child : Node} {created : Bool}
    (h : getOrInsertChild parent value s = .ok ((child, created), s')) :
    Grown s s' ∧ child.IsIn s' := by
  rw [getOrInsertChild, Transaction.get_bind] at h
  obtain ⟨siblings, hsiblings, h⟩ := Transaction.lift_bind_eq_ok.1 h
  cases hfind : siblings.find? (·.value == value) with
  | some found =>
    simp only [hfind] at h
    cases h
    have hin : child.row ∈ s.childRows parent.hierarchy parent.key :=
      (hs.formed.children hsiblings).mem_iff.1
        (List.mem_map_of_mem (List.mem_of_find?_eq_some hfind))
    exact ⟨Grown.refl s, isIn_of_row (mem_rowsOf.1 (List.mem_of_mem_filter hin)).1⟩
  | none =>
    simp only [hfind] at h
    obtain ⟨name, -, h⟩ := Transaction.lift_bind_eq_ok.1 h
    obtain ⟨node, s₁, hinsert, h⟩ := Transaction.bind_eq_ok.1 h
    cases h
    exact insertChild_eq_ok hs hparent hinsert

theorem descend_eq_ok (hs : s.Sound) {node last : Node} (hnode : node.IsIn s) {values : List String}
    (h : descend node values s = .ok (last, s')) : Grown s s' := by
  induction values generalizing s node with
  | nil =>
    cases h
    exact Grown.refl _
  | cons value rest ih =>
    rw [descend, Transaction.bind_eq_ok] at h
    obtain ⟨⟨child, created⟩, s₁, hchild, h⟩ := h
    obtain ⟨hgrown, hin⟩ := getOrInsertChild_eq_ok hs hnode hchild
    exact hgrown.trans (ih (hgrown.sound hs) hin h)

theorem createPath_eq_ok (hs : s.Sound) {hierarchy : HierarchyId} {path : String} {last : Node}
    (h : createPath hierarchy path s = .ok (last, s')) : Grown s s' := by
  rw [createPath, Transaction.get_bind] at h
  obtain ⟨root, hroot, h⟩ := Transaction.lift_bind_eq_ok.1 h
  exact descend_eq_ok hs (isIn_of_row (hs.formed.requireRoot hroot).1) h

/-- Creating a child is safe even when the siblings were looked up in another hierarchy. -/
theorem createChild_eq_ok (hs : s.Sound) {hierarchy : HierarchyId} {id : NodeId}
    {value : Option String} {preset : String} {child : Node}
    (h : createChild hierarchy id value preset s = .ok (child, s')) : Grown s s' := by
  rw [createChild, Transaction.get_bind] at h
  obtain ⟨parent, hparent, h⟩ := Transaction.lift_bind_eq_ok.1 h
  rw [Transaction.get_bind] at h
  obtain ⟨siblings, -, h⟩ := Transaction.lift_bind_eq_ok.1 h
  have hin := isIn_of_row (hs.formed.requireNode hparent).1
  cases value with
  | none =>
    obtain ⟨-, h⟩ := ensureWord_bind_eq_ok.1 h
    exact (insertChild_eq_ok hs hin h).1
  | some name =>
    obtain ⟨stored, -, h⟩ := Transaction.lift_bind_eq_ok.1 h
    by_cases htaken : siblings.any (·.value == stored) = true
    · rw [if_pos htaken] at h
      cases h
    · rw [if_neg htaken] at h
      exact (insertChild_eq_ok hs hin h).1

/-! ## Hierarchies -/

theorem Formed.rootKeys (hf : s.Formed) {keys : List Key} (h : s.rootKeys = .ok keys) :
    keys.map Key.text = (s.nodes.filter (·.parentKey == "")).map (·.key) := by
  rw [Store.rootKeys] at h
  generalize hroots : s.nodes.filter (·.parentKey == "") = roots at h ⊢
  have hin : ∀ row ∈ roots, row ∈ s.nodes := fun row hrow =>
    List.mem_of_mem_filter (hroots ▸ hrow)
  clear hroots
  induction roots generalizing keys with
  | nil =>
    rw [List.mapM_nil] at h
    cases h
    rfl
  | cons row rest ih =>
    rw [List.mapM_cons, bind_eq_ok] at h
    obtain ⟨key, hkey, h⟩ := h
    obtain ⟨others, hothers, h⟩ := bind_eq_ok.1 h
    cases h
    obtain ⟨k, hk, -⟩ := hf.canonical row (hin row (List.mem_cons_self ..))
    rw [List.map_cons, List.map_cons, NodeRow.readKey_eq_ok hk hkey, hk,
      ih hothers fun r hr => hin r (List.mem_cons_of_mem _ hr)]

theorem root_ne_nextRoot (hf : s.Formed) {keys : List Key} (h : s.rootKeys = .ok keys)
    {row : NodeRow} (hrow : row ∈ s.nodes) {key : Key} (hkey : row.key = key.text) :
    key.root ≠ (Key.nextRoot keys).root := by
  obtain ⟨host, hhost, hid⟩ := hf.hosted row hrow
  obtain ⟨root, hroot, hh, hp⟩ := hf.rooted host hhost
  obtain ⟨k, hk, -⟩ := hf.canonical root hroot
  have hnumber : k.root = key.root :=
    (hf.apart root hroot row hrow k key hk hkey).1 (hh.trans hid)
  have htop := (hf.isRoot_iff hroot hk).1 hp
  have hin : k ∈ keys := by
    have htext : k.text ∈ keys.map Key.text := by
      rw [hf.rootKeys h, ← hk]
      exact List.mem_map_of_mem (List.mem_filter.2 ⟨hroot, by simpa using hp⟩)
    rwa [List.mem_map_of_injective Key.text_injective] at htext
  have hlast : k.lastSegment = k.root := by
    rw [Key.isRoot, List.isEmpty_iff] at htop
    rw [Key.lastSegment, htop]
    rfl
  have hlt : k.lastSegment < (Key.nextRoot keys).root :=
    Key.lt_nextNumber (List.mem_map_of_mem (List.mem_filter.2 ⟨hin, htop⟩))
  rw [hlast, hnumber] at hlt
  exact ne_of_lt hlt

theorem createHierarchy_fits (hs : s.Sound) {name : String} {made : Hierarchy × Node}
    (h : createHierarchy name s = .ok (made, s')) :
    s.Fits [made.1] made.2.row made.2.key ∧ s' = s.withNode [made.1] made.2.row ∧
      (∃ n ≤ Text.maxWord, made.2.key = Key.ofRoot n) ∧ made.1.name = name ∧
      made.2.value = name ∧ made.2.fullValue = "/" ++ name := by
  rw [createHierarchy, insertHierarchy] at h
  obtain ⟨id, s₁, hhost, h⟩ := Transaction.bind_eq_ok.1 h
  cases hhost
  rw [Transaction.get_bind] at h
  obtain ⟨keys, hkeys, h⟩ := Transaction.lift_bind_eq_ok.1 h
  obtain ⟨hword, h⟩ := ensureWord_bind_eq_ok.1 h
  obtain ⟨node, s₂, hinsert, h⟩ := Transaction.bind_eq_ok.1 h
  cases h
  obtain ⟨-, -, hid, rfl⟩ := insertNode_eq_ok hinsert
  have hkeys' : s.rootKeys = .ok keys := hkeys
  have hroot : (Key.nextRoot keys).parentText = "" :=
    Key.parentText_eq_empty.2 (Key.parent?_eq_none.2 rfl)
  have hdiffer := fun {row} (hrow : row ∈ s.nodes) {key : Key} (hkey : row.key = key.text) =>
    root_ne_nextRoot hs.formed hkeys' hrow hkey
  have hfresh : ∀ old ∈ s.hierarchies, old.id ≠ nextId (s.hierarchies.map (·.id)) :=
    fun old hold => ne_of_lt (lt_nextId (List.mem_map_of_mem hold))
  refine ⟨?_, ?_, ⟨_, hword, rfl⟩, rfl, rfl, rfl⟩
  · generalize Key.nextRoot keys = key at *
    refine ⟨?_, ?_, ?_, hid, rfl, rfl, ?_, ?_, ?_, rfl⟩
    · rw [List.map_append]
      refine hs.formed.hierarchyIds.append (List.nodup_singleton _) fun id hold hnew => ?_
      obtain ⟨old, hin, rfl⟩ := List.mem_map.1 hold
      exact hfresh old hin (by simpa using hnew)
    · exact ⟨_, List.mem_append_right _ (List.mem_singleton_self _), rfl⟩
    · intro host hhost
      rw [List.mem_singleton.1 hhost]
      exact ⟨rfl, hroot⟩
    · intro old hold heq
      exact hdiffer hold heq rfl
    · intro old hold k hk
      refine ⟨fun hh => ?_, fun hsame => absurd hsame (hdiffer hold hk)⟩
      obtain ⟨host, hhost, hid'⟩ := hs.formed.hosted old hold
      exact absurd (hid'.trans hh) (hfresh host hhost)
    · exact fun hne => absurd hroot hne
  · rw [withNode, withNode, List.append_nil]
    rfl

theorem createHierarchy_eq_ok (hs : s.Sound) {name : String} {made : Hierarchy × Node}
    (h : createHierarchy name s = .ok (made, s')) : Grown s s' := by
  obtain ⟨hfits, rfl, -⟩ := createHierarchy_fits hs h
  exact ⟨fun _ => hs.withNode hfits, rfl, rfl, rfl⟩

/-! ## Deleting nodes -/

/-- The nodes that may be deleted. -/
structure Prunable (s : Store) (row : NodeRow) : Prop where
  known : row ∈ s.nodes
  inner : row.parentKey ≠ ""
  unattached : ∀ asset, (asset, row.id) ∉ s.attachments

theorem mem_deleteNode {id : NodeId} {row : NodeRow} :
    row ∈ (s.deleteNode id).nodes ↔ row ∈ s.nodes ∧ row.id ≠ id := by
  rw [deleteNode, List.mem_filter, bne_iff_ne]

/-- Deleting a node without assets that is no root keeps all but perhaps the parents of its
children. -/
theorem Prunable.deleteNode {row : NodeRow} (h : s.Prunable row) (hs : s.Sound) :
    (s.deleteNode row.id).Formed ∧ (s.deleteNode row.id).Joined ∧ (s.deleteNode row.id).Settled := by
  have hf := hs.formed
  have hsub : ∀ other ∈ (s.deleteNode row.id).nodes, other ∈ s.nodes := fun other hother =>
    (mem_deleteNode.1 hother).1
  refine ⟨⟨hf.hierarchyIds, ?_, hf.assetIds, ?_, ?_, ?_, ?_, ?_, hf.owned⟩, ?_, ?_⟩
  · exact hf.nodeIds.sublist (List.filter_sublist.map _)
  · exact fun other hother => hf.canonical other (hsub other hother)
  · exact hf.keys.sublist (List.filter_sublist.map _)
  · exact fun first hfirst second hsecond =>
      hf.apart first (hsub first hfirst) second (hsub second hsecond)
  · exact fun other hother => hf.hosted other (hsub other hother)
  · intro host hhost
    obtain ⟨root, hroot, hh, hp⟩ := hf.rooted host hhost
    refine ⟨root, mem_deleteNode.2 ⟨hroot, fun hid => ?_⟩, hh, hp⟩
    rw [hf.eq_of_id hroot h.known hid] at hp
    exact h.inner hp
  · intro link hlink
    obtain ⟨asset, hasset, other, hother, hid, hoid, hh⟩ := hs.joined link hlink
    refine ⟨asset, hasset, other, mem_deleteNode.2 ⟨hother, fun heq => ?_⟩, hid, hoid, hh⟩
    have hlink' : (link.1, row.id) ∈ s.attachments := by
      rw [← heq, hoid]
      exact hlink
    exact h.unattached link.1 hlink'
  · intro other hother hunmarked
    have hsame : (s.deleteNode row.id).holdings other.hierarchy other.key =
        s.holdings other.hierarchy other.key := by
      ext asset
      rw [mem_holdings, mem_holdings]
      constructor
      · rintro ⟨low, hlow, hwithin, hlink⟩
        exact ⟨low, hsub low hlow, hwithin, hlink⟩
      · rintro ⟨low, hlow, hwithin, hlink⟩
        refine ⟨low, mem_deleteNode.2 ⟨hlow, fun heq => ?_⟩, hwithin, hlink⟩
        rw [heq] at hlink
        exact h.unattached asset hlink
    rw [hsame]
    exact hs.settled other (hsub other hother) hunmarked

/-- Parents stay where they are needed exactly when the deleted node has no children. -/
theorem Prunable.parented_iff {row : NodeRow} (h : s.Prunable row) (hs : s.Sound) :
    (s.deleteNode row.id).Parented ↔
      ∀ child ∈ s.nodes, child.hierarchy = row.hierarchy → child.parentKey ≠ row.key := by
  constructor
  · intro hp child hchild hh heq
    obtain ⟨key, hkey, hparent⟩ := hs.formed.canonical row h.known
    have hne : child.id ≠ row.id := by
      intro hid
      rw [hs.formed.eq_of_id hchild h.known hid, hkey, hparent, Key.parentText_eq_text] at heq
      obtain ⟨segment, hsegment⟩ := Key.eq_child_of_parent? heq
      have hlen := congrArg (fun k => k.path.length) hsegment
      simp [Key.child] at hlen
    obtain ⟨parent, hin, -, hpk⟩ := hp child (mem_deleteNode.2 ⟨hchild, hne⟩)
      (by rw [heq, hkey]; exact Key.text_ne_empty key)
    obtain ⟨hold, hdeleted⟩ := mem_deleteNode.1 hin
    exact hdeleted (congrArg NodeRow.id (hs.formed.eq_of_key hold h.known (hpk.trans heq)))
  · intro hnone child hchild hne
    obtain ⟨hin, -⟩ := mem_deleteNode.1 hchild
    obtain ⟨parent, hparent, hh, hpk⟩ := hs.parented child hin hne
    refine ⟨parent, mem_deleteNode.2 ⟨hparent, fun hid => ?_⟩, hh, hpk⟩
    rw [hs.formed.eq_of_id hparent h.known hid] at hh hpk
    exact hnone child hin hh.symm hpk.symm

theorem removeNode_eq_ok (hf : s.Formed) {hierarchy : HierarchyId} {id : NodeId}
    (h : removeNode hierarchy id s = .ok ((), s')) :
    ∃ row, row.id = id ∧ s.Prunable row ∧ s' = s.deleteNode row.id ∧
      (row.hierarchy = hierarchy →
        ∀ child ∈ s.nodes, child.hierarchy = row.hierarchy → child.parentKey ≠ row.key) := by
  rw [removeNode, Transaction.get_bind] at h
  obtain ⟨node, hnode, h⟩ := Transaction.lift_bind_eq_ok.1 h
  obtain ⟨hin, hid⟩ := hf.requireNode hnode
  by_cases hroot : node.key.isRoot = true
  · rw [if_pos hroot] at h
    cases h
  · rw [if_neg hroot] at h
    by_cases hfull : (s.hasChildren hierarchy node.key || !(s.directAssets node.id).isEmpty) = true
    · simp only [hfull, if_true] at h
      cases h
    · simp only [hfull] at h
      cases h
      rw [Bool.or_eq_true, not_or] at hfull
      refine ⟨node.row, hid, ⟨hin, ?_, fun asset hlink => hfull.2 ?_⟩, rfl, fun hh child hchild hch heq => hfull.1 ?_⟩
      · rw [Ne, hf.isRoot_iff hin rfl]
        exact hroot
      · have hdirect : asset ∈ s.directAssets node.id := by
          simp only [directAssets, sortIds, List.mem_mergeSort, List.mem_map, List.mem_filter,
            beq_iff_eq]
          exact ⟨(asset, node.id), ⟨hlink, rfl⟩, rfl⟩
        simpa using List.ne_nil_of_mem hdirect
      · have hlisted : child ∈ s.childRows hierarchy node.key := by
          rw [childRows, List.mem_filter, mem_rowsOf, beq_iff_eq]
          exact ⟨⟨hchild, hch.trans hh⟩, heq⟩
        simpa [hasChildren] using List.ne_nil_of_mem hlisted

end Inventory.Store
