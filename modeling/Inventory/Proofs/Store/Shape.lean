import Inventory.Proofs.Name
import Inventory.Proofs.Store.Frame
import Inventory.Proofs.Store.Growth
import Inventory.Proofs.Store.Progress

/-! # The shape of the forest

Three things happen to the forest: a hierarchy comes with its root, a child comes below a node, and
a node without children goes. Every structural transaction is a sequence of them. They keep a store
tidy: each root has the name of its hierarchy, each other path is that of the parent with one more
label, labels of siblings differ, and keys can be read. -/
namespace Inventory.Store
set_option autoImplicit false
open Relation
variable {s s' t : Store}

/-! ## What happens to the forest -/

/-- A root that comes with its hierarchy. -/
structure Founds (s : Store) (host : Hierarchy) (row : NodeRow) (n : Nat) : Prop where
  fits : s.Fits [host] row (Key.ofRoot n)
  word : n ≤ Text.maxWord
  value : row.value = host.name

/-- A child that comes below a row, with a label that no sibling has. -/
structure Sprouts (s : Store) (parent row : NodeRow) (above : Key) (n : Nat) : Prop where
  fits : s.Fits [] row (above.child n)
  word : n ≤ Text.maxWord
  known : parent ∈ s.nodes
  key : parent.key = above.text
  hierarchy : row.hierarchy = parent.hierarchy
  fullValue : row.fullValue = parent.fullValue ++ "/" ++ row.value
  fresh : ∀ sibling ∈ s.nodes, sibling.hierarchy = row.hierarchy →
    sibling.parentKey = row.parentKey → sibling.value ≠ row.value

inductive Shapes : Store → Store → Prop
  | found {s : Store} {host : Hierarchy} {row : NodeRow} {n : Nat} (h : s.Founds host row n) :
      Shapes s (s.withNode [host] row)
  | sprout {s : Store} {parent row : NodeRow} {above : Key} {n : Nat}
      (h : s.Sprouts parent row above n) : Shapes s (s.withNode [] row)
  | prune {s : Store} {row : NodeRow} (h : s.Prunable row)
      (hchildless : ∀ child ∈ s.nodes, child.hierarchy = row.hierarchy → child.parentKey ≠ row.key) :
      Shapes s (s.deleteNode row.id)

theorem Shapes.sound (h : Shapes s t) (hs : s.Sound) : t.Sound := by
  cases h with
  | found h => exact hs.withNode h.fits
  | sprout h => exact hs.withNode h.fits
  | prune h hchildless =>
    obtain ⟨hformed, hjoined, hsettled⟩ := h.deleteNode hs
    have hparented := (h.parented_iff hs).2 hchildless
    exact ⟨⟨hformed, hs.single, hjoined, hparented, hsettled⟩, hs.placed⟩

theorem Shapes.contents (h : Shapes s t) :
    t.attachments = s.attachments ∧ t.assets = s.assets := by
  cases h with
  | found | sprout | prune => exact ⟨rfl, rfl⟩

theorem sound_of_shapes (h : ReflTransGen Shapes s t) (hs : s.Sound) : t.Sound := by
  induction h with
  | refl => exact hs
  | tail _ hstep ih => exact hstep.sound ih

/-! ## The structural transactions -/

section Children
variable {parent child : Node} {value : String}

theorem insertChild_shapes (hs : s.Sound) (hparent : parent.row ∈ s.nodes) {siblings : List Node}
    (hsiblings : s.children parent.hierarchy parent.key = .ok siblings)
    (hnew : ∀ sibling ∈ siblings, sibling.value ≠ value)
    (h : insertChild parent siblings value s = .ok (child, s')) :
    Shapes s s' ∧ child.row ∈ s'.nodes := by
  obtain ⟨hfits, rfl, ⟨n, hn, hkey⟩, hh, hvalue, hfull⟩ :=
    insertChild_fits hs (isIn_of_row hparent) h
  have hup : child.row.parentKey = parent.key.text := by
    have htop : child.key.parent? = some parent.key := hkey ▸ Key.parent?_child parent.key n
    exact Key.parentText_of_parent? htop
  have hfresh : ∀ sibling ∈ s.nodes, sibling.hierarchy = child.row.hierarchy →
      sibling.parentKey = child.row.parentKey → sibling.value ≠ child.row.value := by
    intro sibling hsibling hsh hsp
    have hlisted : sibling ∈ s.childRows parent.hierarchy parent.key := by
      rw [childRows, List.mem_filter, mem_rowsOf, beq_iff_eq]
      exact ⟨⟨hsibling, hsh.trans hh⟩, hsp.trans hup⟩
    have hread := (hs.formed.children hsiblings).mem_iff.2 hlisted
    obtain ⟨node, hnode, rfl⟩ := List.mem_map.1 hread
    have hdiffers := hnew node hnode
    rw [← hvalue] at hdiffers
    exact hdiffers
  have hfull' : child.row.fullValue = parent.row.fullValue ++ "/" ++ child.row.value := by
    show child.fullValue = parent.fullValue ++ "/" ++ child.value
    rw [hfull, hvalue]
  refine ⟨.sprout ⟨hkey ▸ hfits, hn, hparent, rfl, hh, hfull', hfresh⟩, ?_⟩
  exact List.mem_append_right _ (List.mem_singleton_self _)

theorem getOrInsertChild_shapes (hs : s.Sound) (hparent : parent.row ∈ s.nodes)
    (hplain : Name.Plain value) {created : Bool}
    (h : getOrInsertChild parent value s = .ok ((child, created), s')) :
    ReflTransGen Shapes s s' ∧ child.row ∈ s'.nodes := by
  rw [getOrInsertChild, Transaction.get_bind] at h
  obtain ⟨siblings, hsiblings, h⟩ := Transaction.lift_bind_eq_ok.1 h
  cases hfind : siblings.find? (·.value == value) with
  | some found =>
    simp only [hfind] at h
    cases h
    have hin : child.row ∈ s.childRows parent.hierarchy parent.key :=
      (hs.formed.children hsiblings).mem_iff.1
        (List.mem_map_of_mem (List.mem_of_find?_eq_some hfind))
    exact ⟨.refl, (mem_rowsOf.1 (List.mem_of_mem_filter hin)).1⟩
  | none =>
    simp only [hfind] at h
    obtain ⟨name, hname, h⟩ := Transaction.lift_bind_eq_ok.1 h
    cases hplain.symm.trans hname
    obtain ⟨node, s₁, hinsert, h⟩ := Transaction.bind_eq_ok.1 h
    cases h
    have hnew : ∀ sibling ∈ siblings, sibling.value ≠ value := by
      intro sibling hsibling
      simpa using List.find?_eq_none.1 hfind sibling hsibling
    obtain ⟨hshapes, hin⟩ := insertChild_shapes hs hparent hsiblings hnew hinsert
    exact ⟨.single hshapes, hin⟩

/-- Going down a path, every step looks among the rows that the steps before it have left. -/
theorem descend_shapes (hs : s.Sound) (hparent : parent.row ∈ s.nodes) {values : List String}
    (hplain : ∀ value ∈ values, Name.Plain value) (h : descend parent values s = .ok (child, s')) :
    ReflTransGen Shapes s s' := by
  induction values generalizing s parent with
  | nil =>
    cases h
    exact .refl
  | cons value rest ih =>
    rw [descend, Transaction.bind_eq_ok] at h
    obtain ⟨⟨next, created⟩, s₁, hnext, h⟩ := h
    obtain ⟨hshapes, hin⟩ := getOrInsertChild_shapes hs hparent (hplain value List.mem_cons_self) hnext
    have hrest : ∀ other ∈ rest, Name.Plain other := fun other hother =>
      hplain other (List.mem_cons_of_mem _ hother)
    exact hshapes.trans (ih (sound_of_shapes hshapes hs) hin hrest h)

theorem createPath_shapes (hs : s.Sound) {hierarchy : HierarchyId} {path : String}
    (h : createPath hierarchy path s = .ok (child, s')) : ReflTransGen Shapes s s' := by
  rw [createPath, Transaction.get_bind] at h
  obtain ⟨root, hroot, h⟩ := Transaction.lift_bind_eq_ok.1 h
  have hroot := (hs.formed.requireRoot hroot).1
  exact descend_shapes hs hroot (fun _ hvalue => Name.plain_of_mem_below hvalue) h

/-- A child is created below its parent when the siblings are looked up in the parent's hierarchy. -/
theorem createChild_shapes (hs : s.Sound) {id : NodeId} (hparent : s.requireNode id = .ok parent)
    {value : Option String} {preset : String}
    (h : createChild parent.hierarchy id value preset s = .ok (child, s')) : Shapes s s' := by
  rw [createChild, Transaction.get_bind] at h
  obtain ⟨found, hfound, h⟩ := Transaction.lift_bind_eq_ok.1 h
  cases hparent.symm.trans hfound
  rw [Transaction.get_bind] at h
  obtain ⟨siblings, hsiblings, h⟩ := Transaction.lift_bind_eq_ok.1 h
  have hin := (hs.formed.requireNode hparent).1
  cases value with
  | none =>
    obtain ⟨hword, h⟩ := ensureWord_bind_eq_ok.1 h
    have hnew : ∀ sibling ∈ siblings, sibling.value ≠ Name.preset preset (siblings.map (·.value)) := by
      intro sibling hsibling heq
      exact Name.preset_not_mem hword (heq ▸ List.mem_map_of_mem hsibling)
    exact (insertChild_shapes hs hin hsiblings hnew h).1
  | some name =>
    obtain ⟨stored, -, h⟩ := Transaction.lift_bind_eq_ok.1 h
    by_cases htaken : siblings.any (·.value == stored) = true
    · rw [if_pos htaken] at h
      cases h
    · rw [if_neg htaken] at h
      have hnew : ∀ sibling ∈ siblings, sibling.value ≠ stored := by
        intro sibling hsibling heq
        exact htaken (List.any_eq_true.2 ⟨sibling, hsibling, beq_iff_eq.2 heq⟩)
      exact (insertChild_shapes hs hin hsiblings hnew h).1

end Children

theorem createHierarchy_shapes (hs : s.Sound) {name : String} {made : Hierarchy × Node}
    (h : createHierarchy name s = .ok (made, s')) : Shapes s s' := by
  obtain ⟨hfits, rfl, ⟨n, hn, hkey⟩, hname, hvalue, -⟩ := createHierarchy_fits hs h
  have hsame : made.2.row.value = made.1.name := hvalue.trans hname.symm
  exact .found ⟨hkey ▸ hfits, hn, hsame⟩

theorem removeNode_shapes (hs : s.Sound) {id : NodeId} {node : Node}
    (hnode : s.requireNode id = .ok node) (h : removeNode node.hierarchy id s = .ok ((), s')) :
    Shapes s s' := by
  obtain ⟨row, hid, hprunable, rfl, hchildless⟩ := removeNode_eq_ok hs.formed h
  obtain ⟨hin, hnid⟩ := hs.formed.requireNode hnode
  have hrow : row = node.row := hs.formed.eq_of_id hprunable.known hin (hid.trans hnid.symm)
  exact .prune hprunable (hchildless (by rw [hrow]; rfl))

/-! ## Tidy stores -/

/-- Roots have the names of their hierarchies, other nodes extend the paths of their parents, and
the labels of siblings differ. -/
structure Titled (s : Store) : Prop where
  root : ∀ row ∈ s.nodes, row.parentKey = "" →
    ∃ host ∈ s.hierarchies, host.id = row.hierarchy ∧ host.name = row.value
  path : ∀ row ∈ s.nodes, ∀ parent ∈ s.nodes, parent.hierarchy = row.hierarchy →
    parent.key = row.parentKey → row.fullValue = parent.fullValue ++ "/" ++ row.value
  siblings : ∀ row ∈ s.nodes, ∀ other ∈ s.nodes, row.hierarchy = other.hierarchy →
    row.parentKey ≠ "" → row.parentKey = other.parentKey → row.value = other.value →
      row.id = other.id

/-- A sound store with readable keys, marks on hierarchies that exist, and labels as they should
be. -/
structure Tidy (s : Store) : Prop extends Sound s where
  legible : ∀ row ∈ s.nodes, row.Legible
  vouched : ∀ h ∈ s.marked, ∃ host ∈ s.hierarchies, host.id = h
  titled : s.Titled

theorem tidy_empty : Tidy {} where
  toSound := sound_empty
  legible _ h := absurd h List.not_mem_nil
  vouched _ h := absurd h List.not_mem_nil
  titled := ⟨fun _ h => absurd h List.not_mem_nil, fun _ h => absurd h List.not_mem_nil,
    fun _ h => absurd h List.not_mem_nil⟩

theorem legible_of_bounded {row : NodeRow} {key : Key} (htext : row.key = key.text)
    (h : key.Bounded) : row.Legible := by
  obtain ⟨read, hread⟩ := Key.ofText?_text_isSome.2 h
  exact ⟨read, htext ▸ hread⟩

theorem bounded_of_legible {row : NodeRow} {key : Key} (htext : row.key = key.text)
    (h : row.Legible) : key.Bounded := by
  obtain ⟨read, hread⟩ := h
  exact Key.ofText?_text_isSome.1 ⟨read, htext ▸ hread⟩

/-- A root holds the name of its hierarchy, and nothing stands below it yet. -/
theorem Founds.titled {host : Hierarchy} {row : NodeRow} {n : Nat} (h : s.Founds host row n)
    (hs : s.Tidy) : (s.withNode [host] row).Titled := by
  have hroot : row.parentKey = "" := (h.fits.root host (List.mem_singleton_self _)).2
  have hhost : host.id = row.hierarchy := (h.fits.root host (List.mem_singleton_self _)).1
  refine ⟨fun other hother hp => ?_, fun other hother parent hparent hh hk => ?_,
    fun first hfirst second hsecond hh hne hp hv => ?_⟩
  · rcases List.mem_append.1 hother with hold | hnew
    · obtain ⟨known, hknown, hid⟩ := hs.titled.root other hold hp
      exact ⟨known, List.mem_append_left _ hknown, hid⟩
    · rw [List.mem_singleton.1 hnew]
      exact ⟨host, List.mem_append_right _ (List.mem_singleton_self _), hhost, h.value.symm⟩
  · rcases List.mem_append.1 hother with hold | hnew
    · rcases List.mem_append.1 hparent with hup | hup
      · exact hs.titled.path other hold parent hup hh hk
      · rw [List.mem_singleton.1 hup] at hk
        have hne : other.parentKey ≠ "" := by
          rw [← hk, h.fits.text]
          exact Key.text_ne_empty _
        obtain ⟨known, hknown, -, hkey⟩ := hs.parented other hold hne
        exact absurd (hkey.trans hk.symm) (h.fits.new known hknown)
    · rw [List.mem_singleton.1 hnew, hroot] at hk
      obtain ⟨key, hkey⟩ := (h.fits.formed hs.formed).keyed parent hparent
      exact absurd (hkey.symm.trans hk) (Key.text_ne_empty key)
  · have hold : ∀ {child : NodeRow}, child ∈ (s.withNode [host] row).nodes → child.parentKey ≠ "" →
        child ∈ s.nodes := by
      intro child hchild hinner
      rcases List.mem_append.1 hchild with hin | hnew
      · exact hin
      · rw [List.mem_singleton.1 hnew] at hinner
        exact absurd hroot hinner
    exact hs.titled.siblings first (hold hfirst hne) second (hold hsecond (hp ▸ hne)) hh hne hp hv

/-- A child extends the path of its parent, and nothing stands below it yet. -/
theorem Sprouts.titled {parent row : NodeRow} {above : Key} {n : Nat}
    (h : s.Sprouts parent row above n) (hs : s.Tidy) : (s.withNode [] row).Titled := by
  have hup : row.parentKey = above.text := by
    rw [h.fits.parentKey]
    exact Key.parentText_of_parent? (Key.parent?_child above n)
  have hinner : row.parentKey ≠ "" := hup ▸ Key.text_ne_empty above
  refine ⟨fun other hother hp => ?_, fun other hother top htop hh hk => ?_,
    fun first hfirst second hsecond hh hne hp hv => ?_⟩
  · rcases List.mem_append.1 hother with hold | hnew
    · obtain ⟨known, hknown, hid⟩ := hs.titled.root other hold hp
      exact ⟨known, List.mem_append_left _ hknown, hid⟩
    · rw [List.mem_singleton.1 hnew] at hp
      exact absurd hp hinner
  · rcases List.mem_append.1 hother with hold | hnew
    · rcases List.mem_append.1 htop with hin | hin
      · exact hs.titled.path other hold top hin hh hk
      · rw [List.mem_singleton.1 hin] at hk
        have hne : other.parentKey ≠ "" := by
          rw [← hk, h.fits.text]
          exact Key.text_ne_empty _
        obtain ⟨known, hknown, -, hkey⟩ := hs.parented other hold hne
        exact absurd (hkey.trans hk.symm) (h.fits.new known hknown)
    · rw [List.mem_singleton.1 hnew] at hk ⊢
      rcases List.mem_append.1 htop with hin | hin
      · have hsame : top = parent :=
          hs.formed.eq_of_key hin h.known (hk.trans (hup.trans h.key.symm))
        rw [hsame]
        exact h.fullValue
      · -- no row is its own parent
        rw [List.mem_singleton.1 hin, h.fits.text, h.fits.parentKey] at hk
        have hself := Key.parentText_eq_text.1 hk.symm
        rw [Key.parent?_child] at hself
        have hlength := congrArg (fun key => key.path.length) (Option.some.inj hself)
        simp [Key.child] at hlength
  · rcases List.mem_append.1 hfirst with hin | hin <;>
      rcases List.mem_append.1 hsecond with hin' | hin'
    · exact hs.titled.siblings first hin second hin' hh hne hp hv
    · rw [List.mem_singleton.1 hin'] at hh hp hv
      exact absurd hv (h.fresh first hin hh hp)
    · rw [List.mem_singleton.1 hin] at hh hp hv
      exact absurd hv.symm (h.fresh second hin' hh.symm hp.symm)
    · rw [List.mem_singleton.1 hin, List.mem_singleton.1 hin']

theorem titled_deleteNode (hs : s.Titled) (id : NodeId) : (s.deleteNode id).Titled := by
  have hold : ∀ {row : NodeRow}, row ∈ (s.deleteNode id).nodes → row ∈ s.nodes := fun hrow =>
    (mem_deleteNode.1 hrow).1
  exact ⟨fun row hrow => hs.root row (hold hrow),
    fun row hrow parent hparent => hs.path row (hold hrow) parent (hold hparent),
    fun row hrow other hother => hs.siblings row (hold hrow) other (hold hother)⟩

theorem Shapes.tidy (h : Shapes s t) (hs : s.Tidy) : t.Tidy := by
  have hsound := h.sound hs.toSound
  cases h with
  | @found host row n h =>
    refine ⟨hsound, fun other hother => ?_, fun id hid => ?_, h.titled hs⟩
    · rcases List.mem_append.1 hother with hold | hnew
      · exact hs.legible other hold
      · rw [List.mem_singleton.1 hnew]
        refine legible_of_bounded h.fits.text fun segment hsegment => ?_
        rw [List.mem_singleton.1 hsegment]
        exact h.word
    · obtain ⟨known, hknown, heq⟩ := hs.vouched id hid
      exact ⟨known, List.mem_append_left _ hknown, heq⟩
  | @sprout parent row above n h =>
    refine ⟨hsound, fun other hother => ?_, fun id hid => ?_, h.titled hs⟩
    · rcases List.mem_append.1 hother with hold | hnew
      · exact hs.legible other hold
      · rw [List.mem_singleton.1 hnew]
        have hbounded := bounded_of_legible h.key (hs.legible parent h.known)
        exact legible_of_bounded h.fits.text (hbounded.child h.word)
    · obtain ⟨known, hknown, heq⟩ := hs.vouched id hid
      exact ⟨known, List.mem_append_left _ hknown, heq⟩
  | prune h =>
    exact ⟨hsound, fun other hother => hs.legible other (mem_deleteNode.1 hother).1, hs.vouched,
      titled_deleteNode hs.titled _⟩

theorem tidy_of_shapes (h : ReflTransGen Shapes s t) (hs : s.Tidy) : t.Tidy := by
  induction h with
  | refl => exact hs
  | tail _ hstep ih => exact hstep.tidy ih

theorem Still.titled (h : Still s t) (hs : s.Titled) : t.Titled := by
  refine ⟨fun row hrow hp => ?_, fun row hrow parent hparent hh hk => ?_,
    fun row hrow other hother hh hne hp hv => ?_⟩
  · obtain ⟨old, hold, -, hhost, -, hup, hvalue, -⟩ := h.exists_row hrow
    rw [h.hierarchies, ← hhost, ← hvalue]
    exact hs.root old hold (hup.trans hp)
  · obtain ⟨old, hold, -, hhost, -, hup, hvalue, hfull⟩ := h.exists_row hrow
    obtain ⟨top, htop, -, hhost', hkey, -, -, hfull'⟩ := h.exists_row hparent
    rw [← hfull, ← hfull', ← hvalue]
    exact hs.path old hold top htop (hhost'.trans (hh.trans hhost.symm))
      (hkey.trans (hk.trans hup.symm))
  · obtain ⟨old, hold, hid, hhost, -, hup, hvalue, -⟩ := h.exists_row hrow
    obtain ⟨old', hold', hid', hhost', -, hup', hvalue', -⟩ := h.exists_row hother
    rw [← hid, ← hid']
    exact hs.siblings old hold old' hold' (hhost.trans (hh.trans hhost'.symm)) (hup ▸ hne)
      (hup.trans (hp.trans hup'.symm)) (hvalue.trans (hv.trans hvalue'.symm))

theorem Still.tidy (h : Still s t) (hs : s.Tidy) (ht : t.Sound) : t.Tidy := by
  refine ⟨ht, fun row hrow => ?_, fun id hid => ?_, h.titled hs.titled⟩
  · obtain ⟨old, hold, -, -, hkey, -⟩ := h.exists_row hrow
    obtain ⟨key, hread⟩ := hs.legible old hold
    exact ⟨key, hkey ▸ hread⟩
  · rw [h.hierarchies]
    rcases h.marked id hid with hmarked | hknown
    · exact hs.vouched id hmarked
    · exact hknown

end Inventory.Store
