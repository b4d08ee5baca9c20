import Inventory.Proofs.Store.Fair
import Inventory.Proofs.Store.Listing

/-! # Going down a path

Each step goes to a child that is there or makes it with the next number. The rows that have been made
on the way stand at or above the node that has been reached, so that its children are those that were
there at the start. Where every child is there, going down changes nothing. -/
namespace Inventory
set_option autoImplicit false

namespace Store
variable {s t base : Store} {rows : List NodeRow} {parent child : Node} {value : String}
  {visited : List Node}

/-! ## Steps -/

/-- A child of the key has the number. -/
def HasChild (s : Store) (hierarchy : HierarchyId) (parent : Key) (n : Nat) : Prop :=
  ∃ row ∈ s.nodes, row.hierarchy = hierarchy ∧ row.key = (parent.child n).text

/-- The number comes after those of all children of the key: it is the next one, or the first. -/
def NextNumber (s : Store) (hierarchy : HierarchyId) (parent : Key) (n : Nat) : Prop :=
  (∀ m, s.HasChild hierarchy parent m → m < n) ∧
    (n = 1 ∨ ∃ m, s.HasChild hierarchy parent m ∧ n = m + 1)

/-- A node has no child of this name yet, and one comes with the next number and without assets. -/
structure Comes (s : Store) (parent child : Node) : Prop where
  missing : ∀ row ∈ s.nodes, row.hierarchy = parent.hierarchy → row.parentKey = parent.key.text →
    row.value ≠ child.value
  id : ∀ row ∈ s.nodes, row.id ≠ child.id
  key : ∃ n, s.NextNumber parent.hierarchy parent.key n ∧ child.key = parent.key.child n
  amount : child.amount = 0
  unattached : ∀ asset, (asset, child.id) ∉ s.attachments

/-- A step from a node to a child, which is there or comes. -/
structure Link (s : Store) (parent child : Node) : Prop where
  hierarchy : child.hierarchy = parent.hierarchy
  below : child.key.parent? = some parent.key
  fullValue : child.fullValue = parent.fullValue ++ "/" ++ child.value
  known : child.row ∈ s.nodes ∨ s.Comes parent child

/-! ## Children that are there -/

theorem descend_append (node : Node) (values more : List String) :
    descend node (values ++ more) = descend node values >>= fun last => descend last more := by
  induction values generalizing node with
  | nil => exact (pure_bind _ _).symm
  | cons value rest ih =>
    rw [List.cons_append, descend, descend, bind_assoc]
    exact congrArg _ (funext fun child => ih child.1)

/-- A child that is there is found by its label. -/
theorem Tidy.getOrInsertChild_eq (hs : s.Tidy) (hchild : child.row ∈ s.nodes)
    (hh : child.hierarchy = parent.hierarchy) (hup : child.key.parent? = some parent.key) :
    getOrInsertChild parent child.value s = .ok ((child, false), s) := by
  obtain ⟨siblings, hsiblings, -, hmem⟩ := hs.exists_children parent.hierarchy parent.key
  have hin : child ∈ siblings := (hmem child).2 ⟨hchild, hh, hup⟩
  have hfind : siblings.find? (·.value == child.value) = some child := by
    cases hfind : siblings.find? (·.value == child.value) with
    | none => simpa using List.find?_eq_none.1 hfind child hin
    | some found =>
      have hvalue : found.value = child.value := by simpa using List.find?_some hfind
      obtain ⟨hfound, hfh, hfp⟩ := (hmem found).1 (List.mem_of_find?_eq_some hfind)
      have hfup : found.row.parentKey = parent.key.text := Key.parentText_of_parent? hfp
      have hid := hs.titled.siblings found.row hfound child.row hchild (hfh.trans hh.symm)
        (hfup ▸ Key.text_ne_empty parent.key) (hfup.trans (Key.parentText_of_parent? hup).symm) hvalue
      exact congrArg some (Node.row_injective (hs.formed.eq_of_id hfound hchild hid))
  rw [getOrInsertChild, Transaction.get_bind]
  refine Transaction.lift_bind_eq_ok.2 ⟨siblings, hsiblings, ?_⟩
  simp only [hfind]
  rfl

/-- Steps to children that are there change nothing. -/
theorem Tidy.descend_eq_of_linked (hs : s.Tidy) (hchain : (parent :: visited).IsChain base.Link)
    (hrows : ∀ node ∈ visited, node.row ∈ s.nodes) :
    descend parent (visited.map (·.value)) s = .ok (visited.getLastD parent, s) := by
  induction visited generalizing parent with
  | nil => rfl
  | cons child rest ih =>
    obtain ⟨hlink, hrest⟩ := List.isChain_cons_cons.1 hchain
    have hstep := hs.getOrInsertChild_eq (hrows child List.mem_cons_self) hlink.hierarchy hlink.below
    have hgoes := ih hrest fun node hnode => hrows node (List.mem_cons_of_mem _ hnode)
    rw [List.map_cons, descend, List.getLastD_cons]
    exact Transaction.bind_eq_ok.2 ⟨(child, false), s, hstep, hgoes⟩

/-- The path of the node that has been reached has the names of all steps. -/
theorem fullValue_getLastD (hchain : (parent :: visited).IsChain base.Link) :
    (visited.getLastD parent).fullValue =
      Name.extend parent.fullValue (visited.map (·.value)) := by
  induction visited generalizing parent with
  | nil => rfl
  | cons child rest ih =>
    obtain ⟨hlink, hrest⟩ := List.isChain_cons_cons.1 hchain
    rw [List.getLastD_cons, ih hrest, hlink.fullValue]
    rfl

theorem hierarchy_of_linked (hchain : (parent :: visited).IsChain base.Link) :
    ∀ node ∈ parent :: visited, node.hierarchy = parent.hierarchy := by
  induction visited generalizing parent with
  | nil => simp
  | cons child rest ih =>
    obtain ⟨hlink, hrest⟩ := List.isChain_cons_cons.1 hchain
    intro node hnode
    rcases List.mem_cons.1 hnode with rfl | hlater
    · rfl
    · exact (ih hrest node hlater).trans hlink.hierarchy

/-! ## Children that come -/

/-- While the numbers of its children are not used up, a node can have a further child. -/
theorem Tidy.exists_insertChild (hs : s.Tidy) (hparent : parent.row ∈ s.nodes) {siblings : List Node}
    (hsiblings : s.children parent.hierarchy parent.key = .ok siblings)
    (hroom : ∀ sibling ∈ siblings, sibling.key.lastSegment < Text.maxWord) (value : String) :
    ∃ child, insertChild parent siblings value s = .ok (child, s.withNode [] child.row) ∧
      child.key = Key.nextChild parent.key (siblings.map (·.key)) ∧ child.amount = 0 := by
  have hword : (Key.nextChild parent.key (siblings.map (·.key))).lastSegment ≤ Text.maxWord := by
    refine (Key.nextChild_free fun key hkey _ => ?_).fits
    obtain ⟨sibling, hsibling, rfl⟩ := List.mem_map.1 hkey
    exact hroom sibling hsibling
  obtain ⟨⟨id, s'⟩, hinsert⟩ := exists_insertNode
    (fun old hold hh => hs.formed.nextChild_free hsiblings hold hh)
    (hs.formed.hosted parent.row hparent) value (parent.fullValue ++ "/" ++ value)
  obtain ⟨-, -, -, rfl⟩ := insertNode_eq_ok hinsert
  refine ⟨⟨id, parent.hierarchy, _, value, parent.fullValue ++ "/" ++ value, 0⟩, ?_, rfl, rfl⟩
  exact ensureWord_bind_eq_ok.2 ⟨hword, Transaction.bind_eq_ok.2 ⟨id, _, hinsert, rfl⟩⟩

/-! ## Rows on the way -/

/-- The store with further rows. -/
def withRows (s : Store) (rows : List NodeRow) : Store := { s with nodes := s.nodes ++ rows }

/-- The rows of those nodes that a store does not have. -/
def fresh (s : Store) (nodes : List Node) : List NodeRow :=
  (nodes.map Node.row).filter fun row => decide (row ∉ s.nodes)

theorem fresh_cons (s : Store) (node : Node) (rest : List Node) :
    s.fresh (node :: rest) = s.fresh [node] ++ s.fresh rest := by
  rw [fresh, fresh, fresh, ← List.filter_append]
  rfl

theorem fresh_of_mem (h : child.row ∈ s.nodes) : s.fresh [child] = [] := by
  simp [fresh, h]

theorem fresh_of_not_mem (h : child.row ∉ s.nodes) : s.fresh [child] = [child.row] := by
  simp [fresh, h]

theorem mem_withRows_fresh {node : Node} (h : node ∈ visited) :
    node.row ∈ (s.withRows (s.fresh visited)).nodes := by
  by_cases hold : node.row ∈ s.nodes
  · exact List.mem_append_left _ hold
  · exact List.mem_append_right _ (List.mem_filter.2 ⟨List.mem_map_of_mem h, by simpa using hold⟩)

theorem withRows_withRows (s : Store) (rows more : List NodeRow) :
    (s.withRows rows).withRows more = s.withRows (rows ++ more) := by
  rw [withRows, withRows, withRows, List.append_assoc]

theorem withNode_nil (s : Store) (row : NodeRow) : s.withNode [] row = s.withRows [row] := by
  rw [withNode, List.append_nil]
  rfl

/-- The rows stand at or above a key. -/
def Overhead (rows : List NodeRow) (key : Key) : Prop :=
  ∀ row ∈ rows, ∃ above : Key, row.key = above.text ∧ key.isDescendantOrSelf above = true

/-- The children of a node are not among the rows at or above it. -/
theorem mem_of_overhead (hrows : Overhead rows parent.key)
    (hchild : child.row ∈ (base.withRows rows).nodes) (hup : child.key.parent? = some parent.key) :
    child.row ∈ base.nodes := by
  rcases List.mem_append.1 hchild with hold | hnew
  · exact hold
  · obtain ⟨above, hkey, habove⟩ := hrows child.row hnew
    obtain rfl : child.key = above := Key.text_injective hkey
    have hbelow := (Key.descendant_iff_of_parent? hup).2 (Or.inr (Key.descendant_refl parent.key))
    obtain ⟨n, hn⟩ := Key.eq_child_of_parent? hup
    exact absurd (hn.symm.trans (Key.descendant_antisymm hbelow habove)) (Key.child_ne_self _ n)

/-! ## Going down -/

/-- The numbers of the keys of a hierarchy are not used up. -/
def Roomy (s : Store) (hierarchy : HierarchyId) : Prop :=
  ∀ row ∈ s.nodes, row.hierarchy = hierarchy → ∀ key : Key, row.key = key.text →
    key.lastSegment < Text.maxWord

section Siblings
variable {siblings : List Node} (hs : (base.withRows rows).Tidy) (hrows : Overhead rows parent.key)
  (hmem : ∀ sibling, sibling ∈ siblings ↔ sibling.row ∈ (base.withRows rows).nodes ∧
    sibling.hierarchy = parent.hierarchy ∧ sibling.key.parent? = some parent.key)
include hs hrows hmem

/-- Children are numbered by those that were there at the start. -/
theorem Tidy.hasChild_iff {n : Nat} : base.HasChild parent.hierarchy parent.key n ↔
    ∃ sibling ∈ siblings, sibling.key = parent.key.child n := by
  constructor
  · rintro ⟨row, hrow, hh, hkey⟩
    have hin : row ∈ (base.withRows rows).nodes := List.mem_append_left _ hrow
    obtain ⟨sibling, rfl⟩ := hs.exists_node hin
    have hsame : sibling.key = parent.key.child n := Key.text_injective hkey
    exact ⟨sibling, (hmem sibling).2 ⟨hin, hh, hsame ▸ Key.parent?_child parent.key n⟩, hsame⟩
  · rintro ⟨sibling, hsibling, hkey⟩
    obtain ⟨hin, hh, hup⟩ := (hmem sibling).1 hsibling
    exact ⟨sibling.row, mem_of_overhead hrows hin hup, hh, congrArg Key.text hkey⟩

theorem Tidy.comes (hmissing : ∀ sibling ∈ siblings, sibling.value ≠ child.value)
    (hfits : (base.withRows rows).Fits [] child.row child.key)
    (hkey : child.key = Key.nextChild parent.key (siblings.map (·.key))) (hamount : child.amount = 0) :
    base.Comes parent child where
  missing row hrow hh hup := by
    have hin : row ∈ (base.withRows rows).nodes := List.mem_append_left _ hrow
    obtain ⟨sibling, rfl⟩ := hs.exists_node hin
    exact hmissing sibling ((hmem sibling).2 ⟨hin, hh, Key.parentText_eq_text.1 hup⟩)
  id row hrow := hfits.id row (List.mem_append_left _ hrow)
  key := by
    have hnumber : ∀ n, n ∈ ((siblings.map (·.key)).filter (·.isChildOf parent.key)).map Key.lastSegment ↔
        base.HasChild parent.hierarchy parent.key n := fun n => by
      rw [Key.mem_childNumbers, hs.hasChild_iff hrows hmem, List.mem_map]
    refine ⟨_, ⟨fun n hn => Key.lt_nextNumber ((hnumber n).2 hn), ?_⟩, hkey⟩
    refine (Key.nextNumber_eq _).imp_right ?_
    rintro ⟨n, hn, hnext⟩
    exact ⟨n, (hnumber n).1 hn, hnext⟩
  amount := hamount
  unattached := hfits.unattached hs.joined

end Siblings

/-- One step goes to a child that was there at the start, or makes it. -/
theorem Tidy.exists_step (hs : (base.withRows rows).Tidy) (hrows : Overhead rows parent.key)
    (hparent : parent.row ∈ (base.withRows rows).nodes) (hroom : base.Roomy parent.hierarchy)
    (hplain : Name.Plain value) :
    ∃ child created, getOrInsertChild parent value (base.withRows rows) =
        .ok ((child, created), base.withRows (rows ++ base.fresh [child])) ∧
      base.Link parent child ∧ child.value = value := by
  obtain ⟨siblings, hsiblings, -, hmem⟩ := hs.exists_children parent.hierarchy parent.key
  have hold : ∀ sibling ∈ siblings, sibling.row ∈ base.nodes := fun sibling hsibling =>
    mem_of_overhead hrows ((hmem sibling).1 hsibling).1 ((hmem sibling).1 hsibling).2.2
  rw [getOrInsertChild, Transaction.get_bind]
  cases hfind : siblings.find? (·.value == value) with
  | some found =>
    have hfound := List.mem_of_find?_eq_some hfind
    obtain ⟨hin, hh, hup⟩ := (hmem found).1 hfound
    refine ⟨found, false, Transaction.lift_bind_eq_ok.2 ⟨siblings, hsiblings, ?_⟩, ?_, ?_⟩
    · rw [fresh_of_mem (hold found hfound), List.append_nil]
      simp only [hfind]
      rfl
    · exact ⟨hh, hup, hs.titled.path found.row hin parent.row hparent hh.symm
        (Key.parentText_of_parent? hup).symm, Or.inl (hold found hfound)⟩
    · simpa using List.find?_some hfind
  | none =>
    obtain ⟨child, hinsert, hkey, hamount⟩ := hs.exists_insertChild hparent hsiblings
      (fun sibling hsibling => hroom sibling.row (hold sibling hsibling)
        ((hmem sibling).1 hsibling).2.1 sibling.key rfl) value
    obtain ⟨hfits, -, -, hh, rfl, hfull⟩ := insertChild_fits hs.toSound (isIn_of_row hparent) hinsert
    have hmissing : ∀ sibling ∈ siblings, sibling.value ≠ child.value := by
      intro sibling hsibling
      simpa using List.find?_eq_none.1 hfind sibling hsibling
    have hcomes := hs.comes hrows hmem hmissing hfits hkey hamount
    refine ⟨child, true, Transaction.lift_bind_eq_ok.2 ⟨siblings, hsiblings, ?_⟩, ?_, rfl⟩
    · rw [fresh_of_not_mem fun hin => hcomes.id child.row hin rfl, ← withRows_withRows, ← withNode_nil]
      simp only [hfind]
      refine Transaction.lift_bind_eq_ok.2 ⟨child.value, hplain, ?_⟩
      exact Transaction.bind_eq_ok.2 ⟨child, _, hinsert, rfl⟩
    · exact ⟨hh, hkey ▸ Key.parent?_child parent.key _, hfull, Or.inr hcomes⟩

/-- Going down along names takes one step for each of them, and leaves the rows that were missing. -/
theorem Tidy.exists_descent {values : List String} (hs : (base.withRows rows).Tidy)
    (hrows : Overhead rows parent.key) (hparent : parent.row ∈ (base.withRows rows).nodes)
    (hroom : base.Roomy parent.hierarchy) (hplain : ∀ value ∈ values, Name.Plain value) :
    ∃ visited, descend parent values (base.withRows rows) =
        .ok (visited.getLastD parent, base.withRows (rows ++ base.fresh visited)) ∧
      (base.withRows (rows ++ base.fresh visited)).Tidy ∧
      (parent :: visited).IsChain base.Link ∧ visited.map (·.value) = values := by
  induction values generalizing parent rows with
  | nil =>
    have hnone : rows ++ base.fresh [] = rows := List.append_nil rows
    refine ⟨[], ?_, ?_, List.isChain_singleton parent, rfl⟩
    · rw [hnone]
      rfl
    · rwa [hnone]
  | cons value rest ih =>
    have hvalue := hplain value List.mem_cons_self
    obtain ⟨child, created, hstep, hlink, rfl⟩ := hs.exists_step hrows hparent hroom hvalue
    obtain ⟨hshapes, hchild⟩ := getOrInsertChild_shapes hs.toSound hparent hvalue hstep
    have hbelow := (Key.descendant_iff_of_parent? hlink.below).2
      (Or.inr (Key.descendant_refl parent.key))
    have habove : Overhead (rows ++ base.fresh [child]) child.key := by
      intro row hrow
      rcases List.mem_append.1 hrow with hold | hnew
      · obtain ⟨above, hkey, habove⟩ := hrows row hold
        exact ⟨above, hkey, Key.descendant_trans hbelow habove⟩
      · rw [List.mem_singleton.1 (List.mem_of_mem_filter hnew)]
        exact ⟨child.key, rfl, Key.descendant_refl child.key⟩
    obtain ⟨visited, hdescend, htidy, hchain, rfl⟩ := ih (tidy_of_shapes hshapes hs) habove hchild
      (hlink.hierarchy ▸ hroom) fun other hother => hplain other (List.mem_cons_of_mem _ hother)
    rw [List.append_assoc, ← fresh_cons] at hdescend htidy
    refine ⟨child :: visited, ?_, htidy, hchain.cons_cons hlink, rfl⟩
    rw [descend, List.getLastD_cons]
    exact Transaction.bind_eq_ok.2 ⟨(child, created), _, hstep, hdescend⟩

end Store
end Inventory
