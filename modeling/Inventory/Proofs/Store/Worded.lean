import Inventory.Proofs.Store.Frame
import Inventory.Proofs.Store.Shape

/-! # The names in a store

Names come into a store through validation, from the parts of a path, or as a preset with a number.
The names of roots are stored as they are, and their paths are these names after a slash. Where the
preset is fit to lead a name, all names of nodes are stored as they are. -/
namespace Inventory.Store
set_option autoImplicit false
open Transaction
variable {s t : Store} {hierarchy : HierarchyId}

/-- The names of nodes are stored as they are, and the path of a root is its name. -/
structure Worded (s : Store) : Prop where
  plain : ∀ row ∈ s.nodes, Name.Plain row.value
  root : ∀ row ∈ s.nodes, row.parentKey = "" → row.fullValue = "/" ++ row.value

theorem worded_empty : Worded {} :=
  ⟨fun _ h => absurd h List.not_mem_nil, fun _ h => absurd h List.not_mem_nil⟩

theorem Still.worded (h : Still s t) (hs : s.Worded) : t.Worded := by
  constructor
  · intro row hrow
    obtain ⟨old, hold, -, -, -, -, hvalue, -⟩ := h.exists_row hrow
    exact hvalue ▸ hs.plain old hold
  · intro row hrow htop
    obtain ⟨old, hold, -, -, -, hp, hvalue, hfull⟩ := h.exists_row hrow
    rw [← hvalue, ← hfull]
    exact hs.root old hold (hp.trans htop)

/-- What keeps names in order. -/
def Words (s t : Store) : Prop := s.Worded → t.Worded

/-- The names of roots are stored as they are and make up their paths. -/
def Headed (s : Store) : Prop :=
  ∀ row ∈ s.nodes, row.parentKey = "" → Name.Plain row.value ∧ row.fullValue = "/" ++ row.value

theorem Still.headed (h : Still s t) (hs : s.Headed) : t.Headed := by
  intro row hrow htop
  obtain ⟨old, hold, -, -, -, hp, hvalue, hfull⟩ := h.exists_row hrow
  rw [← hvalue, ← hfull]
  exact hs old hold (hp.trans htop)

/-! ## Rows that come -/

/-- Every row that has come passes a test. -/
def Adds (test : NodeRow → Prop) (s t : Store) : Prop := ∀ row ∈ t.nodes, row ∈ s.nodes ∨ test row

instance (test : NodeRow → Prop) : Std.Refl (Adds test) where
  refl _ _ := Or.inl

instance (test : NodeRow → Prop) : IsTrans Store (Adds test) where
  trans _ _ _ h h' row hrow := (h' row hrow).elim (h row) Or.inr

theorem Adds.words
    (h : Adds (fun row => Name.Plain row.value ∧ (row.parentKey = "" → row.fullValue = "/" ++ row.value))
      s t) : Words s t := by
  intro hs
  constructor
  · intro row hrow
    exact (h row hrow).elim (hs.plain row) And.left
  · intro row hrow
    exact (h row hrow).elim (hs.root row) And.right

theorem Adds.headed
    (h : Adds (fun row => row.parentKey = "" → Name.Plain row.value ∧ row.fullValue = "/" ++ row.value)
      s t) (hs : s.Headed) : t.Headed :=
  fun row hrow => (h row hrow).elim (hs row) id

section Structure
variable {test : NodeRow → Prop}

theorem adds_insertNode {key : Key} {value fullValue : String}
    (h : ∀ id, test ⟨id, hierarchy, key.text, key.parentText, value, fullValue, 0⟩) :
    Along (Adds test) s (insertNode hierarchy key value fullValue) := by
  intro id t hrun row hrow
  obtain ⟨-, -, -, rfl⟩ := insertNode_eq_ok hrun
  rcases List.mem_append.1 hrow with hold | hnew
  · exact Or.inl hold
  · rw [List.mem_singleton.1 hnew]
    exact Or.inr (h id)

theorem adds_ensureWord (n : Nat) : Along (Adds test) s (ensureWord n) := by
  rw [ensureWord]
  by_cases hn : n ≤ Text.maxWord
  · rw [if_pos hn]
    exact along_pure ()
  · rw [if_neg hn]
    exact along_throw _

theorem adds_insertChild {value : String}
    (h : ∀ row : NodeRow, row.parentKey ≠ "" → row.value = value → test row) (parent : Node)
    (siblings : List Node) : Along (Adds test) s (insertChild parent siblings value) := by
  refine (adds_ensureWord _).bind fun _ t => Along.bind ?_ fun _ _ => along_pure _
  refine adds_insertNode fun id => h _ ?_ rfl
  rw [Key.nextChild, Key.parentText_of_parent? (Key.parent?_child _ _)]
  exact Key.text_ne_empty parent.key

theorem adds_createHierarchy {name : String} (h : ∀ row : NodeRow, row.parentKey = "" →
    row.value = name → row.fullValue = "/" ++ name → test row) :
    Along (Adds test) s (createHierarchy name) := by
  refine Along.bind (along_get (along_set (fun _ => Or.inl) (along_pure _)))
    fun id t => along_get (along_lift fun keys _ => ?_)
  refine (adds_ensureWord _).bind fun _ t => Along.bind ?_ fun _ _ => along_pure _
  have htop : (Key.nextRoot keys).parentText = "" :=
    Key.parentText_eq_empty.2 (Key.parent?_eq_none.2 rfl)
  exact adds_insertNode fun id => h _ htop rfl rfl

theorem adds_removeNode (id : NodeId) : Along (Adds test) s (removeNode hierarchy id) := by
  refine along_get (along_lift fun node _ => ?_)
  have hset : Along (Adds test) s (set (s.deleteNode node.id) : Transaction PUnit) :=
    along_write rfl fun row hrow => Or.inl (mem_deleteNode.1 hrow).1
  by_cases hroot : node.key.isRoot = true
  · rw [if_pos hroot]
    exact along_throw_bind _
  · rw [if_neg hroot]
    dsimp only
    split
    · exact along_throw_bind _
    · exact hset

variable (hchild : ∀ row : NodeRow, row.parentKey ≠ "" → Name.Plain row.value → test row)
include hchild

theorem adds_getOrInsertChild (parent : Node) (value : String) :
    Along (Adds test) s (getOrInsertChild parent value) := by
  refine along_get (along_lift fun siblings _ => ?_)
  cases siblings.find? (·.value == value) with
  | some found => exact along_pure _
  | none =>
    refine along_lift fun name hname => (adds_insertChild ?_ parent siblings).bind fun _ _ => along_pure _
    exact fun row hrow hvalue => hchild row hrow (hvalue ▸ Name.plain_of_validate hname)

theorem adds_descend (parent : Node) (values : List String) :
    Along (Adds test) s (descend parent values) := by
  induction values generalizing s parent with
  | nil => exact along_pure parent
  | cons value rest ih =>
    exact (adds_getOrInsertChild hchild parent value).bind fun child _ => ih child.1

theorem adds_createPath (hierarchy : HierarchyId) (path : String) :
    Along (Adds test) s (createPath hierarchy path) :=
  along_get (along_lift fun root _ => adds_descend hchild root _)

/-- The preset text is all that is known of a name that nobody has given. -/
theorem adds_createChild {preset : String}
    (hpreset : ∀ n : Nat, ∀ row : NodeRow, row.parentKey ≠ "" → row.value = s!"{preset} {n}" → test row)
    (id : NodeId) (value : Option String) :
    Along (Adds test) s (createChild hierarchy id value preset) := by
  refine along_get (along_lift fun parent _ => along_get (along_lift fun siblings _ => ?_))
  cases value with
  | some name =>
    refine along_lift fun stored hstored => ?_
    by_cases htaken : siblings.any (·.value == stored) = true
    · rw [if_pos htaken]
      exact along_throw_bind _
    · rw [if_neg htaken]
      refine adds_insertChild (fun row hrow hvalue => hchild row hrow ?_) parent siblings
      exact hvalue ▸ Name.plain_of_validate hstored
  | none => exact (adds_ensureWord _).bind fun _ t => adds_insertChild (hpreset _) parent siblings

end Structure
end Inventory.Store
