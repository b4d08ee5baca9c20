import Inventory.Key.Basic

/-! Free keys. A new child or root takes the number after the largest one in use, or one where
none is in use, so that its key is larger than that of every sibling. -/
namespace Inventory.Key
set_option autoImplicit false

/-- The number after the largest of the given ones. -/
def nextNumber (used : List Nat) : Nat := (used.max?.map (· + 1)).getD 1

/-- The key is a child of the other one. -/
def isChildOf (key parent : Key) : Bool :=
  key.depth == parent.depth + 1 && key.isDescendantOrSelf parent

/-- A key for a new child of `parent`; only its direct children in the list matter. -/
def nextChild (parent : Key) (existing : List Key) : Key :=
  parent.child (nextNumber ((existing.filter (·.isChildOf parent)).map lastSegment))

/-- A key for a new root; only the roots in the list matter. -/
def nextRoot (existing : List Key) : Key :=
  ofRoot (nextNumber ((existing.filter isRoot).map lastSegment))

theorem lt_nextNumber {used : List Nat} {n : Nat} (h : n ∈ used) : n < nextNumber used := by
  unfold nextNumber
  cases hm : used.max? with
  | none => simp_all [List.max?_eq_none_iff]
  | some m =>
    have := (List.max?_eq_some_iff.1 hm).2 n h
    simp only [Option.map_some, Option.getD_some]
    omega

end Inventory.Key
