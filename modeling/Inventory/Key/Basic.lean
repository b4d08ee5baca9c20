import Inventory.Text.Fields
import Inventory.Text.Numeral

/-! Keys of tree nodes. A key is the number of a root and the child numbers on the way down from
it; as text it is those numbers joined by colons. The order compares the numbers one by one, so
that a node comes before its descendants and they come before its next sibling. -/
namespace Inventory
set_option autoImplicit false

/-- The position of a node: a root and the child numbers below it. -/
structure Key where
  root : Nat
  path : List Nat
  deriving DecidableEq, Inhabited

namespace Key

/-! ## Segments and text -/

/-- The numbers of a key from the root down; there is at least one. -/
def segments (key : Key) : List Nat := key.root :: key.path

def ofRoot (root : Nat) : Key := ⟨root, []⟩

def ofSegments? : List Nat → Option Key
  | [] => none
  | root :: path => some ⟨root, path⟩

def chars (key : Key) : List Char := Text.joined ':' (key.segments.map Text.numeral)

def text (key : Key) : String := String.ofList key.chars

/-- Reads a key: runs of digits, each a number of 64 bits, between colons. -/
def ofText? (text : String) : Option Key :=
  ((Text.fields ':' text.toList).mapM Text.readWord?).bind ofSegments?

/-- Every segment fits in 64 bits, so that the text of the key can be read. -/
def Bounded (key : Key) : Prop := ∀ segment ∈ key.segments, segment ≤ Text.maxWord

/-! ## Parents and children -/

/-- Roots have depth one. -/
def depth (key : Key) : Nat := key.segments.length

def isRoot (key : Key) : Bool := key.path.isEmpty

/-- The position of a node among its siblings. -/
def lastSegment (key : Key) : Nat := key.path.getLastD key.root

def child (key : Key) (segment : Nat) : Key := ⟨key.root, key.path ++ [segment]⟩

/-- The key without its last segment; a root has none. -/
def parent? (key : Key) : Option Key :=
  if key.path.isEmpty then none else some ⟨key.root, key.path.dropLast⟩

def rootKey (key : Key) : Key := ofRoot key.root

/-- What a node stores of its parent: the text of the parent's key, empty for a root. -/
def parentText (key : Key) : String := (key.parent?.map text).getD ""

/-! ## Ancestry -/

/-- The proper prefixes of a list, shortest first. -/
def properPrefixes {α : Type} : List α → List (List α)
  | [] => []
  | a :: rest => [] :: (properPrefixes rest).map (a :: ·)

/-- The strict ancestors of a key, the root first. -/
def ancestors (key : Key) : List Key := (properPrefixes key.path).map (Key.mk key.root)

/-- The direction in which a line of ancestors is listed. -/
inductive Direction where
  /-- The nearest ancestor first. -/
  | upward
  /-- The root first. -/
  | downward
  deriving DecidableEq

/-- The line from the root to a key, with or without the key itself. -/
def lineage (key : Key) (includeSelf : Bool) (direction : Direction) : List Key :=
  let line := key.ancestors ++ if includeSelf then [key] else []
  match direction with
  | .upward => line.reverse
  | .downward => line

/-- The key is the other one or lies below it. -/
def isDescendantOrSelf (key ancestor : Key) : Bool := ancestor.segments.isPrefixOf key.segments

/-- The key lies strictly below the other one. -/
def isStrictDescendant (key ancestor : Key) : Bool :=
  decide (ancestor.depth < key.depth) && key.isDescendantOrSelf ancestor

/-! ## Order -/

instance : LT Key := ⟨fun a b => a.segments < b.segments⟩
instance : LE Key := ⟨fun a b => ¬b < a⟩
instance : DecidableLT Key := fun a b => inferInstanceAs (Decidable (a.segments < b.segments))
instance : DecidableLE Key := fun a b => inferInstanceAs (Decidable (¬b < a))
instance : Ord Key := ⟨fun a b => compareOfLessAndEq a b⟩

/-- Keys in ascending order; equal keys stay as many as they were. -/
def sort (keys : List Key) : List Key := keys.mergeSort (fun a b => decide (a ≤ b))

/-- The distinct keys of a list in ascending order. -/
def ascending (keys : List Key) : List Key := sort keys.eraseDups

end Key
end Inventory
