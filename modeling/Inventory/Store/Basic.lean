import Inventory.Error

/-! The stored tables. A store is plain data; operations on it give a new store or an error, so a
failed one leaves nothing behind. Node rows hold their keys as text, which need not be readable
when somebody else wrote them. -/
namespace Inventory
set_option autoImplicit false

/-- A stored node: its key and the key of its parent are text, that of a root's parent is empty. -/
structure NodeRow where
  id : NodeId
  hierarchy : HierarchyId
  key : String
  parentKey : String
  value : String
  fullValue : String
  amount : Int
  deriving DecidableEq

abbrev Attachment := AssetId × NodeId

/-- The tables; rows with ids stand in the order of their ids. -/
structure Store where
  hierarchies : List Hierarchy := []
  nodes : List NodeRow := []
  assets : List Asset := []
  attachments : List Attachment := []
  /-- Hierarchies whose cached amounts were left for a later reconciliation. -/
  marked : List HierarchyId := []
  deriving DecidableEq

/-- A change of the store that gives a result, or fails and changes nothing. -/
abbrev Transaction (α : Type) := StateT Store (Except Error) α

/-- The id of a new row: one after the largest in use, so that of a deleted last row comes again. -/
def nextId (used : List Int) : Int := (used.max?.map (· + 1)).getD 1

def sortIds (ids : List Int) : List Int := ids.mergeSort (fun a b => decide (a ≤ b))

namespace NodeRow

/-- The row as a node; `column` is where its key stands in the answer it is read from. -/
def readKey (column : Nat) (row : NodeRow) : Except Error Key :=
  match Key.ofText? row.key with
  | some key => .ok key
  | none => .error (.unreadableKey column row.key)

def read (row : NodeRow) : Except Error Node := do
  let key ← row.readKey 2
  return ⟨row.id, row.hierarchy, key, row.value, row.fullValue, row.amount⟩

end NodeRow

namespace Store

/-! ## Hierarchies -/

def hierarchy? (s : Store) (id : HierarchyId) : Option Hierarchy :=
  s.hierarchies.find? (·.id == id)

def requireHierarchy (s : Store) (id : HierarchyId) : Except Error Hierarchy :=
  (s.hierarchy? id).elim (.error (.notFound .hierarchy)) .ok

def insertHierarchy (name : String) : Transaction HierarchyId := do
  let s ← get
  let id := nextId (s.hierarchies.map (·.id))
  set ({ s with hierarchies := s.hierarchies ++ [⟨id, name⟩] } : Store)
  return id

/-! ## Marks -/

/-- Remembers that the cached amounts of a hierarchy may be out of date. -/
def mark (hierarchy : HierarchyId) : Transaction Unit := do
  let s ← get
  if s.marked.contains hierarchy then return ()
  if (s.hierarchy? hierarchy).isNone then throw .danglingReference
  set ({ s with marked := s.marked ++ [hierarchy] } : Store)

def unmark (s : Store) (hierarchy : HierarchyId) : Store :=
  { s with marked := s.marked.filter (· != hierarchy) }

/-- The marked hierarchies, ascending. -/
def pending (s : Store) : List HierarchyId := sortIds s.marked

end Store
end Inventory
