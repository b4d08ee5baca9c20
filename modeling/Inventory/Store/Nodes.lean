import Inventory.Store.Basic
import Inventory.Key.Range

/-! Node rows: looking them up by id, key, parent and subtree, and changing them. A question fails
when a row that it has to read holds an unreadable key, and the first such row in reading order is
the one reported. -/
namespace Inventory.Store
set_option autoImplicit false

/-! ## Reading rows -/

/-- Nodes in key order; rows with equal keys stay in the order they were read. -/
def sortNodes (nodes : List Node) : List Node := nodes.mergeSort (fun a b => decide (a.key ≤ b.key))

def rowsOf (s : Store) (hierarchy : HierarchyId) : List NodeRow :=
  s.nodes.filter (·.hierarchy == hierarchy)

/-- The rows of the subtree of a key. -/
def subtreeRows (s : Store) (hierarchy : HierarchyId) (key : Key) : List NodeRow :=
  (s.rowsOf hierarchy).filter (key.subtreeContains ·.key)

def rootKeys (s : Store) : Except Error (List Key) :=
  (s.nodes.filter (·.parentKey == "")).mapM (NodeRow.readKey 0)

def node? (s : Store) (id : NodeId) : Except Error (Option Node) :=
  match s.nodes.find? (·.id == id) with
  | some row => some <$> row.read
  | none => .ok none

def requireNode (s : Store) (id : NodeId) : Except Error Node := do
  match ← s.node? id with
  | some node => return node
  | none => throw (.notFound .node)

def nodeByKey? (s : Store) (hierarchy : HierarchyId) (key : Key) : Except Error (Option Node) :=
  match (s.rowsOf hierarchy).find? (·.key == key.text) with
  | some row => some <$> row.read
  | none => .ok none

/-- The node of a hierarchy that has no parent, if there is exactly one. -/
def rootNode? (s : Store) (hierarchy : HierarchyId) : Except Error (Option Node) := do
  match ← ((s.rowsOf hierarchy).filter (·.parentKey == "")).mapM NodeRow.read with
  | [] => return none
  | [root] => return some root
  | roots => throw (.manyRoots hierarchy roots.length)

def requireRoot (s : Store) (hierarchy : HierarchyId) : Except Error Node := do
  match ← s.rootNode? hierarchy with
  | some root => return root
  | none => throw (.notFound .rootNode)

/-- The rows that name a node as their parent. -/
def childRows (s : Store) (hierarchy : HierarchyId) (parent : Key) : List NodeRow :=
  (s.rowsOf hierarchy).filter (·.parentKey == parent.text)

def children (s : Store) (hierarchy : HierarchyId) (parent : Key) : Except Error (List Node) :=
  sortNodes <$> (s.childRows hierarchy parent).mapM NodeRow.read

def hasChildren (s : Store) (hierarchy : HierarchyId) (parent : Key) : Bool :=
  !(s.childRows hierarchy parent).isEmpty

/-- The nodes with the given ids, ascending by id, each once. -/
def nodesByIds (s : Store) (ids : List NodeId) : Except Error (List Node) :=
  (s.nodes.filter (ids.contains ·.id)).mapM NodeRow.read

/-- Every node of a hierarchy in key order; the rows are read parent by parent. -/
def nodesOf (s : Store) (hierarchy : HierarchyId) : Except Error (List Node) :=
  sortNodes <$>
    ((s.rowsOf hierarchy).mergeSort (fun a b => decide (a.parentKey ≤ b.parentKey))).mapM NodeRow.read

/-- A node and its descendants in key order; the rows are read in the order of their texts. -/
def subtreeNodes (s : Store) (hierarchy : HierarchyId) (key : Key) : Except Error (List Node) :=
  sortNodes <$>
    ((s.subtreeRows hierarchy key).mergeSort (fun a b => decide (a.key ≤ b.key))).mapM NodeRow.read

/-! ## Changing rows -/

def insertNode (hierarchy : HierarchyId) (key : Key) (value fullValue : String) :
    Transaction NodeId := do
  let s ← get
  if (s.rowsOf hierarchy).any (·.key == key.text) then throw (.keyCollision hierarchy key)
  if (s.hierarchy? hierarchy).isNone then throw .danglingReference
  let id := nextId (s.nodes.map (·.id))
  set ({ s with nodes := s.nodes ++ [⟨id, hierarchy, key.text, key.parentText, value, fullValue, 0⟩] } : Store)
  return id

def deleteNode (s : Store) (id : NodeId) : Store :=
  { s with nodes := s.nodes.filter (·.id != id) }

/-- The row is one of those with the given keys. -/
def named (hierarchy : HierarchyId) (keys : List Key) (row : NodeRow) : Bool :=
  row.hierarchy == hierarchy && keys.any (·.text == row.key)

/-- Every cached amount can be stored: it fits into 64 bits with a sign. -/
def Storable (s : Store) : Prop :=
  ∀ row ∈ s.nodes, Text.minSigned ≤ row.amount ∧ row.amount ≤ Text.maxSigned

instance : DecidablePred Storable := fun s =>
  inferInstanceAs (Decidable (∀ row ∈ s.nodes, Text.minSigned ≤ row.amount ∧
    row.amount ≤ Text.maxSigned))

/-- Adds to the cached amounts of the nodes with the given keys, and counts the rows changed. The
sums are taken to be storable; a database turns others into approximate numbers, which cannot be
read as amounts any more. -/
def addAmount (s : Store) (hierarchy : HierarchyId) (keys : List Key) (delta : Int) : Nat × Store :=
  if delta = 0 then (0, s)
  else
    (s.nodes.countP (named hierarchy keys),
      { s with nodes := s.nodes.map fun row =>
          if named hierarchy keys row then { row with amount := row.amount + delta } else row })

def setAmount (s : Store) (id : NodeId) (amount : Int) : Store :=
  { s with nodes := s.nodes.map fun row => if row.id == id then { row with amount } else row }

end Inventory.Store
