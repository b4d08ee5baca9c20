import Inventory.Key.Allocation
import Inventory.Name
import Inventory.Store.Attachments
import Inventory.Tree.Basic

/-! Hierarchies and nodes: creating them by name, by preset name and by path, and deleting nodes. A
change of a hierarchy's nodes holds its lease. -/
namespace Inventory
set_option autoImplicit false

namespace Store

/-- The numbers in keys and preset names have 64 bits. An operation that runs out of them stops in the
middle of its transaction, so that nothing is stored; the error stands for that stop and is never
an answer. A build that does not check sums would go on from zero instead, so numbers are taken to
stay below the largest of 64 bits there. -/
def ensureWord (n : Nat) : Transaction Unit :=
  if n ≤ Text.maxWord then pure () else throw .overflow

/-- Adds a child with a free key. -/
def insertChild (parent : Node) (siblings : List Node) (value : String) : Transaction Node := do
  let key := Key.nextChild parent.key (siblings.map (·.key))
  ensureWord key.lastSegment
  let fullValue := parent.fullValue ++ "/" ++ value
  let id ← insertNode parent.hierarchy key value fullValue
  return ⟨id, parent.hierarchy, key, value, fullValue, 0⟩

/-- The child with a value, and whether it had to be created. -/
def getOrInsertChild (parent : Node) (value : String) : Transaction (Node × Bool) := do
  let siblings ← (← get).children parent.hierarchy parent.key
  match siblings.find? (·.value == value) with
  | some found => return (found, false)
  | none => return (← insertChild parent siblings (← Name.validate value), true)

/-- Goes down from a node along values, creating the children that are missing. -/
def descend : Node → List String → Transaction Node
  | node, [] => return node
  | node, value :: rest => do
    let (child, _) ← getOrInsertChild node value
    descend child rest

/-- A new hierarchy with its root node; its root key is free among all hierarchies. -/
def createHierarchy (name : String) : Transaction (Hierarchy × Node) := do
  let hierarchy ← insertHierarchy name
  let key := Key.nextRoot (← (← get).rootKeys)
  ensureWord key.lastSegment
  let fullValue := "/" ++ name
  let id ← insertNode hierarchy key name fullValue
  return (⟨hierarchy, name⟩, ⟨id, hierarchy, key, name, fullValue, 0⟩)

/-- A new child with a given value, or with a preset one. -/
def createChild (hierarchy : HierarchyId) (parent : NodeId) (value : Option String)
    (preset : String) : Transaction Node := do
  let parent ← (← get).requireNode parent
  let siblings ← (← get).children hierarchy parent.key
  match value with
  | some value =>
    let value ← Name.validate value
    if siblings.any (·.value == value) then throw (.duplicateSibling parent.key value)
    insertChild parent siblings value
  | none =>
    ensureWord (Name.presetNumber preset (siblings.map (·.value)))
    insertChild parent siblings (Name.preset preset (siblings.map (·.value)))

/-- The node at the end of a path below the root, whose name may lead the path. -/
def createPath (hierarchy : HierarchyId) (path : String) : Transaction Node := do
  let root ← (← get).requireRoot hierarchy
  let names := Name.parts path
  descend root (if names.head? = some root.value then names.tail else names)

/-- Removes a node without children and direct assets that is no root. -/
def removeNode (hierarchy : HierarchyId) (id : NodeId) : Transaction Unit := do
  let s ← get
  let node ← s.requireNode id
  if node.key.isRoot then throw (.rootDeletion node.key)
  if s.hasChildren hierarchy node.key || !(s.directAssets node.id).isEmpty then
    throw (.nodeNotEmpty node.key)
  set (s.deleteNode node.id)

end Store

namespace Tree

variable {σ : Type}

def hierarchyOf (node : NodeId) : Action σ HierarchyId :=
  (·.hierarchy) <$> Action.read (·.requireNode node)

def createHierarchy (name : String) : Action σ (Hierarchy × Node) := do
  let name ← Action.lift (Name.validate name)
  Action.write (Store.createHierarchy name)

def createChild (parent : NodeId) (value : Option String) : Action σ Node := do
  let hierarchy ← hierarchyOf parent
  let preset ← Action.view (·.options.newNodeName)
  Action.holding hierarchy (Action.write (Store.createChild hierarchy parent value preset))

def getOrCreateChild (parent : NodeId) (value : String) : Action σ (Node × Bool) := do
  let value ← Action.lift (Name.validate value)
  let hierarchy ← hierarchyOf parent
  Action.holding hierarchy <| Action.write do
    Store.getOrInsertChild (← (← get).requireNode parent) value

def createPath (hierarchy : HierarchyId) (path : String) : Action σ Node :=
  Action.holding hierarchy (Action.write (Store.createPath hierarchy path))

def deleteNode (id : NodeId) : Action σ Unit := do
  let hierarchy ← hierarchyOf id
  Action.holding hierarchy (Action.write (Store.removeNode hierarchy id))

end Tree
end Inventory
