import Inventory.Record
import Inventory.Text.Quoted

/-! Why an operation fails, the text that says so, and whether trying again can help. -/
namespace Inventory
set_option autoImplicit false

/-- What a request named that does not exist. -/
inductive Missing where
  | hierarchy | rootNode | node | asset
  deriving DecidableEq

inductive Error where
  /-- A stored key cannot be read; it stands in the given column of the rows asked for. -/
  | unreadableKey (column : Nat) (text : String)
  /-- A new row names a row that does not exist. -/
  | danglingReference
  /-- The attachments of a batch changed while it was being moved. -/
  | conflict (expected actual : Nat)
  | keyCollision (hierarchy : HierarchyId) (key : Key)
  | lockTimeout (hierarchy : HierarchyId)
  /-- The lease is taken and nothing bounds the wait for it. -/
  | waitsForever (hierarchy : HierarchyId)
  | invalidKey (text : String)
  | duplicateSibling (parent : Key) (value : String)
  | nodeNotEmpty (key : Key)
  | blankName
  | slashInName (name : String)
  | foreignAssets (strays total : Nat) (hierarchy : HierarchyId)
  | foreignNode (node : NodeId) (owner hierarchy : HierarchyId)
  | rootDeletion (key : Key)
  | notFound (what : Missing)
  /-- A new key or preset name would need a number of more than 64 bits; the program stops there. -/
  | overflow
  | manyRoots (hierarchy : HierarchyId) (roots : Nat)
  | noRoot (hierarchy : HierarchyId) (orphans : Nat)
  deriving DecidableEq

/-- The sorts of failure that callers tell apart. -/
inductive ErrorKind where
  | store | conflict | keyCollision | lockTimeout | deadlock | invalidKey | duplicateSibling
  | nodeNotEmpty | invalid | notFound | corruption
  deriving DecidableEq

namespace Missing

def text : Missing → String
  | hierarchy => "hierarchy"
  | rootNode => "root node"
  | node => "node"
  | asset => "asset"

end Missing

namespace Error

def kind : Error → ErrorKind
  | unreadableKey .. | danglingReference => .store
  | conflict .. => .conflict
  | keyCollision .. => .keyCollision
  | lockTimeout _ => .lockTimeout
  | waitsForever _ => .deadlock
  | invalidKey _ => .invalidKey
  | duplicateSibling .. => .duplicateSibling
  | nodeNotEmpty _ => .nodeNotEmpty
  | blankName | slashInName _ | foreignAssets .. | foreignNode .. | rootDeletion _ | overflow =>
    .invalid
  | notFound _ => .notFound
  | manyRoots .. | noRoot .. => .corruption

/-- The same operation may succeed when it is simply tried again. -/
def isRetryable (e : Error) : Bool := e.kind == .conflict || e.kind == .lockTimeout

def message : Error → String
  | unreadableKey column text =>
    s!"store: Conversion error from type Text at index: {column}, invalid node key: {Text.quoted text}"
  | danglingReference => "store: FOREIGN KEY constraint failed"
  | conflict expected actual =>
    s!"concurrency conflict: expected {expected} membership rows, deleted {actual}"
  | keyCollision hierarchy key => s!"key collision in hierarchy {hierarchy}: {key.text}"
  | lockTimeout hierarchy => s!"tree lock for hierarchy {hierarchy} not acquired within timeout"
  | waitsForever hierarchy => s!"tree lock for hierarchy {hierarchy} is never released"
  | invalidKey text => s!"invalid node key: {Text.quoted text}"
  | duplicateSibling parent value =>
    s!"a sibling named {Text.quoted value} already exists under {parent.text}"
  | nodeNotEmpty key => s!"node {key.text} still has children or assets"
  | blankName => "invalid argument: name must not be blank"
  | slashInName name => s!"invalid argument: name {Text.quoted name} contains '/'"
  | foreignAssets strays total hierarchy =>
    s!"invalid argument: {strays} of {total} assets do not exist in hierarchy {hierarchy}"
  | foreignNode node owner hierarchy =>
    s!"invalid argument: node {node} belongs to hierarchy {owner}, not {hierarchy}"
  | rootDeletion key => s!"invalid argument: node {key.text} is a hierarchy root"
  | notFound what => s!"{what.text} not found"
  | overflow => "attempt to add with overflow"
  | manyRoots hierarchy roots => s!"corruption: hierarchy {hierarchy} has {roots} root nodes"
  | noRoot hierarchy orphans =>
    s!"corruption: hierarchy {hierarchy} has no root for {orphans} orphan assets"

end Error

/-- Reads the text of a key that a caller gives. -/
def Key.parse (text : String) : Except Error Key :=
  match Key.ofText? text with
  | some key => .ok key
  | none => .error (.invalidKey text)

end Inventory
