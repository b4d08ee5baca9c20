/-! The commands of the command line: their names, what follows a name, and what is said about
them. -/
namespace Inventory.CommandLine
set_option autoImplicit false

inductive Format where
  | text | json
  deriving DecidableEq

/-- What an operand has to be. -/
inductive OperandKind where
  | text | number
  deriving DecidableEq

/-- A word that follows the name of a command. -/
structure Operand where
  label : String
  kind : OperandKind
  help : String
  /-- One or more of them, at the end. -/
  repeated : Bool := false

/-- An option that only one command knows. -/
inductive OwnOption where
  | node | check
  deriving DecidableEq

structure Usage where
  name : String
  about : String
  operands : List Operand
  own : Option OwnOption := none

/-- The commands in the order in which they are listed. -/
def usages : List Usage := [
  { name := "init", about := "Create a hierarchy and its root node"
    operands := [⟨"NAME", .text, "Hierarchy name, also the root node's value", false⟩] },
  { name := "mkdir", about := "Ensure every node along a `/a/b/c` path exists"
    operands := [⟨"HIERARCHY", .number, "Hierarchy id", false⟩,
      ⟨"PATH", .text, "Slash-separated node values below the root", false⟩] },
  { name := "asset", about := "Create an asset"
    operands := [⟨"HIERARCHY", .number, "Hierarchy id", false⟩, ⟨"NAME", .text, "Asset name", false⟩]
    own := some .node },
  { name := "attach", about := "Attach assets to a node"
    operands := [⟨"NODE", .number, "Node id", false⟩, ⟨"ASSETS", .number, "Asset ids", true⟩] },
  { name := "detach", about := "Detach assets from a node"
    operands := [⟨"NODE", .number, "Node id", false⟩, ⟨"ASSETS", .number, "Asset ids", true⟩] },
  { name := "reassign", about := "Move assets from all of their nodes to one node"
    operands := [⟨"TARGET", .number, "Target node id", false⟩,
      ⟨"ASSETS", .number, "Asset ids", true⟩] },
  { name := "count", about := "Show a node's cached and recomputed subtree asset count"
    operands := [⟨"NODE", .number, "Node id", false⟩] },
  { name := "reconcile", about := "Recompute and repair every count of a hierarchy"
    operands := [⟨"HIERARCHY", .number, "Hierarchy id", false⟩]
    own := some .check },
  { name := "tree", about := "Print a hierarchy's nodes with their cached counts"
    operands := [⟨"HIERARCHY", .number, "Hierarchy id", false⟩] }]

end Inventory.CommandLine
