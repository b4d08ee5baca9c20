import Inventory.Record

/-! What observers are told about attachments: which rows are about to go, have gone or have come,
grouped by asset. -/
namespace Inventory
set_option autoImplicit false

/-- One asset with the nodes that it gains or loses. -/
structure Change where
  asset : AssetId
  nodes : List NodeId
  deriving DecidableEq

inductive Phase where
  | beforeRemove | afterRemove | afterAdd
  deriving DecidableEq

/-- One call of an observer. -/
structure Notice where
  phase : Phase
  hierarchy : HierarchyId
  changes : List Change
  deriving DecidableEq

namespace Change

/-- The rows that the changes stand for. -/
def rows (changes : List Change) : List (AssetId × NodeId) :=
  changes.flatMap fun change => change.nodes.map (change.asset, ·)

/-- Adds a row to the change of its asset, or as a new change at the end. -/
def addRow (row : AssetId × NodeId) : List Change → List Change
  | [] => [⟨row.1, [row.2]⟩]
  | change :: rest =>
    if change.asset = row.1 then { change with nodes := change.nodes ++ [row.2] } :: rest
    else change :: addRow row rest

/-- Groups rows by asset, in the order in which the assets first come. -/
def group (rows : List (AssetId × NodeId)) : List Change :=
  rows.foldl (fun changes row => addRow row changes) []

/-- The same node for each of several assets. -/
def perAsset (assets : List AssetId) (node : NodeId) : List Change := assets.map (⟨·, [node]⟩)

/-- Several nodes for one asset; no nodes are no change. -/
def perNode (asset : AssetId) (nodes : List NodeId) : List Change :=
  if nodes.isEmpty then [] else [⟨asset, nodes⟩]

end Change

namespace Phase

def name : Phase → String
  | beforeRemove => "before_remove"
  | afterRemove => "after_remove"
  | afterAdd => "after_add"

def ofName? : String → Option Phase
  | "before_remove" => some .beforeRemove
  | "after_remove" => some .afterRemove
  | "after_add" => some .afterAdd
  | _ => none

end Phase
end Inventory
