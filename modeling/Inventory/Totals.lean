import Inventory.Record

/-! Subtree totals of a whole forest in one pass. Records are sorted by key, so that a node comes
after all its ancestors; a stack holds the current node above its open ancestors, and a node that
the sweep has left is closed and its assets are merged into the node below it on the stack. -/
namespace Inventory
set_option autoImplicit false

/-- A direct attachment, by the key of the node. -/
abbrev KeyedAsset := Key × AssetId

/-- The assets of a node, or the total of its subtree so far. -/
structure Tally where
  key : Key
  assets : List AssetId

/-- The closed subtree totals, ascending by key, and what was left out. -/
structure Totals where
  tallies : List Tally
  /-- Attachments to keys that are not among the nodes. -/
  skipped : Nat
  /-- Whether the assets of the nodes were asked for, beside their numbers. -/
  keepsAssets : Bool

namespace Totals

/-- The assets of a list that are not in the other one come after it. -/
def union (a b : List AssetId) : List AssetId := a ++ b.filter (!a.contains ·)

/-- Closes nodes from the top of the stack while `left` holds of their keys. A closed node's total
is carried to the node below it. -/
def closeWhile (left : Key → Bool) (carried : List AssetId) :
    List Tally → List Tally → List Tally × List Tally
  | [], closed => ([], closed)
  | top :: stack, closed =>
    let total := union top.assets carried
    if left top.key then closeWhile left total stack (⟨top.key, total⟩ :: closed)
    else (⟨top.key, total⟩ :: stack, closed)

/-- One step of the sweep: the stack and the closed nodes after the next record. -/
def sweepStep (state : List Tally × List Tally) (record : Tally) : List Tally × List Tally :=
  let (stack, closed) := closeWhile (!record.key.isStrictDescendant ·) [] state.1 state.2
  (record :: stack, closed)

/-- The subtree totals of records in ascending key order, the last one closed first. -/
def sweep (records : List Tally) : List Tally :=
  let (stack, closed) := records.foldl sweepStep ([], [])
  (closeWhile (fun _ => true) [] stack closed).2

/-- The direct assets of a node, each once. -/
def directTally (pairs : List KeyedAsset) (key : Key) : Tally :=
  ⟨key, ((pairs.filter (·.1 == key)).map (·.2)).eraseDups⟩

end Totals

/-- The subtree totals of the nodes with the given keys and direct attachments; attachments to
other keys are counted and left out. -/
def aggregate (keys : List Key) (pairs : List KeyedAsset) (keepAssets : Bool) : Totals :=
  let nodes := Key.ascending keys
  { tallies := (Totals.sweep (nodes.map (Totals.directTally pairs))).mergeSort
      (fun a b => decide (a.key ≤ b.key))
    skipped := (pairs.filter (!nodes.contains ·.1)).length
    keepsAssets := keepAssets }

namespace Totals

def find? (totals : Totals) (key : Key) : Option Tally := totals.tallies.find? (·.key == key)

/-- The number of distinct assets in the subtree of a node, if it was among the nodes. -/
def count? (totals : Totals) (key : Key) : Option Nat :=
  (totals.find? key).map (·.assets.length)

/-- The distinct assets in the subtree of a node, ascending, if they were asked for. -/
def assets? (totals : Totals) (key : Key) : Option (List AssetId) :=
  if totals.keepsAssets then
    (totals.find? key).map (·.assets.mergeSort (fun a b => decide (a ≤ b)))
  else none

/-- The number of assets of every node, ascending by key. -/
def counts (totals : Totals) : List (Key × Nat) :=
  totals.tallies.map fun tally => (tally.key, tally.assets.length)

end Totals
end Inventory
