import Inventory.Tree.Attaching

/-! Moving a batch of assets to one node from wherever they are. The attachments that are seen when
the call starts must be the same once the lease is granted, and must all still be there when they
are deleted; either mismatch is a conflict, and nothing is written. Deletions and the new
attachments commit together. -/
namespace Inventory
set_option autoImplicit false

structure Reassignment where
  target : NodeId
  moved : List AssetId := []
  rowsRemoved : Nat := 0
  rowsAdded : Nat := 0
  nodesUpdated : Nat := 0
  deferred : Bool := false
  deriving DecidableEq

namespace Store

/-- Adjusts amounts for assets that have lost nodes. -/
def adjustForLosses (hierarchy : HierarchyId) (keys : List (NodeId × Key)) :
    List Change → Transaction Nat
  | [] => return 0
  | change :: rest => do
    let lost := change.nodes.filterMap (List.lookup · keys)
    let updated ← adjust (Counts.adjustForAsset · .remove hierarchy change.asset lost)
    return updated + (← adjustForLosses hierarchy keys rest)

/-- Deletes the given attachments, which must all be there, and attaches the assets to the
target. -/
def move (hierarchy : HierarchyId) (target : NodeId) (assets : List AssetId)
    (rows : List Attachment) (propagate : Bool) : Transaction (Edited AssetId) := do
  let s ← get
  let target ← s.requireNode target
  let deleted := rows.countP fun row => s.isAttached row.1 row.2
  if deleted ≠ rows.length then throw (.conflict rows.length deleted)
  let s := rows.foldl (fun s row => s.detach row.1 row.2) s
  set s
  let updated ←
    if propagate then do
      let nodes ← s.nodesByIds (rows.map (·.2))
      adjustForLosses hierarchy (nodes.map fun node => (node.id, node.key)) (Change.group rows)
    else pure 0
  let added ← addToNode target assets propagate
  markUnless propagate hierarchy
  return { added with nodesUpdated := updated + added.nodesUpdated }

end Store

namespace Tree

variable {σ : Type}

/-- The part of a move that holds the lease; `observed` is what was seen before. -/
def moveObserved (hierarchy : HierarchyId) (target : NodeId) (assets : List AssetId)
    (observed : List Attachment) : Action σ Reassignment := do
  let snapshot ← Action.read fun s => return s.attachmentsOf assets
  if snapshot ≠ observed then Action.lift (.error (.conflict observed.length snapshot.length))
  let removed := Change.group snapshot
  Action.announce .beforeRemove hierarchy removed
  let propagate ← Action.propagates (snapshot.length + assets.length)
  let added ← Action.write (Store.move hierarchy target assets snapshot propagate)
  Action.announce .afterRemove hierarchy removed
  Action.announce .afterAdd hierarchy (Change.perAsset added.changed target)
  Action.deferUnless propagate hierarchy
  return {
    target
    moved := assets
    rowsRemoved := snapshot.length
    rowsAdded := added.changed.length
    nodesUpdated := added.nodesUpdated
    deferred := !propagate }

/-- Replaces every attachment of the assets by one to the target. -/
def reassign (assets : List AssetId) (target : NodeId) : Action σ Reassignment := do
  let assets := assets.eraseDups
  let hierarchy ← hierarchyOf target
  if assets.isEmpty then return { target }
  let observed ← Action.read fun s => do
    s.ensureAssetsIn hierarchy assets
    return s.attachmentsOf assets
  Action.holding hierarchy (moveObserved hierarchy target assets observed)

end Tree
end Inventory
