import Inventory.Attaching
import Inventory.Tree.Structure

/-! Creating and deleting assets, and attaching them to nodes. These operations hold no lease. A
batch over the limit leaves the amounts for a reconciliation and marks the hierarchy in the same
transaction. Observers hear of rows that are about to be removed between the reads of an operation
and its transaction, and of rows that changed after it. -/
namespace Inventory
set_option autoImplicit false

/-- What an edit of attachments did. -/
structure Outcome where
  /-- The rows that were really added or removed. -/
  changes : List Change := []
  /-- Assets that lost their last node and were attached to the root. -/
  rehomed : List Change := []
  nodesUpdated : Nat := 0
  /-- The amounts were left for a reconciliation. -/
  deferred : Bool := false
  deriving DecidableEq

/-- The number of rows that were added or removed, apart from those to the root. -/
def Outcome.rowsChanged (outcome : Outcome) : Nat :=
  (Change.rows outcome.changes).length

namespace Store

def loadNodesIn (s : Store) (hierarchy : HierarchyId) (ids : List NodeId) :
    Except Error (List Node) := do
  let nodes ← s.nodesByIds ids
  if nodes.length ≠ ids.length then throw (.notFound .node)
  match nodes.find? (·.hierarchy != hierarchy) with
  | some stray => throw (.foreignNode stray.id stray.hierarchy hierarchy)
  | none => return nodes

def markUnless (propagated : Bool) (hierarchy : HierarchyId) : Transaction Unit :=
  if propagated then pure () else mark hierarchy

/-- A new asset on the given nodes, or on the root if none are given. -/
def createAsset (hierarchy : HierarchyId) (name : String) (nodes : List NodeId)
    (propagate : Bool) : Transaction (Asset × List NodeId) := do
  let s ← get
  discard (s.requireHierarchy hierarchy)
  let targets ←
    if nodes.isEmpty then List.singleton <$> s.requireRoot hierarchy
    else s.loadNodesIn hierarchy nodes
  let id ← insertAsset hierarchy name
  let added ← addToNodes hierarchy id targets propagate
  markUnless propagate hierarchy
  return (⟨id, hierarchy, name⟩, added.changed.map (·.id))

/-- Removes an asset with its attachments. Gives the nodes that lost it and whether amounts were
adjusted. -/
def removeAsset (hierarchy : HierarchyId) (id : AssetId) (propagates : Nat → Bool) :
    Transaction (List NodeId × Bool) := do
  let s ← get
  let nodes ← s.nodesByIds (s.nodesOfAsset id)
  let propagate := propagates nodes.length
  let removed ← removeFromNodes hierarchy id nodes propagate
  modify (·.deleteAsset id)
  markUnless propagate hierarchy
  return (removed.changed.map (·.id), propagate)

def attachAll (node : NodeId) (assets : List AssetId) (propagate : Bool) :
    Transaction (HierarchyId × Outcome) := do
  let s ← get
  let node ← s.requireNode node
  s.ensureAssetsIn node.hierarchy assets
  let added ← addToNode node assets propagate
  markUnless propagate node.hierarchy
  return (node.hierarchy, {
    changes := Change.perAsset added.changed node.id
    nodesUpdated := added.nodesUpdated
    deferred := !propagate })

/-- Detaches assets from a node; those left without a node go to the root. -/
def detachAll (hierarchy : HierarchyId) (node : NodeId) (assets : List AssetId)
    (propagate : Bool) : Transaction Outcome := do
  let node ← (← get).requireNode node
  let removed ← removeFromNode node assets propagate
  let rehomed ← rehome hierarchy removed.changed propagate
  markUnless propagate hierarchy
  return {
    changes := Change.perAsset removed.changed node.id
    rehomed
    nodesUpdated := removed.nodesUpdated
    deferred := !propagate }

def attachToAll (asset : AssetId) (nodes : List NodeId) (propagate : Bool) :
    Transaction (HierarchyId × Outcome) := do
  let s ← get
  let found ← s.requireAsset asset
  let targets ← s.loadNodesIn found.hierarchy nodes
  let added ← addToNodes found.hierarchy asset targets propagate
  markUnless propagate found.hierarchy
  return (found.hierarchy, {
    changes := Change.perNode asset (added.changed.map (·.id))
    nodesUpdated := added.nodesUpdated
    deferred := !propagate })

/-- Detaches an asset from nodes; left without a node by that, it goes to the root. -/
def detachFromAll (hierarchy : HierarchyId) (asset : AssetId) (nodes : List NodeId)
    (propagate : Bool) : Transaction Outcome := do
  let targets ← (← get).loadNodesIn hierarchy nodes
  let removed ← removeFromNodes hierarchy asset targets propagate
  let rehomed ← if removed.changed.isEmpty then pure [] else rehome hierarchy [asset] propagate
  markUnless propagate hierarchy
  return {
    changes := Change.perNode asset (removed.changed.map (·.id))
    rehomed
    nodesUpdated := removed.nodesUpdated
    deferred := !propagate }

end Store

namespace Tree

variable {σ : Type}

def createAsset (hierarchy : HierarchyId) (name : String) (nodes : List NodeId) :
    Action σ Asset := do
  let name ← Action.lift (Name.validate name)
  let nodes := nodes.eraseDups
  let propagate ← Action.propagates nodes.length
  let (asset, attached) ← Action.write (Store.createAsset hierarchy name nodes propagate)
  Action.deferUnless propagate hierarchy
  Action.announce .afterAdd hierarchy [⟨asset.id, attached⟩]
  return asset

def deleteAsset (id : AssetId) : Action σ Unit := do
  let (asset, current) ← Action.read fun s => do
    return (← s.requireAsset id, s.nodesOfAsset id)
  Action.announce .beforeRemove asset.hierarchy [⟨id, current⟩]
  let options ← Action.view (·.options)
  let (removed, propagated) ←
    Action.write (Store.removeAsset asset.hierarchy id options.propagates)
  Action.deferUnless propagated asset.hierarchy
  Action.announce .afterRemove asset.hierarchy [⟨id, removed⟩]

def attach (node : NodeId) (assets : List AssetId) : Action σ Outcome := do
  let assets := assets.eraseDups
  if assets.isEmpty then return {}
  let propagate ← Action.propagates assets.length
  let (hierarchy, outcome) ← Action.write (Store.attachAll node assets propagate)
  Action.deferUnless propagate hierarchy
  Action.announce .afterAdd hierarchy outcome.changes
  return outcome

def detach (node : NodeId) (assets : List AssetId) : Action σ Outcome := do
  let assets := assets.eraseDups
  if assets.isEmpty then return {}
  let (hierarchy, attached) ← Action.read fun s => do
    return ((← s.requireNode node).hierarchy, assets.filter (s.isAttached · node))
  Action.announce .beforeRemove hierarchy (Change.perAsset attached node)
  let propagate ← Action.propagates assets.length
  let outcome ← Action.write (Store.detachAll hierarchy node assets propagate)
  Action.deferUnless propagate hierarchy
  Action.announce .afterRemove hierarchy outcome.changes
  Action.announce .afterAdd hierarchy outcome.rehomed
  return outcome

def attachToNodes (asset : AssetId) (nodes : List NodeId) : Action σ Outcome := do
  let nodes := nodes.eraseDups
  if nodes.isEmpty then return {}
  let propagate ← Action.propagates nodes.length
  let (hierarchy, outcome) ← Action.write (Store.attachToAll asset nodes propagate)
  Action.deferUnless propagate hierarchy
  Action.announce .afterAdd hierarchy outcome.changes
  return outcome

def detachFromNodes (asset : AssetId) (nodes : List NodeId) : Action σ Outcome := do
  let nodes := nodes.eraseDups
  if nodes.isEmpty then return {}
  let (hierarchy, current) ← Action.read fun s => do
    return ((← s.requireAsset asset).hierarchy, s.nodesOfAsset asset)
  Action.announce .beforeRemove hierarchy (Change.perNode asset (nodes.filter (current.contains ·)))
  let propagate ← Action.propagates nodes.length
  let outcome ← Action.write (Store.detachFromAll hierarchy asset nodes propagate)
  Action.deferUnless propagate hierarchy
  Action.announce .afterRemove hierarchy outcome.changes
  Action.announce .afterAdd hierarchy outcome.rehomed
  return outcome

end Tree
end Inventory
