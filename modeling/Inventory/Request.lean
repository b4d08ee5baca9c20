import Inventory.Tree.Questions
import Inventory.Tree.Reassigning
import Inventory.Tree.Reconciling

/-! The requests that a tree answers, as data. A history of a tree is a list of them. -/
namespace Inventory
set_option autoImplicit false

inductive Request where
  | createHierarchy (name : String)
  | hierarchy (id : HierarchyId)
  | hierarchies
  | root (hierarchy : HierarchyId)
  | node (id : NodeId)
  | nodeByKey (key : Key) (hierarchy : HierarchyId)
  | children (node : NodeId)
  | nodes (hierarchy : HierarchyId)
  | createChild (parent : NodeId) (value : Option String)
  | getOrCreateChild (parent : NodeId) (value : String)
  | createPath (hierarchy : HierarchyId) (path : String)
  | deleteNode (id : NodeId)
  | createAsset (hierarchy : HierarchyId) (name : String) (nodes : List NodeId)
  | asset (id : AssetId)
  | assetNodes (id : AssetId)
  | directAssets (node : NodeId)
  | deleteAsset (id : AssetId)
  | attach (node : NodeId) (assets : List AssetId)
  | detach (node : NodeId) (assets : List AssetId)
  | attachToNodes (asset : AssetId) (nodes : List NodeId)
  | detachFromNodes (asset : AssetId) (nodes : List NodeId)
  | reassign (assets : List AssetId) (target : NodeId)
  | subtreeCount (node : NodeId)
  | nodeAssetIds (node : NodeId)
  | assetsUnder (nodes : List NodeId)
  | computedCounts (hierarchy : HierarchyId)
  | reconcile (hierarchy : HierarchyId)
  | check (hierarchy : HierarchyId)
  | schedule (hierarchy : HierarchyId)
  | flush
  | pending
  | queue
  | options
  | locked
  | overview
  deriving DecidableEq

/-- A hierarchy with its nodes in key order, each with its direct assets. -/
structure HierarchyOverview where
  hierarchy : Hierarchy
  nodes : List (Node × List AssetId)
  deriving DecidableEq

/-- All that a tree shows of itself. -/
structure Overview where
  hierarchies : List HierarchyOverview
  /-- Marked hierarchies. -/
  pending : List HierarchyId
  /-- Hierarchies that wait in the queue. -/
  queued : List HierarchyId
  /-- Hierarchies whose lease is held. -/
  locked : List HierarchyId
  deriving DecidableEq

inductive Answer where
  | done
  | newHierarchy (hierarchy : Hierarchy) (root : Node)
  | hierarchy (found : Option Hierarchy)
  | hierarchies (all : List Hierarchy)
  | node (node : Node)
  | nodeFound (found : Option Node)
  | nodes (nodes : List Node)
  | child (node : Node) (created : Bool)
  | asset (asset : Asset)
  | assetFound (found : Option Asset)
  | ids (ids : List Int)
  | outcome (outcome : Outcome)
  | reassignment (moved : Reassignment)
  | count (n : Nat)
  | counts (counts : List (Key × Nat))
  | report (report : Report)
  | flag (value : Bool)
  | queue (waiting : List HierarchyId) (stats : QueueStats)
  | options (options : Options)
  | overview (overview : Overview)
  deriving DecidableEq

namespace Tree

def overviewOf (tree : Tree) (hierarchy : Hierarchy) : Except Error HierarchyOverview := do
  let nodes ← tree.store.nodesOf hierarchy.id
  return ⟨hierarchy, nodes.map fun node => (node, tree.store.directAssets node.id)⟩

def overview (tree : Tree) : Except Error Overview := do
  return {
    hierarchies := ← tree.store.hierarchies.mapM tree.overviewOf
    pending := tree.store.pending
    queued := tree.queue.pending
    locked := tree.leases.held }

end Tree

namespace Request

variable {σ : Type}

def run : Request → Action σ Answer
  | createHierarchy name => do
    let (made, top) ← Tree.createHierarchy name
    return .newHierarchy made top
  | hierarchy id => Action.view fun tree => .hierarchy (tree.store.hierarchy? id)
  | hierarchies => Action.view fun tree => .hierarchies tree.store.hierarchies
  | root id => .node <$> Action.read (·.requireRoot id)
  | node id => .nodeFound <$> Action.read (·.node? id)
  | nodeByKey key id => .nodeFound <$> Action.read (·.nodeByKey? id key)
  | children id => .nodes <$> Tree.childrenOf id
  | nodes id => .nodes <$> Action.read (·.nodesOf id)
  | createChild parent value => .node <$> Tree.createChild parent value
  | getOrCreateChild parent value => do
    let (child, created) ← Tree.getOrCreateChild parent value
    return .child child created
  | createPath id path => .node <$> Tree.createPath id path
  | deleteNode id => (fun _ => .done) <$> Tree.deleteNode id
  | createAsset id name targets => .asset <$> Tree.createAsset id name targets
  | asset id => Action.view fun tree => .assetFound (tree.store.asset? id)
  | assetNodes id => Action.view fun tree => .ids (tree.store.nodesOfAsset id)
  | directAssets id => Action.view fun tree => .ids (tree.store.directAssets id)
  | deleteAsset id => (fun _ => .done) <$> Tree.deleteAsset id
  | attach id assets => .outcome <$> Tree.attach id assets
  | detach id assets => .outcome <$> Tree.detach id assets
  | attachToNodes id targets => .outcome <$> Tree.attachToNodes id targets
  | detachFromNodes id targets => .outcome <$> Tree.detachFromNodes id targets
  | reassign assets target => .reassignment <$> Tree.reassign assets target
  | subtreeCount id => .count <$> Action.read (·.subtreeCount id)
  | nodeAssetIds id => .ids <$> Action.read (·.assetIdsOf id)
  | assetsUnder ids => .ids <$> Action.read (·.assetsUnder ids)
  | computedCounts id => .counts <$> Action.read (·.computedCounts id)
  | reconcile id => .report <$> Tree.reconcile id .repair
  | check id => .report <$> Tree.reconcile id .checkOnly
  | schedule id => .flag <$> Action.schedule id
  | flush => (fun _ => .done) <$> Tree.flush
  | pending => Action.view fun tree => .ids tree.store.pending
  | queue => Action.view fun tree => .queue tree.queue.pending tree.queue.stats
  | options => Action.view fun tree => .options tree.options
  | locked => Action.view fun tree => .ids tree.leases.held
  | overview => fun _ w => (.overview <$> w.tree.overview, w)

end Request
end Inventory
