import Inventory.Key.Collapse
import Inventory.Tree.Attaching

/-! Questions about a tree: rows by id and key, and the assets of subtrees computed from the
attachments without the cached amounts. -/
namespace Inventory
set_option autoImplicit false

namespace Store

def totalsBelow (s : Store) (id : NodeId) (keepAssets : Bool) : Except Error (Key × Totals) := do
  let node ← s.requireNode id
  let nodes ← s.subtreeNodes node.hierarchy node.key
  let pairs ← s.keyedAssets (s.subtreeRows node.hierarchy node.key)
  return (node.key, aggregate (nodes.map (·.key)) pairs keepAssets)

def subtreeCount (s : Store) (id : NodeId) : Except Error Nat := do
  let (key, totals) ← s.totalsBelow id false
  return (totals.count? key).getD 0

/-- The distinct assets in a node's subtree, ascending. -/
def assetIdsOf (s : Store) (id : NodeId) : Except Error (List AssetId) := do
  let (key, totals) ← s.totalsBelow id true
  return (totals.assets? key).getD []

/-- The distinct assets in the subtrees of several nodes of one hierarchy, ascending; nested
selections are searched once. -/
def assetsUnder (s : Store) (ids : List NodeId) : Except Error (List AssetId) := do
  match ids.eraseDups with
  | [] => return []
  | first :: rest =>
    let hierarchy := (← s.requireNode first).hierarchy
    let nodes ← s.loadNodesIn hierarchy (first :: rest)
    let pairs ← (Key.topmost (nodes.map (·.key))).mapM fun key =>
      s.keyedAssets (s.subtreeRows hierarchy key)
    return sortIds (pairs.flatten.map (·.2)).eraseDups

def computedCounts (s : Store) (hierarchy : HierarchyId) : Except Error (List (Key × Nat)) := do
  let nodes ← s.nodesOf hierarchy
  let pairs ← s.keyedAssets (s.rowsOf hierarchy)
  return (aggregate (nodes.map (·.key)) pairs false).counts

end Store

namespace Tree

variable {σ : Type}

def childrenOf (id : NodeId) : Action σ (List Node) := Action.read fun s => do
  let node ← s.requireNode id
  s.children node.hierarchy node.key

end Tree
end Inventory
