import Inventory.Counts.AssetBatch
import Inventory.Counts.NodeBatch
import Inventory.Notice

/-! Changing attachments and cached amounts together, within one transaction. Requests for rows
that are already there, or already gone, are passed over. Amounts are adjusted only where `propagate`
says so; otherwise they are left for a reconciliation. -/
namespace Inventory
set_option autoImplicit false

/-- What was really attached or detached, and how many node rows changed their amounts. -/
structure Edited (α : Type) where
  changed : List α
  nodesUpdated : Nat

namespace Store

/-- Applies a change of amounts and gives the number of rows it changed. -/
def adjust (change : Store → Nat × Store) : Transaction Nat := fun s => .ok (change s)

def addToNode (node : Node) (assets : List AssetId) (propagate : Bool) :
    Transaction (Edited AssetId) := do
  let s ← get
  let fresh := assets.eraseDups.filter (!s.isAttached · node.id)
  let updated ←
    if propagate then adjust (Counts.adjustForNode · .add node.hierarchy node.key fresh)
    else pure 0
  fresh.forM (attach · node.id)
  return ⟨fresh, updated⟩

def removeFromNode (node : Node) (assets : List AssetId) (propagate : Bool) :
    Transaction (Edited AssetId) := do
  let s ← get
  let gone := assets.eraseDups.filter (s.isAttached · node.id)
  set (gone.foldl (fun s asset => s.detach asset node.id) s)
  let updated ←
    if propagate then adjust (Counts.adjustForNode · .remove node.hierarchy node.key gone)
    else pure 0
  return ⟨gone, updated⟩

def addToNodes (hierarchy : HierarchyId) (asset : AssetId) (nodes : List Node) (propagate : Bool) :
    Transaction (Edited Node) := do
  let s ← get
  let fresh := (nodes.eraseDupsBy (·.id == ·.id)).filter (!s.isAttached asset ·.id)
  let updated ←
    if propagate then adjust (Counts.adjustForAsset · .add hierarchy asset (fresh.map (·.key)))
    else pure 0
  fresh.forM (attach asset ·.id)
  return ⟨fresh, updated⟩

def removeFromNodes (hierarchy : HierarchyId) (asset : AssetId) (nodes : List Node)
    (propagate : Bool) : Transaction (Edited Node) := do
  let s ← get
  let gone := (nodes.eraseDupsBy (·.id == ·.id)).filter (s.isAttached asset ·.id)
  set (gone.foldl (fun s node => s.detach asset node.id) s)
  let updated ←
    if propagate then adjust (Counts.adjustForAsset · .remove hierarchy asset (gone.map (·.key)))
    else pure 0
  return ⟨gone, updated⟩

/-- Attaches those of the given assets that are left without any node to the root. -/
def rehome (hierarchy : HierarchyId) (assets : List AssetId) (propagate : Bool) :
    Transaction (List Change) := do
  let s ← get
  match (s.orphans hierarchy).filter (assets.contains ·) with
  | [] => return []
  | orphans =>
    match ← s.rootNode? hierarchy with
    | none => throw (.noRoot hierarchy orphans.length)
    | some root =>
      let edited ← addToNode root orphans propagate
      return Change.perAsset edited.changed root.id

end Store
end Inventory
