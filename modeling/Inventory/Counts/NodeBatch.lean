import Inventory.Counts.Edit
import Inventory.Store.Attachments

/-! Cached amounts after several assets come to one node or leave it. From the node upward, each
ancestor changes by the assets that it does not see otherwise; an asset that one ancestor sees is
seen by all above it and drops out of the walk. The walk reads the attachments without the rows of
the batch: before they are added, after they are removed. -/
namespace Inventory.Counts
set_option autoImplicit false

/-- Walks up a line of keys, nearest first, with the assets still to be accounted for, and counts
the rows changed. -/
def climb (edit : Edit) (hierarchy : HierarchyId) : List Key → List AssetId → Store → Nat × Store
  | [], _, s => (0, s)
  | key :: above, assets, s =>
    let unseen := assets.filter (!s.seesAsset hierarchy key ·)
    if unseen.isEmpty then (0, s)
    else
      let (updated, s) := s.addAmount hierarchy [key] (edit.sign * unseen.length)
      let (more, s) := climb edit hierarchy above unseen s
      (updated + more, s)

/-- Adjusts the node with the given key and its ancestors. -/
def adjustForNode (s : Store) (edit : Edit) (hierarchy : HierarchyId) (key : Key)
    (assets : List AssetId) : Nat × Store :=
  climb edit hierarchy (key.lineage true .upward) assets s

end Inventory.Counts
