import Inventory.Counts.Edit
import Inventory.Key.Collapse
import Inventory.Store.Attachments

/-! Cached amounts after one asset comes to several nodes or leaves them. Each affected key that
does not see the asset otherwise changes by one. The walk goes up from each of the deepest keys and
ends at a key that sees the asset, because all above it see it too, or at one that an earlier walk
has settled. -/
namespace Inventory.Counts
set_option autoImplicit false

/-- How far the walks have come. -/
structure Walk where
  /-- Ancestors of the batch that no walk has settled. -/
  unsettled : List Key
  changed : List Key
  /-- The keys whose subtrees were searched for the asset. -/
  probed : List Key

namespace Walk

/-- Settles a line of keys, nearest first, up to the first one that already is. -/
def settle : List Key → List Key → List Key
  | [], keys => keys
  | key :: above, keys => if keys.contains key then settle above (keys.erase key) else keys

/-- Walks up a line of keys, nearest first. -/
def ascend (sees : Key → Bool) : List Key → Walk → Walk
  | [], walk => walk
  | key :: above, walk =>
    if walk.unsettled.contains key then
      let walk := { walk with probed := walk.probed ++ [key] }
      if sees key then { walk with unsettled := settle (key :: above) walk.unsettled }
      else
        ascend sees above
          { walk with unsettled := walk.unsettled.erase key, changed := walk.changed ++ [key] }
    else walk

/-- Walks up from one of the deepest keys. -/
def start (sees : Key → Bool) (walk : Walk) (key : Key) : Walk :=
  let above := key.lineage false .upward
  let walk := { walk with probed := walk.probed ++ [key] }
  if sees key then { walk with unsettled := settle above walk.unsettled }
  else ascend sees above { walk with changed := walk.changed ++ [key] }

end Walk

/-- The walks from all the deepest keys of a batch. -/
def walks (sees : Key → Bool) (keys : List Key) : Walk :=
  (Key.deepest keys).foldl (Walk.start sees) ⟨Key.ascending (keys.flatMap Key.ancestors), [], []⟩

/-- Adjusts the nodes with the given keys and their ancestors, and counts the rows changed. -/
def adjustForAsset (s : Store) (edit : Edit) (hierarchy : HierarchyId) (asset : AssetId)
    (keys : List Key) : Nat × Store :=
  s.addAmount hierarchy (walks (s.seesAsset hierarchy · asset) keys).changed edit.sign

end Inventory.Counts
