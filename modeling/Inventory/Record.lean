import Inventory.Key.Basic

/-! The things a tree of assets is made of: hierarchies, their nodes, and the assets that are
attached to nodes. -/
namespace Inventory
set_option autoImplicit false

abbrev HierarchyId := Int
abbrev NodeId := Int
abbrev AssetId := Int

/-- An independent tree; its name is also the value of its root node. -/
structure Hierarchy where
  id : HierarchyId
  name : String
  deriving DecidableEq

structure Node where
  id : NodeId
  hierarchy : HierarchyId
  key : Key
  /-- The label, distinct among siblings. -/
  value : String
  /-- The labels from the root down to the node, each after a slash. -/
  fullValue : String
  /-- The cached number of distinct assets in the subtree of the node. -/
  amount : Int
  deriving DecidableEq

/-- A thing that is attached to one or more nodes of its hierarchy. -/
structure Asset where
  id : AssetId
  hierarchy : HierarchyId
  name : String
  deriving DecidableEq

end Inventory
