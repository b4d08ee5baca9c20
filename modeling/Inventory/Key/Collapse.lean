import Inventory.Key.Basic

/-! Collapsing a set of keys to the ones at its two edges: those with no key of the set below
them, and those with none above. -/
namespace Inventory.Key
set_option autoImplicit false

/-- The keys that are no strict ancestor of another key of the list, ascending. -/
def deepest (keys : List Key) : List Key :=
  let set := ascending keys
  let covered := set.flatMap ancestors
  set.filter (!covered.contains ·)

/-- Drops from an ascending list every key in the subtree of the last key kept before it. -/
def dropCovered (kept : Key) : List Key → List Key
  | [] => []
  | key :: rest =>
    if key.isDescendantOrSelf kept then dropCovered kept rest else key :: dropCovered key rest

/-- The keys that lie in no other key's subtree, ascending. Subtrees are contiguous in key order,
so that a key has only to be compared with the last one kept. -/
def topmost (keys : List Key) : List Key :=
  match ascending keys with
  | [] => []
  | first :: rest => first :: dropCovered first rest

end Inventory.Key
