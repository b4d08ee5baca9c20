import Inventory.Store.Attachments

/-! Edits of the tables by somebody else, who minds neither references between rows nor what the
text of a key should be. Only ids of rows and the uniqueness of a key text within its hierarchy are
kept. -/
namespace Inventory
set_option autoImplicit false

/-- One edit behind the back of an open tree. -/
inductive Intrusion where
  | setAmount (node : NodeId) (amount : Int)
  | insertNode (hierarchy : HierarchyId) (key parentKey value fullValue : String)
  | insertAsset (hierarchy : HierarchyId) (name : String)
  | insertAttachment (asset : AssetId) (node : NodeId)
  | deleteAttachment (asset : AssetId) (node : NodeId)
  | deleteNode (node : NodeId)
  | mark (hierarchy : HierarchyId)
  deriving DecidableEq

/-- How many rows an edit changed, and the id of a new row. -/
structure Intruded where
  changed : Nat
  id : Option Int := none
  deriving DecidableEq

namespace Intrusion

/-- Carries out an edit, unless a key text would stand twice in one hierarchy. -/
def run (s : Store) : Intrusion → Option (Intruded × Store)
  | setAmount node amount => some (⟨s.nodes.countP (·.id == node), none⟩, s.setAmount node amount)
  | insertNode hierarchy key parentKey value fullValue =>
    if (s.rowsOf hierarchy).any (·.key == key) then none
    else
      let id := nextId (s.nodes.map (·.id))
      some (⟨1, some id⟩,
        { s with nodes := s.nodes ++ [⟨id, hierarchy, key, parentKey, value, fullValue, 0⟩] })
  | insertAsset hierarchy name =>
    let id := nextId (s.assets.map (·.id))
    some (⟨1, some id⟩, { s with assets := s.assets ++ [⟨id, hierarchy, name⟩] })
  | insertAttachment asset node =>
    if s.isAttached asset node then some (⟨0, none⟩, s)
    else some (⟨1, none⟩, { s with attachments := s.attachments ++ [(asset, node)] })
  | deleteAttachment asset node =>
    some (⟨s.attachments.countP (· == (asset, node)), none⟩, s.detach asset node)
  | deleteNode node => some (⟨s.nodes.countP (·.id == node), none⟩, s.deleteNode node)
  | mark hierarchy =>
    if s.marked.contains hierarchy then some (⟨0, none⟩, s)
    else some (⟨1, none⟩, { s with marked := s.marked ++ [hierarchy] })

end Intrusion
end Inventory
