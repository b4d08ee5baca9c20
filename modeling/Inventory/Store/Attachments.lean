import Inventory.Store.Nodes
import Inventory.Totals

/-! Assets and their attachments to nodes. -/
namespace Inventory.Store
set_option autoImplicit false

/-! ## Assets -/

def asset? (s : Store) (id : AssetId) : Option Asset := s.assets.find? (·.id == id)

def requireAsset (s : Store) (id : AssetId) : Except Error Asset :=
  (s.asset? id).elim (.error (.notFound .asset)) .ok

def assetsOf (s : Store) (hierarchy : HierarchyId) : List Asset :=
  s.assets.filter (·.hierarchy == hierarchy)

/-- Fails unless every id is that of an asset of the hierarchy. -/
def ensureAssetsIn (s : Store) (hierarchy : HierarchyId) (ids : List AssetId) : Except Error Unit :=
  let distinct := ids.eraseDups
  let found := (s.assetsOf hierarchy).countP (distinct.contains ·.id)
  if found = distinct.length then .ok ()
  else .error (.foreignAssets (distinct.length - found) distinct.length hierarchy)

def insertAsset (hierarchy : HierarchyId) (name : String) : Transaction AssetId := do
  let s ← get
  if (s.hierarchy? hierarchy).isNone then throw .danglingReference
  let id := nextId (s.assets.map (·.id))
  set ({ s with assets := s.assets ++ [⟨id, hierarchy, name⟩] } : Store)
  return id

/-- Deletes an asset with whatever attachments it has left. -/
def deleteAsset (s : Store) (id : AssetId) : Store :=
  { s with
    assets := s.assets.filter (·.id != id)
    attachments := s.attachments.filter (·.1 != id) }

/-! ## Attachments -/

/-- Attaches an asset to a node, unless it already is. -/
def attach (asset : AssetId) (node : NodeId) : Transaction Unit := do
  let s ← get
  if s.attachments.contains (asset, node) then return ()
  if (s.asset? asset).isNone || !(s.nodes.any (·.id == node)) then throw .danglingReference
  set ({ s with attachments := s.attachments ++ [(asset, node)] } : Store)

def detach (s : Store) (asset : AssetId) (node : NodeId) : Store :=
  { s with attachments := s.attachments.filter (· != (asset, node)) }

def isAttached (s : Store) (asset : AssetId) (node : NodeId) : Bool :=
  s.attachments.contains (asset, node)

/-- The nodes that an asset is attached to, ascending. -/
def nodesOfAsset (s : Store) (asset : AssetId) : List NodeId :=
  sortIds ((s.attachments.filter (·.1 == asset)).map (·.2))

/-- The assets that are attached to a node itself, ascending. -/
def directAssets (s : Store) (node : NodeId) : List AssetId :=
  sortIds ((s.attachments.filter (·.2 == node)).map (·.1))

/-- The attachments of a batch of assets, ascending by asset and then by node. -/
def attachmentsOf (s : Store) (assets : List AssetId) : List Attachment :=
  (sortIds assets.eraseDups).flatMap fun asset => (s.nodesOfAsset asset).map (asset, ·)

/-- The asset is attached to a node of the subtree of a key. -/
def seesAsset (s : Store) (hierarchy : HierarchyId) (key : Key) (asset : AssetId) : Bool :=
  (s.subtreeRows hierarchy key).any fun row => s.isAttached asset row.id

/-- The attachments to nodes of a hierarchy, by key, in the order of the texts of the keys. -/
def keyedAssets (s : Store) (rows : List NodeRow) : Except Error (List KeyedAsset) :=
  List.flatten <$>
    (rows.mergeSort (fun a b => decide (a.key ≤ b.key))).mapM fun row =>
      match s.directAssets row.id with
      | [] => .ok []
      | assets => (row.readKey 0).map fun key => assets.map (key, ·)

/-- The assets of a hierarchy that are attached to no node at all, ascending. -/
def orphans (s : Store) (hierarchy : HierarchyId) : List AssetId :=
  sortIds (((s.assetsOf hierarchy).map (·.id)).filter fun id => !s.attachments.any (·.1 == id))

end Inventory.Store
