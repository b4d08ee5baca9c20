import Inventory.Proofs.Reconcile
import Inventory.Tree.Questions

/-! # The share of a hierarchy

What a store holds of one hierarchy: its nodes with their amounts, its assets, the attachments with
one of these at either end, and its mark. Whatever is asked about the hierarchy, the answer depends
on nothing else. -/
namespace Inventory
set_option autoImplicit false

/-- The first entry that is looked for is the only one. -/
theorem find?_eq_of_unique {α : Type} {p : α → Bool} {items : List α} {item : α}
    (hitem : item ∈ items) (hp : p item = true)
    (hunique : ∀ other ∈ items, p other = true → other = item) : items.find? p = some item := by
  cases hfind : items.find? p with
  | none => exact absurd hp (List.find?_eq_none.1 hfind item hitem)
  | some found =>
    rw [hunique found (List.mem_of_find?_eq_some hfind) (List.find?_some hfind)]

theorem mapM_congr {ε α β : Type} {f g : α → Except ε β} {items : List α}
    (h : ∀ item ∈ items, f item = g item) : items.mapM f = items.mapM g := by
  induction items with
  | nil => rfl
  | cons item rest ih =>
    rw [List.mapM_cons, List.mapM_cons, h item List.mem_cons_self,
      ih fun other hother => h other (List.mem_cons_of_mem _ hother)]

namespace Store
variable {s t : Store} {host : HierarchyId}

/-- The attachments to nodes or of assets of the hierarchy. -/
def linksOf (s : Store) (host : HierarchyId) : List Attachment :=
  s.attachments.filter fun link =>
    (s.rowsOf host).any (·.id == link.2) || (s.assetsOf host).any (·.id == link.1)

/-- What a store holds of one hierarchy. -/
def share (s : Store) (host : HierarchyId) : Store where
  hierarchies := s.hierarchies.filter (·.id == host)
  nodes := s.rowsOf host
  assets := s.assetsOf host
  attachments := s.linksOf host
  marked := s.marked.filter (· == host)

theorem mem_assetsOf {asset : Asset} :
    asset ∈ s.assetsOf host ↔ asset ∈ s.assets ∧ asset.hierarchy = host := by
  rw [assetsOf, List.mem_filter, beq_iff_eq]

/-! ## Rows, assets and attachments of a share -/

@[simp] theorem share_nodes (s : Store) (host : HierarchyId) :
    (s.share host).nodes = s.rowsOf host := rfl

@[simp] theorem share_assets (s : Store) (host : HierarchyId) :
    (s.share host).assets = s.assetsOf host := rfl

@[simp] theorem rowsOf_share (s : Store) (host : HierarchyId) :
    (s.share host).rowsOf host = s.rowsOf host := by
  rw [rowsOf, share_nodes, rowsOf, List.filter_filter]
  simp only [Bool.and_self]

@[simp] theorem assetsOf_share (s : Store) (host : HierarchyId) :
    (s.share host).assetsOf host = s.assetsOf host := by
  rw [assetsOf, share_assets, assetsOf, List.filter_filter]
  simp only [Bool.and_self]

theorem mem_linksOf {link : Attachment} : link ∈ s.linksOf host ↔ link ∈ s.attachments ∧
    ((∃ row ∈ s.rowsOf host, row.id = link.2) ∨ ∃ asset ∈ s.assetsOf host, asset.id = link.1) := by
  simp only [linksOf, List.mem_filter, Bool.or_eq_true, List.any_eq_true, beq_iff_eq]

/-- A condition that only attachments of the hierarchy meet picks the same ones. -/
theorem filter_linksOf {p : Attachment → Bool}
    (h : ∀ link, p link = true → (∃ row ∈ s.rowsOf host, row.id = link.2) ∨
      ∃ asset ∈ s.assetsOf host, asset.id = link.1) :
    (s.linksOf host).filter p = s.attachments.filter p := by
  rw [linksOf, List.filter_filter]
  refine List.filter_congr fun link _ => ?_
  cases hp : p link with
  | false => rfl
  | true =>
    simp only [Bool.true_and, Bool.or_eq_true, List.any_eq_true, beq_iff_eq]
    exact h link hp

theorem directAssets_share {row : NodeRow} (hrow : row ∈ s.rowsOf host) :
    (s.share host).directAssets row.id = s.directAssets row.id := by
  have hlinks : (s.linksOf host).filter (·.2 == row.id) = s.attachments.filter (·.2 == row.id) :=
    filter_linksOf fun _ hlink => Or.inl ⟨row, hrow, (beq_iff_eq.1 hlink).symm⟩
  exact congrArg (fun links => sortIds (links.map (·.1))) hlinks

theorem nodesOfAsset_share {asset : Asset} (hasset : asset ∈ s.assetsOf host) :
    (s.share host).nodesOfAsset asset.id = s.nodesOfAsset asset.id := by
  have hlinks : (s.linksOf host).filter (·.1 == asset.id) =
      s.attachments.filter (·.1 == asset.id) :=
    filter_linksOf fun _ hlink => Or.inr ⟨asset, hasset, (beq_iff_eq.1 hlink).symm⟩
  exact congrArg (fun links => sortIds (links.map (·.2))) hlinks

theorem orphans_share (s : Store) (host : HierarchyId) :
    (s.share host).orphans host = s.orphans host := by
  rw [orphans, orphans, assetsOf_share]
  refine congrArg sortIds (List.filter_congr fun id hid => ?_)
  obtain ⟨asset, hasset, rfl⟩ := List.mem_map.1 hid
  refine congrArg (!·) (Bool.eq_iff_iff.2 ?_)
  simp only [List.any_eq_true, beq_iff_eq]
  constructor
  · rintro ⟨link, hlink, hid⟩
    exact ⟨link, (mem_linksOf.1 hlink).1, hid⟩
  · rintro ⟨link, hlink, hid⟩
    exact ⟨link, mem_linksOf.2 ⟨hlink, Or.inr ⟨asset, hasset, hid.symm⟩⟩, hid⟩

/-! ## Questions -/

theorem hierarchy?_share (s : Store) (host : HierarchyId) :
    (s.share host).hierarchy? host = s.hierarchy? host := by
  rw [hierarchy?, share, List.find?_filter, hierarchy?]
  simp only [and_self, Bool.decide_eq_true]

theorem requireHierarchy_share (s : Store) (host : HierarchyId) :
    (s.share host).requireHierarchy host = s.requireHierarchy host := by
  rw [requireHierarchy, hierarchy?_share, requireHierarchy]

theorem asset?_share (hs : s.Formed) {asset : Asset} (hasset : asset ∈ s.assetsOf host) :
    (s.share host).asset? asset.id = s.asset? asset.id := by
  have hin := (mem_assetsOf.1 hasset).1
  have hunique : ∀ other ∈ s.assets, (other.id == asset.id) = true → other = asset :=
    fun other hother hid => hs.asset_eq_of_id hother hin (beq_iff_eq.1 hid)
  rw [asset?, asset?, find?_eq_of_unique hin (beq_self_eq_true asset.id) hunique]
  exact find?_eq_of_unique hasset (beq_self_eq_true asset.id) fun other hother =>
    hunique other (mem_assetsOf.1 hother).1

theorem node?_share (hs : s.Formed) {row : NodeRow} (hrow : row ∈ s.rowsOf host) :
    (s.share host).node? row.id = s.node? row.id := by
  have hin := (mem_rowsOf.1 hrow).1
  have hunique : ∀ other ∈ s.nodes, (other.id == row.id) = true → other = row :=
    fun other hother hid => hs.eq_of_id hother hin (beq_iff_eq.1 hid)
  have hwhole := find?_eq_of_unique hin (beq_self_eq_true row.id) hunique
  have hpart := find?_eq_of_unique hrow (beq_self_eq_true row.id) fun other hother =>
    hunique other (mem_rowsOf.1 hother).1
  rw [node?, node?, share_nodes, hwhole, hpart]

theorem requireNode_share (hs : s.Formed) {row : NodeRow} (hrow : row ∈ s.rowsOf host) :
    (s.share host).requireNode row.id = s.requireNode row.id := by
  rw [requireNode, node?_share hs hrow, requireNode]

/-- Every node with the id is one of the hierarchy. -/
theorem Formed.hierarchy_eq (hs : s.Formed) {row : NodeRow} (hrow : row ∈ s.rowsOf host)
    {node : Node} (h : s.requireNode row.id = .ok node) : node.hierarchy = host := by
  obtain ⟨hin, hid⟩ := hs.requireNode h
  obtain ⟨hknown, rfl⟩ := mem_rowsOf.1 hrow
  exact congrArg NodeRow.hierarchy (hs.eq_of_id hin hknown hid)

theorem requireRoot_share (s : Store) (host : HierarchyId) :
    (s.share host).requireRoot host = s.requireRoot host := by
  rw [requireRoot, rootNode?, rowsOf_share, requireRoot, rootNode?]

theorem nodeByKey?_share (s : Store) (host : HierarchyId) (key : Key) :
    (s.share host).nodeByKey? host key = s.nodeByKey? host key := by
  rw [nodeByKey?, rowsOf_share, nodeByKey?]

theorem children_share (s : Store) (host : HierarchyId) (key : Key) :
    (s.share host).children host key = s.children host key := by
  rw [children, childRows, rowsOf_share, children, childRows]

/-- The children of a node, as they are asked for by its id. -/
theorem childrenOf_share (hs : s.Formed) {row : NodeRow} (hrow : row ∈ s.rowsOf host) :
    ((s.share host).requireNode row.id >>= fun node =>
      (s.share host).children node.hierarchy node.key) =
      s.requireNode row.id >>= fun node => s.children node.hierarchy node.key := by
  rw [requireNode_share hs hrow]
  cases hnode : s.requireNode row.id with
  | error e => rfl
  | ok node => rw [ok_bind, ok_bind, hs.hierarchy_eq hrow hnode, children_share]

theorem nodesOf_share (s : Store) (host : HierarchyId) :
    (s.share host).nodesOf host = s.nodesOf host := by
  rw [nodesOf, rowsOf_share, nodesOf]

theorem keyedAssets_share {rows : List NodeRow} (hrows : ∀ row ∈ rows, row ∈ s.rowsOf host) :
    (s.share host).keyedAssets rows = s.keyedAssets rows := by
  rw [keyedAssets, keyedAssets]
  refine congrArg (List.flatten <$> ·) (mapM_congr fun row hrow => ?_)
  rw [directAssets_share (hrows row (List.mem_mergeSort.1 hrow))]

theorem totalsBelow_share (hs : s.Formed) {row : NodeRow} (hrow : row ∈ s.rowsOf host)
    (keep : Bool) : (s.share host).totalsBelow row.id keep = s.totalsBelow row.id keep := by
  rw [totalsBelow, requireNode_share hs hrow, totalsBelow]
  cases hnode : s.requireNode row.id with
  | error e => rfl
  | ok node =>
    have hbelow : ∀ other ∈ s.subtreeRows host node.key, other ∈ s.rowsOf host :=
      fun _ hother => List.mem_of_mem_filter hother
    simp only [ok_bind, hs.hierarchy_eq hrow hnode, subtreeNodes, subtreeRows, rowsOf_share]
    rw [← subtreeRows, keyedAssets_share hbelow]

theorem subtreeCount_share (hs : s.Formed) {row : NodeRow} (hrow : row ∈ s.rowsOf host) :
    (s.share host).subtreeCount row.id = s.subtreeCount row.id := by
  rw [subtreeCount, totalsBelow_share hs hrow, subtreeCount]

theorem assetIdsOf_share (hs : s.Formed) {row : NodeRow} (hrow : row ∈ s.rowsOf host) :
    (s.share host).assetIdsOf row.id = s.assetIdsOf row.id := by
  rw [assetIdsOf, totalsBelow_share hs hrow, assetIdsOf]

theorem computedCounts_share (s : Store) (host : HierarchyId) :
    (s.share host).computedCounts host = s.computedCounts host := by
  rw [computedCounts, nodesOf_share, rowsOf_share, keyedAssets_share fun _ hrow => hrow,
    computedCounts]

/-- A check reports the same of a store and of the share alone. -/
theorem check_share (s : Store) (host : HierarchyId) :
    (·.1) <$> reconcile host .checkOnly (s.share host) =
      (·.1) <$> reconcile host .checkOnly s := by
  rw [reconcile, Transaction.get_bind, Transaction.get_bind, Transaction.lift_bind,
    Transaction.lift_bind, nodesOf_share]
  cases s.nodesOf host with
  | error e => rfl
  | ok nodes =>
    simp only [ok_bind, orphans_share]
    rw [Transaction.get_bind, Transaction.get_bind, Transaction.lift_bind, Transaction.lift_bind,
      rowsOf_share, keyedAssets_share fun _ hrow => hrow]
    cases s.keyedAssets (s.rowsOf host) with
    | error e => rfl
    | ok pairs =>
      simp only [ok_bind, assetsOf_share]
      rfl

end Store
end Inventory
