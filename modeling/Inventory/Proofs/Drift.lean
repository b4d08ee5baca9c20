import Inventory.Proofs.Store.Progress

/-! # Cached amounts that are off

An edit of attachments that adjusts amounts moves each of them by exactly as much as the number of
assets of its node. It asks nothing of the amounts that it finds: those that were off stay off by as
much. All it relies on is the keys of the nodes, whether or not a node stands at every ancestor of
a key. -/
namespace Inventory.Store
set_option autoImplicit false

/-- The stores differ in attachments, and each amount by as much as the number of assets that its
node holds. -/
structure Tracks (s t : Store) : Prop where
  hierarchies : t.hierarchies = s.hierarchies
  assets : t.assets = s.assets
  marked : t.marked = s.marked
  nodes : t.nodes = s.nodes.map fun row => { row with amount := row.amount +
    ((t.holdings row.hierarchy row.key).card - (s.holdings row.hierarchy row.key).card) }

/-- By how much the cached amount of each node is off. -/
def drifts (s : Store) : List (NodeId × Int) :=
  s.nodes.map fun row => (row.id, row.amount - (s.holdings row.hierarchy row.key).card)

/-- The row of a node or of one of its ancestors. -/
def IsAtOrAbove (node : Node) (row : NodeRow) : Prop :=
  row.hierarchy = node.hierarchy ∧
    ∃ key : Key, row.key = key.text ∧ node.key.isDescendantOrSelf key = true

variable {s t : Store} {rows : List Attachment}

/-! ## Amounts that follow the holdings -/

theorem Tracks.drifts (h : Tracks s t) : t.drifts = s.drifts := by
  rw [Store.drifts, h.nodes, List.map_map]
  apply List.map_congr_left
  intro row _
  simp only [Function.comp_apply, Prod.mk.injEq, true_and]
  omega

theorem tracks_adding (s : Store) (rows : List Attachment) : Tracks s (s.adding rows true) where
  hierarchies := rfl
  assets := rfl
  marked := rfl
  nodes := by
    rw [adding, shifted_nodes]
    apply List.map_congr_left
    intro row _
    rw [holdings_shifted, card_holdings_plus, if_pos rfl]
    congr 2
    omega

theorem tracks_removing (h : ∀ link ∈ rows, link ∈ s.attachments) :
    Tracks s (s.removing rows true) where
  hierarchies := rfl
  assets := rfl
  marked := rfl
  nodes := by
    rw [removing, shifted_nodes]
    apply List.map_congr_left
    intro row _
    rw [holdings_shifted, card_holdings_minus h, if_pos rfl]
    congr 2
    omega

/-! ## Attachments afterwards -/

section Wanted
variable {wanted : Attachment → Prop}

theorem mem_adding_of (h : ∀ link, link ∈ rows ↔ wanted link ∧ link ∉ s.attachments)
    (link : Attachment) :
    link ∈ (s.adding rows true).attachments ↔ link ∈ s.attachments ∨ wanted link := by
  rw [adding_attachments, List.mem_append, h]
  tauto

theorem mem_removing_of (h : ∀ link, link ∈ rows ↔ wanted link ∧ link ∈ s.attachments)
    (link : Attachment) :
    link ∈ (s.removing rows true).attachments ↔ link ∈ s.attachments ∧ ¬wanted link := by
  rw [mem_removing, h]
  tauto

end Wanted

/-! ## One node -/

section OneNode
variable {node : Node}

/-- The rows that stand for a batch of assets at a node, with those left out that are not asked for. -/
theorem mem_links_node {assets : List AssetId} (keep : AssetId → Bool) {id : NodeId}
    {link : Attachment} :
    link ∈ (assets.eraseDups.filter keep).map (·, id) ↔
      (link.1 ∈ assets ∧ link.2 = id) ∧ keep link.1 = true := by
  simp only [List.mem_map, List.mem_filter, List.mem_eraseDups]
  constructor
  · rintro ⟨asset, ⟨hasset, hkeep⟩, rfl⟩
    exact ⟨⟨hasset, rfl⟩, hkeep⟩
  · rintro ⟨⟨hasset, rfl⟩, hkeep⟩
    exact ⟨link.1, ⟨hasset, hkeep⟩, rfl⟩

theorem mem_fresh_assets {assets : List AssetId} {id : NodeId} (link : Attachment) :
    link ∈ (assets.eraseDups.filter (!s.isAttached · id)).map (·, id) ↔
      (link.1 ∈ assets ∧ link.2 = id) ∧ link ∉ s.attachments := by
  rw [mem_links_node, Bool.not_eq_true', ← Bool.not_eq_true, isAttached_iff]
  apply and_congr_right
  rintro ⟨-, rfl⟩
  rfl

theorem mem_gone_assets {assets : List AssetId} {id : NodeId} (link : Attachment) :
    link ∈ (assets.eraseDups.filter (s.isAttached · id)).map (·, id) ↔
      (link.1 ∈ assets ∧ link.2 = id) ∧ link ∈ s.attachments := by
  rw [mem_links_node, isAttached_iff]
  apply and_congr_right
  rintro ⟨-, rfl⟩
  rfl

/-- Attachments to a node bring nothing to a row that is neither its own nor that of an ancestor. -/
theorem gain_aside (hs : s.Indexed) (hnode : node.IsIn s) (assets : List AssetId) {row : NodeRow}
    (hrow : row ∈ s.nodes) (haside : ¬IsAtOrAbove node row) :
    s.gain (assets.map (·, node.id)) row.hierarchy row.key = 0 := by
  obtain ⟨own, hown, hid, hhost, hkey⟩ := hnode
  obtain ⟨key, hk⟩ := hs.keyed row hrow
  rw [gain_eq_zero, ← hid, Counts.reach_node hs.nodeIds hown, if_neg]
  · exact Finset.empty_subset _
  · intro hwithin
    rw [hk, isWithin_iff hkey] at hwithin
    exact haside ⟨hwithin.1.symm.trans hhost, key, hk, hwithin.2⟩

theorem mem_shifted {delta : HierarchyId → String → Int} {row : NodeRow} (hrow : row ∈ s.nodes)
    (h : delta row.hierarchy row.key = 0) : row ∈ (s.shifted delta).nodes := by
  rw [shifted_nodes, List.mem_map]
  refine ⟨row, hrow, ?_⟩
  rw [h, Int.add_zero]

theorem adding_aside (hs : s.Indexed) (hnode : node.IsIn s) (assets : List AssetId) {row : NodeRow}
    (hrow : row ∈ s.nodes) (haside : ¬IsAtOrAbove node row) :
    row ∈ (s.adding (assets.map (·, node.id)) true).nodes :=
  mem_shifted (s := s.plus _) hrow (gain_aside hs hnode assets hrow haside)

theorem removing_aside (hs : s.Indexed) (hnode : node.IsIn s) (assets : List AssetId)
    {row : NodeRow} (hrow : row ∈ s.nodes) (haside : ¬IsAtOrAbove node row) :
    row ∈ (s.removing (assets.map (·, node.id)) true).nodes := by
  apply mem_shifted (s := s.minus _) hrow
  rw [if_pos rfl, gain_aside (hs.minus _) hnode assets hrow haside, Int.neg_zero]

/-- Whatever the amounts are, attaching assets to a node and detaching them moves every amount by the
change of what its node holds, if the amounts can be stored after that, and leaves alone all rows but
those of the node and its ancestors. Ending the climb early makes no difference to it. -/
theorem Indexed.node_edit_exact (hs : s.Indexed) (hnode : node.IsIn s) {assets : List AssetId}
    (hassets : ∀ id ∈ assets, ∃ asset ∈ s.assets, asset.id = id) :
    (∃ edited t, addToNode node assets true s = .ok (edited, t) ∧
      (∀ link, link ∈ t.attachments ↔ link ∈ s.attachments ∨ link.1 ∈ assets ∧ link.2 = node.id) ∧
      (t.Storable → Tracks s t ∧ t.drifts = s.drifts) ∧
      ∀ row ∈ s.nodes, ¬IsAtOrAbove node row → row ∈ t.nodes) ∧
    (∃ edited t, removeFromNode node assets true s = .ok (edited, t) ∧
      (∀ link, link ∈ t.attachments ↔
        link ∈ s.attachments ∧ ¬(link.1 ∈ assets ∧ link.2 = node.id)) ∧
      (t.Storable → Tracks s t ∧ t.drifts = s.drifts) ∧
      ∀ row ∈ s.nodes, ¬IsAtOrAbove node row → row ∈ t.nodes) ∧
    ∀ (edit : Edit) (batch : List AssetId) (t : Store), t.Keyed →
      Counts.adjustForNode t edit node.hierarchy node.key batch =
        Counts.climbFully edit node.hierarchy batch (node.key.lineage true .upward) t := by
  refine ⟨?_, ?_, ?_⟩
  · obtain ⟨edited, t, hadd, -⟩ := exists_addToNode hs hnode hassets true
    obtain ⟨hchanged, rfl, -⟩ := addToNode_eq_ok hs hnode hadd
    have htracks := tracks_adding s (edited.changed.map (·, node.id))
    refine ⟨edited, _, hadd, ?_, fun _ => ⟨htracks, htracks.drifts⟩, ?_⟩
    · apply mem_adding_of
      rw [hchanged]
      exact mem_fresh_assets
    · exact fun row hrow => adding_aside hs hnode _ hrow
  · obtain ⟨⟨edited, t⟩, hremove⟩ := exists_removeFromNode s node assets true
    obtain ⟨hchanged, rfl⟩ := removeFromNode_eq_ok hs hnode hremove
    have hgone : ∀ link, link ∈ edited.changed.map (·, node.id) ↔ _ := hchanged ▸ mem_gone_assets
    have htracks := tracks_removing fun link hlink => ((hgone link).1 hlink).2
    refine ⟨edited, _, hremove, mem_removing_of hgone, fun _ => ⟨htracks, htracks.drifts⟩, ?_⟩
    exact fun row hrow => removing_aside hs hnode _ hrow
  · intro edit batch t ht
    have hline := (Key.pairwise_lineage node.key true).imp And.left
    exact Counts.climb_eq_climbFully edit ht hline fun _ _ => rfl

/-- A store with wrong amounts everywhere, and without a node between its root and its box. -/
def attic : Store where
  hierarchies := [⟨1, "Attic"⟩]
  nodes := [⟨1, 1, "1", "", "Attic", "Attic", 9⟩, ⟨2, 1, "1:2:3", "1:2", "Box", "Attic/Shelf/Box", -4⟩,
    ⟨3, 1, "1:7", "1", "Chest", "Attic/Chest", 0⟩]
  assets := [⟨1, 1, "Hat"⟩, ⟨2, 1, "Fan"⟩]
  attachments := [(1, 2), (1, 3)]

namespace attic

def root : Node := ⟨1, 1, ⟨1, []⟩, "Attic", "Attic", 9⟩

def box : Node := ⟨2, 1, ⟨1, [2, 3]⟩, "Box", "Attic/Shelf/Box", -4⟩

end attic

theorem indexed_attic : attic.Indexed where
  nodeIds := by decide
  keyed row hrow := by
    rcases List.mem_cons.1 hrow with rfl | hrow
    · exact ⟨⟨1, []⟩, by decide⟩
    rcases List.mem_cons.1 hrow with rfl | hrow
    · exact ⟨⟨1, [2, 3]⟩, by decide⟩
    · obtain rfl := List.mem_singleton.1 hrow
      exact ⟨⟨1, [7]⟩, by decide⟩

theorem node_edit_exact_box :
    attic.drifts = [(1, 8), (2, -5), (3, -1)] ∧
      (∃ edited t, addToNode attic.box [2, 1, 2] true attic = .ok (edited, t) ∧
        (2, 2) ∈ t.attachments ∧ t.drifts = attic.drifts) ∧
      ∃ edited t, removeFromNode attic.box [2, 1, 2] true attic = .ok (edited, t) ∧
        (1, 2) ∉ t.attachments ∧ t.drifts = attic.drifts := by
  have hassets : ∀ id ∈ [2, 1, 2], ∃ asset ∈ attic.assets, asset.id = id := by decide
  have hbox : attic.box.IsIn attic := isIn_of_row (by decide)
  obtain ⟨⟨added, t, hadd, hmore, hexact, -⟩, ⟨removed, u, hremove, hless, hexact', -⟩, -⟩ :=
    indexed_attic.node_edit_exact hbox hassets
  have hstored : t.Storable := by
    obtain ⟨hchanged, rfl, -⟩ := addToNode_eq_ok indexed_attic hbox hadd
    rw [hchanged]
    decide
  have hstored' : u.Storable := by
    obtain ⟨hchanged, rfl⟩ := removeFromNode_eq_ok indexed_attic hbox hremove
    rw [hchanged]
    decide
  refine ⟨by decide, ⟨added, t, hadd, ?_, (hexact hstored).2⟩, removed, u, hremove, ?_,
    (hexact' hstored').2⟩
  · exact (hmore (2, 2)).2 (Or.inr ⟨by decide, rfl⟩)
  · exact fun hlink => ((hless (1, 2)).1 hlink).2 ⟨by decide, rfl⟩

end OneNode

/-! ## One asset -/

section OneAsset
variable {hierarchy : HierarchyId} {asset : AssetId} {nodes : List Node} {edited : Edited Node}

theorem mem_links_asset (keep : NodeId → Bool) {link : Attachment} :
    link ∈ ((nodes.eraseDupsBy (·.id == ·.id)).filter (keep ·.id)).map (asset, ·.id) ↔
      (link.1 = asset ∧ ∃ node ∈ nodes, node.id = link.2) ∧ keep link.2 = true := by
  have hids : ∀ id, (∃ node ∈ nodes.eraseDupsBy (·.id == ·.id), node.id = id) ↔
      ∃ node ∈ nodes, node.id = id := by
    intro id
    rw [← List.mem_map, map_eraseDupsBy Node.id, List.mem_eraseDups, List.mem_map]
  rw [← hids]
  simp only [List.mem_map, List.mem_filter]
  constructor
  · rintro ⟨node, ⟨hnode, hkeep⟩, rfl⟩
    exact ⟨⟨rfl, node, hnode, rfl⟩, hkeep⟩
  · rintro ⟨⟨rfl, node, hnode, hid⟩, hkeep⟩
    exact ⟨node, ⟨hnode, hid ▸ hkeep⟩, by rw [hid]⟩

theorem mem_fresh_nodes (link : Attachment) :
    link ∈ ((nodes.eraseDupsBy (·.id == ·.id)).filter (!s.isAttached asset ·.id)).map (asset, ·.id) ↔
      (link.1 = asset ∧ ∃ node ∈ nodes, node.id = link.2) ∧ link ∉ s.attachments := by
  rw [mem_links_asset fun id => !s.isAttached asset id, Bool.not_eq_true', ← Bool.not_eq_true,
    isAttached_iff]
  apply and_congr_right
  rintro ⟨rfl, -⟩
  rfl

theorem mem_gone_nodes (link : Attachment) :
    link ∈ ((nodes.eraseDupsBy (·.id == ·.id)).filter (s.isAttached asset ·.id)).map (asset, ·.id) ↔
      (link.1 = asset ∧ ∃ node ∈ nodes, node.id = link.2) ∧ link ∈ s.attachments := by
  rw [mem_links_asset fun id => s.isAttached asset id, isAttached_iff]
  apply and_congr_right
  rintro ⟨rfl, -⟩
  rfl

theorem adjustForAsset_count (hs : s.Indexed) (edit : Edit) (hierarchy : HierarchyId)
    (asset : AssetId) (keys : List Key) :
    (Counts.adjustForAsset s edit hierarchy asset keys).1 = (s.nodes.filter
      (· ∉ (Counts.adjustForAsset s edit hierarchy asset keys).2.nodes)).length := by
  apply addAmount_count hs.nodeIds
  cases edit <;> decide

theorem addToNodes_updated (hs : s.Indexed)
    (hchanged : ∀ node ∈ edited.changed, node.IsIn s ∧ node.hierarchy = hierarchy)
    (h : addToNodes hierarchy asset nodes true s = .ok (edited, t)) :
    edited.nodesUpdated = (s.nodes.filter
      (· ∉ (s.adding (edited.changed.map (asset, ·.id)) true).nodes)).length := by
  rw [addToNodes, Transaction.get_bind, if_pos rfl] at h
  obtain ⟨n, s₁, hadjust, h⟩ := Transaction.bind_eq_ok.1 h
  obtain ⟨_, s₂, -, h⟩ := Transaction.bind_eq_ok.1 h
  cases h
  cases hadjust
  refine (adjustForAsset_count hs .add hierarchy asset _).trans ?_
  rw [Counts.adjustForAsset_eq hs .add asset hchanged]
  simp only [Edit.sign, Int.one_mul]
  rfl

theorem removeFromNodes_updated (hs : s.Indexed)
    (hchanged : ∀ node ∈ edited.changed, node.IsIn s ∧ node.hierarchy = hierarchy)
    (h : removeFromNodes hierarchy asset nodes true s = .ok (edited, t)) :
    edited.nodesUpdated = (s.nodes.filter
      (· ∉ (s.removing (edited.changed.map (asset, ·.id)) true).nodes)).length := by
  rw [removeFromNodes, Transaction.get_bind, Transaction.set_bind, if_pos rfl,
    foldl_detach fun node : Node => (asset, node.id)] at h
  obtain ⟨n, s₁, hadjust, h⟩ := Transaction.bind_eq_ok.1 h
  cases h
  cases hadjust
  refine (adjustForAsset_count (hs.minus _) .remove hierarchy asset _).trans ?_
  rw [Counts.adjustForAsset_eq (hs.minus _) .remove asset hchanged]
  simp only [Edit.sign, Int.neg_mul, Int.one_mul]
  rfl

/-- Whatever the amounts are, attaching an asset to nodes of a hierarchy and detaching it moves every
amount by the change of what its node holds, and counts the rows that this changes, if the amounts
can be stored after that. No key is changed twice, none is searched twice for the asset, and what
these searches find decides all. -/
theorem Indexed.asset_edit_exact (hs : s.Indexed) (hasset : ∃ known ∈ s.assets, known.id = asset)
    (hnodes : ∀ node ∈ nodes, node.IsIn s ∧ node.hierarchy = hierarchy) :
    (∃ edited t, addToNodes hierarchy asset nodes true s = .ok (edited, t) ∧
      (∀ link, link ∈ t.attachments ↔
        link ∈ s.attachments ∨ link.1 = asset ∧ ∃ node ∈ nodes, node.id = link.2) ∧
      (t.Storable → Tracks s t ∧ t.drifts = s.drifts ∧
        edited.nodesUpdated = (s.nodes.filter (· ∉ t.nodes)).length)) ∧
    (∃ edited t, removeFromNodes hierarchy asset nodes true s = .ok (edited, t) ∧
      (∀ link, link ∈ t.attachments ↔
        link ∈ s.attachments ∧ ¬(link.1 = asset ∧ ∃ node ∈ nodes, node.id = link.2)) ∧
      (t.Storable → Tracks s t ∧ t.drifts = s.drifts ∧
        edited.nodesUpdated = (s.nodes.filter (· ∉ t.nodes)).length)) ∧
    ∀ (edit : Edit) (keys : List Key) (t : Store),
      let walk := Counts.walks (t.seesAsset hierarchy · asset) keys
      Counts.adjustForAsset t edit hierarchy asset keys =
          t.addAmount hierarchy walk.changed edit.sign ∧
        walk.changed.Nodup ∧ walk.probed.Nodup ∧
        ∀ sees, (∀ key ∈ walk.probed, sees key = t.seesAsset hierarchy key asset) →
          Counts.walks sees keys = walk := by
  have hids := nodup_distinct nodes
  have hdistinct : ∀ node ∈ nodes.eraseDupsBy (·.id == ·.id),
      node.IsIn s ∧ node.hierarchy = hierarchy := fun node hnode =>
    hnodes node (eraseDupsBy_subset _ _ hnode)
  refine ⟨?_, ?_, ?_⟩
  · obtain ⟨edited, t, hadd, -⟩ := exists_addToNodes hs hasset hids hdistinct true
    obtain ⟨hchanged, rfl⟩ := addToNodes_eq_ok hs hids hdistinct hadd
    have hthere : ∀ node ∈ edited.changed, node.IsIn s ∧ node.hierarchy = hierarchy := fun node hnode =>
      hdistinct node (List.mem_of_mem_filter (hchanged ▸ hnode))
    have htracks := tracks_adding s (edited.changed.map (asset, ·.id))
    rw [addToNodes_distinct] at hadd
    refine ⟨edited, _, hadd, ?_, fun _ => ⟨htracks, htracks.drifts, addToNodes_updated hs hthere hadd⟩⟩
    apply mem_adding_of
    rw [hchanged]
    exact mem_fresh_nodes
  · obtain ⟨⟨edited, t⟩, hremove⟩ :=
      exists_removeFromNodes s hierarchy asset (nodes.eraseDupsBy (·.id == ·.id)) true
    obtain ⟨hchanged, rfl⟩ := removeFromNodes_eq_ok hs hids hdistinct hremove
    have hthere : ∀ node ∈ edited.changed, node.IsIn s ∧ node.hierarchy = hierarchy := fun node hnode =>
      hdistinct node (List.mem_of_mem_filter (hchanged ▸ hnode))
    have hgone : ∀ link, link ∈ edited.changed.map (asset, ·.id) ↔ _ := hchanged ▸ mem_gone_nodes
    have htracks := tracks_removing fun link hlink => ((hgone link).1 hlink).2
    rw [removeFromNodes_distinct] at hremove
    exact ⟨edited, _, hremove, mem_removing_of hgone, fun _ => ⟨htracks, htracks.drifts,
      removeFromNodes_updated hs hthere hremove⟩⟩
  · intro edit keys t walk
    have honce := Counts.walks_once (t.seesAsset hierarchy · asset) keys
    exact ⟨rfl, honce.probed.sublist honce.changed, honce.probed, fun sees h => Counts.walks_congr h⟩

theorem asset_edit_exact_attic :
    attic.drifts = [(1, 8), (2, -5), (3, -1)] ∧
      (∃ edited t, addToNodes 1 2 [attic.box, attic.root, attic.box] true attic =
          .ok (edited, t) ∧ (2, 2) ∈ t.attachments ∧ t.drifts = attic.drifts) ∧
      ∃ edited t, removeFromNodes 1 1 [attic.box, attic.root, attic.box] true attic =
          .ok (edited, t) ∧ (1, 2) ∉ t.attachments ∧ (1, 3) ∈ t.attachments ∧
        t.drifts = attic.drifts := by
  have hnodes : ∀ node ∈ [attic.box, attic.root, attic.box],
      node.IsIn attic ∧ node.hierarchy = 1 := by
    apply areIn_of_rows
    decide
  have hhat : ∃ known ∈ attic.assets, known.id = 1 := by decide
  have hfan : ∃ known ∈ attic.assets, known.id = 2 := by decide
  obtain ⟨⟨added, t, hadd, hmore, hexact⟩, -⟩ := indexed_attic.asset_edit_exact hfan hnodes
  obtain ⟨-, ⟨removed, u, hremove, hless, hexact'⟩, -⟩ := indexed_attic.asset_edit_exact hhat hnodes
  have hdistinct : ∀ node ∈ [attic.box, attic.root, attic.box].eraseDupsBy (·.id == ·.id),
      node.IsIn attic ∧ node.hierarchy = 1 := fun node hnode =>
    hnodes node (eraseDupsBy_subset _ _ hnode)
  have hstored : t.Storable := by
    rw [← addToNodes_distinct] at hadd
    obtain ⟨hchanged, rfl⟩ := addToNodes_eq_ok indexed_attic (nodup_distinct _) hdistinct hadd
    rw [hchanged]
    decide
  have hstored' : u.Storable := by
    rw [← removeFromNodes_distinct] at hremove
    obtain ⟨hchanged, rfl⟩ :=
      removeFromNodes_eq_ok indexed_attic (nodup_distinct _) hdistinct hremove
    rw [hchanged]
    decide
  refine ⟨by decide, ⟨added, t, hadd, ?_, (hexact hstored).2.1⟩, removed, u, hremove, ?_, ?_,
    (hexact' hstored').2.1⟩
  · exact (hmore (2, 2)).2 (Or.inr (by decide))
  · exact fun hlink => ((hless (1, 2)).1 hlink).2 (by decide)
  · exact (hless (1, 3)).2 (by decide)

end OneAsset
end Inventory.Store
