import Inventory.Proofs.Reconcile
import Inventory.Proofs.Store.Progress

/-! # Repairs of any store

A repair asks little of what it finds: ids that differ, and the keys of the one hierarchy, which
differ too, are canonical and can be read. Amounts and marks may be any, parents may be missing,
there may be no root or several, and assets may be without a node. What a repair makes of such a
store is determined by its tables, and a second repair finds nothing more to do. -/
namespace Inventory.Store
set_option autoImplicit false
variable {s t : Store} {hierarchy : HierarchyId}

/-- What the tables rule out by themselves, with keys of a hierarchy that are canonical and can be
read. -/
structure Orderly (s : Store) (hierarchy : HierarchyId) : Prop where
  nodeIds : (s.nodes.map (·.id)).Nodup
  assetIds : (s.assets.map (·.id)).Nodup
  keys : ((s.rowsOf hierarchy).map (·.key)).Nodup
  canonical : ∀ row ∈ s.rowsOf hierarchy, ∃ key, Key.ofText? row.key = some key ∧ row.key = key.text

/-- The rows of a hierarchy whose keys have one segment. -/
def rootRows (s : Store) (hierarchy : HierarchyId) : List NodeRow :=
  (s.rowsOf hierarchy).filter fun row => (Key.ofText? row.key).any Key.isRoot

/-- The rows that a repair adds: assets without a node go to the root, if there is just one. -/
def homeward (s : Store) (hierarchy : HierarchyId) : List Attachment :=
  match s.rootRows hierarchy with
  | [root] => (s.orphans hierarchy).map (·, root.id)
  | _ => []

/-! ## Reading -/

theorem Orderly.legible (hs : s.Orderly hierarchy) : ∀ row ∈ s.rowsOf hierarchy, row.Legible :=
  fun row hrow => (hs.canonical row hrow).imp fun _ hkey => hkey.1

theorem Orderly.text_node (hs : s.Orderly hierarchy) {row : NodeRow} (hrow : row ∈ s.rowsOf hierarchy) :
    row.key = row.node.key.text := by
  obtain ⟨key, hread, htext⟩ := hs.canonical row hrow
  rw [NodeRow.node, hread]
  exact htext

/-- The nodes of a hierarchy as they are read: ascending by key, one for each row. -/
structure Lists (s : Store) (hierarchy : HierarchyId) (nodes : List Node) : Prop where
  perm : nodes.Perm ((s.rowsOf hierarchy).map NodeRow.node)
  ascending : (nodes.map (·.key)).Pairwise (· < ·)

theorem Orderly.exists_lists (hs : s.Orderly hierarchy) :
    ∃ nodes, s.nodesOf hierarchy = .ok nodes ∧ s.Lists hierarchy nodes := by
  obtain ⟨rows, hperm, hread⟩ := nodesOf_eq hs.legible
  refine ⟨_, hread, (sortNodes_perm _).trans (hperm.map _), ?_⟩
  rw [map_key_sortNodes]
  refine Key.pairwise_lt_sort (List.Nodup.of_map Key.text ?_)
  have htexts : ((rows.map NodeRow.node).map (·.key)).map Key.text = rows.map (·.key) := by
    rw [List.map_map, List.map_map]
    exact List.map_congr_left fun row hrow => (hs.text_node (hperm.mem_iff.1 hrow)).symm
  rw [htexts]
  exact (hperm.map _).nodup_iff.2 hs.keys

section Lists
variable {nodes : List Node}

theorem Lists.mem_iff (h : s.Lists hierarchy nodes) {node : Node} :
    node ∈ nodes ↔ ∃ row ∈ s.nodes, row.hierarchy = hierarchy ∧ row.node = node := by
  simp only [h.perm.mem_iff, List.mem_map, mem_rowsOf, and_assoc]

theorem Lists.roots (h : s.Lists hierarchy nodes) (hs : s.Orderly hierarchy) :
    (nodes.filter (·.key.isRoot)).Perm ((s.rootRows hierarchy).map NodeRow.node) := by
  refine (h.perm.filter _).trans (List.Perm.of_eq ?_)
  rw [List.filter_map, rootRows]
  refine congrArg (List.map NodeRow.node) (List.filter_congr fun row hrow => ?_)
  obtain ⟨key, hread, -⟩ := hs.canonical row hrow
  rw [Function.comp_apply, NodeRow.node, hread]
  rfl

end Lists

/-! ## Assets without a node -/

/-- Attaching known assets that a node does not have yet. -/
theorem addToNode_fresh {node : Node} (hnode : ∃ row ∈ s.nodes, row.id = node.id)
    {assets : List AssetId} (hn : assets.Nodup) (hnew : ∀ asset ∈ assets, (asset, node.id) ∉ s.attachments)
    (hassets : ∀ id ∈ assets, ∃ asset ∈ s.assets, asset.id = id) :
    addToNode node assets false s = .ok (⟨assets, 0⟩, s.plus (assets.map (·, node.id))) := by
  have hfresh : assets.eraseDups.filter (!s.isAttached · node.id) = assets := by
    rw [eraseDups_of_nodup hn, List.filter_eq_self]
    intro asset hasset
    simpa [isAttached] using hnew asset hasset
  obtain ⟨s', hforM, -⟩ := exists_forM_attach (·, node.id) assets fun asset hasset =>
    ⟨hassets asset hasset, hnode⟩
  obtain ⟨rfl, -⟩ := forM_attach (fun asset => (asset, node.id)) (nodup_links hn node.id) hnew hforM
  rw [addToNode, Transaction.get_bind, hfresh]
  exact Transaction.bind_eq_ok.2 ⟨0, s, rfl, Transaction.bind_eq_ok.2 ⟨(), _, hforM, rfl⟩⟩

theorem Orderly.addToNode_orphans (hs : s.Orderly hierarchy) {root : NodeRow} (hroot : root ∈ s.nodes) :
    addToNode root.node (s.orphans hierarchy) false s =
      .ok (⟨s.orphans hierarchy, 0⟩, s.plus ((s.orphans hierarchy).map (·, root.id))) := by
  refine addToNode_fresh ⟨root, hroot, rfl⟩ (nodup_orphans hs.assetIds hierarchy) ?_ ?_
  · exact fun asset hasset => (mem_orphans.1 hasset).2 root.id
  · exact fun asset hasset => (mem_orphans.1 hasset).1.imp fun _ h => ⟨h.1, h.2.1⟩

/-- The first part of a repair: assets without a node go to the root, if that is the only one. -/
def heal (hierarchy : HierarchyId) (roots : List Node) : Transaction Unit := do
  let s ← get
  match roots with
  | [root] => discard (addToNode root (s.orphans hierarchy) false)
  | _ => pure ()

theorem Lists.heal_eq {nodes : List Node} (h : s.Lists hierarchy nodes) (hs : s.Orderly hierarchy) :
    heal hierarchy (nodes.filter (·.key.isRoot)) s = .ok ((), s.plus (s.homeward hierarchy)) := by
  have hroots := h.roots hs
  generalize nodes.filter (·.key.isRoot) = roots at hroots ⊢
  rw [heal, Transaction.get_bind, homeward]
  have hnothing : s.plus [] = s := by rw [plus, List.append_nil]
  rcases hrows : s.rootRows hierarchy with _ | ⟨root, _ | ⟨other, rest⟩⟩
  · rw [hrows] at hroots
    obtain rfl := hroots.eq_nil
    exact congrArg (fun s => Except.ok ((), s)) hnothing.symm
  · rw [hrows] at hroots
    obtain rfl := List.perm_singleton.1 hroots
    have hroot : root ∈ s.rootRows hierarchy := hrows ▸ List.mem_singleton_self root
    have hadd := hs.addToNode_orphans (mem_rowsOf.1 (List.mem_of_mem_filter hroot)).1
    exact Transaction.map_eq_ok.2 ⟨_, hadd, rfl⟩
  · rw [hrows] at hroots
    have hlength := hroots.length_eq
    rcases roots with _ | ⟨_, _ | ⟨_, _⟩⟩
    · cases hlength
    · cases hlength
    · exact congrArg (fun s => Except.ok ((), s)) hnothing.symm

/-! ## The pass -/

/-- What a repair does once the assets without a node have been seen to. -/
theorem reconcile_of_heal {nodes : List Node} (hnodes : s.nodesOf hierarchy = .ok nodes)
    (hheal : heal hierarchy (nodes.filter (·.key.isRoot)) s = .ok ((), t))
    {pairs : List KeyedAsset} (hpairs : t.keyedAssets (t.rowsOf hierarchy) = .ok pairs)
    {totals : Totals} (htotals : totals = aggregate (nodes.map (·.key)) pairs false) :
    ∃ r, reconcile hierarchy .repair s = .ok r ∧
      r.1.drift = (drifted totals nodes).map (fun node =>
        ⟨node.key, node.amount, computedAmount totals node⟩) ∧
      r.1.orphans = s.orphans hierarchy ∧
      r.2 = (t.setAmounts (drifted totals nodes) (computedAmount totals)).unmark hierarchy := by
  subst htotals
  rw [reconcile, Transaction.get_bind, Transaction.lift_bind, hnodes, ok_bind]
  dsimp only
  generalize nodes.filter (·.key.isRoot) = roots at hheal ⊢
  rw [heal, Transaction.get_bind] at hheal
  rcases roots with _ | ⟨root, _ | ⟨other, rest⟩⟩
  · cases hheal
    dsimp only
    rw [Transaction.get_bind, Transaction.lift_bind, hpairs, ok_bind]
    exact ⟨_, rfl, rfl, rfl, rfl⟩
  · dsimp only at hheal ⊢
    rw [Transaction.bind_of_ok hheal, Transaction.get_bind, Transaction.lift_bind, hpairs, ok_bind]
    exact ⟨_, rfl, rfl, rfl, rfl⟩
  · cases hheal
    dsimp only
    rw [Transaction.get_bind, Transaction.lift_bind, hpairs, ok_bind]
    exact ⟨_, rfl, rfl, rfl, rfl⟩

/-- What the repair of a hierarchy makes of a store, and what it reports. -/
structure Mends (hierarchy : HierarchyId) (s t : Store) (report : Report) : Prop where
  /-- Each node of the hierarchy has the number of distinct assets that are attached, after the
  repair, to it or to nodes below it; all else of the rows is as it was. -/
  nodes : t.nodes = s.nodes.map fun row =>
    if row.hierarchy = hierarchy then { row with amount := (t.holdings hierarchy row.key).card }
    else row
  healed : ∀ root, s.rootRows hierarchy = [root] →
    t.attachments = s.attachments ++ report.orphans.map (·, root.id)
  rootless : (s.rootRows hierarchy).length ≠ 1 → t.attachments = s.attachments
  marked : t.marked = s.marked.filter (· != hierarchy)
  hierarchies : t.hierarchies = s.hierarchies
  assets : t.assets = s.assets
  distinct : report.orphans.Nodup
  orphans : ∀ id, id ∈ report.orphans ↔
    (∃ asset ∈ s.assets, asset.id = id ∧ asset.hierarchy = hierarchy) ∧
      ∀ node, (id, node) ∉ s.attachments
  ascending : (report.drift.map (·.key)).Pairwise (· < ·)
  drift : ∀ drift, drift ∈ report.drift ↔
    ∃ row ∈ s.nodes, row.hierarchy = hierarchy ∧ row.key = drift.key.text ∧
      drift.cached = row.amount ∧ drift.computed = (t.holdings hierarchy row.key).card ∧
      drift.cached ≠ drift.computed

/-! ## Amounts that are written -/

/-- A row after amounts have been written for some nodes, one after another. -/
def rewrite (nodes : List Node) (value : Node → Int) (row : NodeRow) : NodeRow :=
  nodes.foldl (fun row node => if row.id == node.id then { row with amount := value node } else row) row

theorem setAmounts_nodes (s : Store) (nodes : List Node) (value : Node → Int) :
    (s.setAmounts nodes value).nodes = s.nodes.map (rewrite nodes value) := by
  induction nodes generalizing s with
  | nil => exact (List.map_id s.nodes).symm
  | cons node rest ih =>
    refine (ih (s.setAmount node.id (value node))).trans ?_
    rw [setAmount, List.map_map]
    rfl

theorem rewrite_other {nodes : List Node} (value : Node → Int) {row : NodeRow}
    (h : ∀ node ∈ nodes, node.id ≠ row.id) : rewrite nodes value row = row := by
  induction nodes with
  | nil => rfl
  | cons node rest ih =>
    have hne : ¬(row.id == node.id) = true := fun heq =>
      h node List.mem_cons_self (beq_iff_eq.1 heq).symm
    rw [rewrite, List.foldl_cons, if_neg hne]
    exact ih fun other hother => h other (List.mem_cons_of_mem _ hother)

/-- A row takes the value that all its nodes have, or has it already. -/
theorem rewrite_eq {nodes : List Node} {value : Node → Int} {row : NodeRow} {amount : Int}
    (hvalue : ∀ node ∈ nodes, node.id = row.id → value node = amount)
    (hset : (∃ node ∈ nodes, node.id = row.id) ∨ row.amount = amount) :
    rewrite nodes value row = { row with amount } := by
  induction nodes generalizing row with
  | nil =>
    obtain ⟨_, hnode, -⟩ | rfl := hset
    · exact absurd hnode List.not_mem_nil
    · rfl
  | cons node rest ih =>
    have hrest : ∀ other ∈ rest, other.id = row.id → value other = amount := fun other hother =>
      hvalue other (List.mem_cons_of_mem _ hother)
    rw [rewrite, List.foldl_cons]
    by_cases hid : (row.id == node.id) = true
    · rw [if_pos hid, hvalue node List.mem_cons_self (beq_iff_eq.1 hid).symm]
      exact @ih { row with amount } hrest (Or.inr rfl)
    · rw [if_neg hid]
      refine ih hrest (hset.imp_left ?_)
      rintro ⟨other, hother, heq⟩
      rcases List.mem_cons.1 hother with rfl | hin
      · exact absurd (beq_iff_eq.2 heq.symm) hid
      · exact ⟨other, hin, heq⟩

theorem Orderly.eq_of_id (hs : s.Orderly hierarchy) {row other : NodeRow} (hrow : row ∈ s.nodes)
    (hother : other ∈ s.nodes) (heq : row.id = other.id) : row = other :=
  List.inj_on_of_nodup_map hs.nodeIds hrow hother heq

/-- Writing the values that differ gives every row of the hierarchy its value. -/
theorem Lists.map_rewrite {nodes : List Node} (h : s.Lists hierarchy nodes)
    (hs : s.Orderly hierarchy) {value : Node → Int} {amount : NodeRow → Int}
    (hvalue : ∀ row ∈ s.rowsOf hierarchy, value row.node = amount row) :
    s.nodes.map (rewrite (nodes.filter fun node => node.amount ≠ value node) value) =
      s.nodes.map fun row =>
        if row.hierarchy = hierarchy then { row with amount := amount row } else row := by
  refine List.map_congr_left fun row hrow => ?_
  -- a node with the id of the row has been read from that row
  have hsame : ∀ node ∈ nodes.filter (fun node => node.amount ≠ value node), node.id = row.id →
      row.hierarchy = hierarchy ∧ node = row.node := by
    intro node hnode hid
    obtain ⟨other, hother, hh, rfl⟩ := h.mem_iff.1 (List.mem_of_mem_filter hnode)
    obtain rfl := hs.eq_of_id hother hrow hid
    exact ⟨hh, rfl⟩
  by_cases hh : row.hierarchy = hierarchy
  · rw [if_pos hh]
    have hamount := hvalue row (mem_rowsOf.2 ⟨hrow, hh⟩)
    refine rewrite_eq (fun node hnode hid => (hsame node hnode hid).2 ▸ hamount) ?_
    by_cases hexact : row.amount = amount row
    · exact Or.inr hexact
    · refine Or.inl ⟨row.node, List.mem_filter.2 ⟨h.mem_iff.2 ⟨row, hrow, hh, rfl⟩, ?_⟩, rfl⟩
      rw [decide_eq_true_iff, hamount]
      exact hexact
  · rw [if_neg hh]
    exact rewrite_other _ fun node hnode hid => hh (hsame node hnode hid).1

/-- The nodes whose amounts are wrong are the rows of the hierarchy where both values differ. -/
theorem Lists.mem_drift {nodes : List Node} (h : s.Lists hierarchy nodes) (hs : s.Orderly hierarchy)
    {value : Node → Int} {amount : NodeRow → Int}
    (hvalue : ∀ row ∈ s.rowsOf hierarchy, value row.node = amount row) {drift : Drift} :
    drift ∈ (nodes.filter fun node => node.amount ≠ value node).map
        (fun node => ⟨node.key, node.amount, value node⟩) ↔
      ∃ row ∈ s.nodes, row.hierarchy = hierarchy ∧ row.key = drift.key.text ∧
        drift.cached = row.amount ∧ drift.computed = amount row ∧ drift.cached ≠ drift.computed := by
  rw [List.mem_map]
  constructor
  · rintro ⟨node, hnode, rfl⟩
    obtain ⟨hin, hdiffers⟩ := List.mem_filter.1 hnode
    obtain ⟨row, hrow, hh, rfl⟩ := h.mem_iff.1 hin
    have hof := mem_rowsOf.2 ⟨hrow, hh⟩
    exact ⟨row, hrow, hh, hs.text_node hof, rfl, hvalue row hof, of_decide_eq_true hdiffers⟩
  · rintro ⟨row, hrow, hh, hkey, hcached, hcomputed, hdiffers⟩
    have hof := mem_rowsOf.2 ⟨hrow, hh⟩
    rw [← hvalue row hof] at hcomputed
    have hsame : row.node.key = drift.key := Key.text_injective ((hs.text_node hof).symm.trans hkey)
    refine ⟨row.node, List.mem_filter.2 ⟨h.mem_iff.2 ⟨row, hrow, hh, rfl⟩, ?_⟩, ?_⟩
    · rw [decide_eq_true_iff, ← hcomputed]
      show row.amount ≠ drift.computed
      rwa [← hcached]
    · rw [hsame, ← hcomputed]
      show Drift.mk drift.key row.amount drift.computed = drift
      rw [← hcached]

/-- The computed amount of a node is the number of distinct assets at it or below it. -/
theorem Lists.computed_eq {nodes : List Node} (h : s.Lists hierarchy nodes) (hs : s.Orderly hierarchy)
    {pairs : List KeyedAsset} (hpairs : s.keyedAssets (s.rowsOf hierarchy) = .ok pairs) {row : NodeRow}
    (hrow : row ∈ s.rowsOf hierarchy) :
    computedAmount (aggregate (nodes.map (·.key)) pairs false) row.node =
      (s.holdings hierarchy row.key).card := by
  have hin : ∀ other ∈ s.rowsOf hierarchy, other.node.key ∈ nodes.map (·.key) := by
    intro other hother
    obtain ⟨hother, hh⟩ := mem_rowsOf.1 hother
    exact List.mem_map_of_mem (h.mem_iff.2 ⟨other, hother, hh, rfl⟩)
  rw [hs.text_node hrow]
  exact computedAmount_eq (fun other hother => ⟨_, hin other hother, hs.text_node hother⟩) hpairs
    (hin row hrow)

theorem Orderly.exists_mends (hs : s.Orderly hierarchy) :
    ∃ report t, reconcile hierarchy .repair s = .ok (report, t) ∧ Mends hierarchy s t report := by
  -- the amounts are computed after the assets without a node have been seen to
  let u := s.plus (s.homeward hierarchy)
  have hu : u.Orderly hierarchy := ⟨hs.nodeIds, hs.assetIds, hs.keys, hs.canonical⟩
  obtain ⟨nodes, hnodes, hlists⟩ := hs.exists_lists
  have hlists' : u.Lists hierarchy nodes := ⟨hlists.perm, hlists.ascending⟩
  obtain ⟨pairs, hpairs⟩ : ∃ pairs, u.keyedAssets (u.rowsOf hierarchy) = .ok pairs :=
    exists_keyedAssets hu.legible
  obtain ⟨⟨report, t⟩, hrun, hdrift, horphans, htables⟩ :=
    reconcile_of_heal hnodes (hlists.heal_eq hs) hpairs rfl
  dsimp only at hdrift horphans htables
  have hvalue : ∀ row ∈ s.rowsOf hierarchy,
      computedAmount (aggregate (nodes.map (·.key)) pairs false) row.node =
        (u.holdings hierarchy row.key).card := fun row hrow => hlists'.computed_eq hu hpairs hrow
  generalize aggregate (nodes.map (·.key)) pairs false = totals at hdrift htables hvalue
  have halike : Alike u t := by
    obtain ⟨hhosts, hassets, hrows⟩ := alike_setAmounts u (drifted totals nodes) (computedAmount totals)
    rw [htables]
    exact ⟨hhosts, hassets, hrows⟩
  have hlinks : t.attachments = s.attachments ++ s.homeward hierarchy := by
    rw [htables]
    exact setAmounts_attachments ..
  have hcomputed : ∀ row ∈ s.rowsOf hierarchy,
      computedAmount totals row.node = (t.holdings hierarchy row.key).card := fun row hrow => by
    rw [hvalue row hrow, holdings, holdings, halike.reach_eq, hlinks]
    rfl
  refine ⟨report, t, hrun, ?_⟩
  exact {
    nodes := by
      rw [← hlists.map_rewrite hs hcomputed, htables]
      exact setAmounts_nodes ..
    healed := fun root hroot => by rw [hlinks, homeward, hroot, horphans]
    rootless := fun hroots => by
      rw [hlinks, homeward]
      split
      · rename_i hone
        exact absurd (congrArg List.length hone) hroots
      · exact List.append_nil _
    marked := by
      rw [htables, unmark, setAmounts_marked]
      rfl
    hierarchies := halike.hierarchies
    assets := halike.assets
    distinct := horphans ▸ nodup_orphans hs.assetIds hierarchy
    orphans := fun id => by
      rw [horphans]
      exact mem_orphans
    ascending := by
      rw [hdrift, List.map_map]
      exact hlists.ascending.sublist (List.filter_sublist.map _)
    drift := fun drift => by
      rw [hdrift]
      exact hlists.mem_drift hs hcomputed }

/-! ## A second repair -/

section Again
variable {u : Store} {report again : Report}

theorem Mends.alike (h : Mends hierarchy s t report) : Alike s t := by
  refine ⟨h.hierarchies, h.assets, ?_⟩
  rw [h.nodes, List.map_map]
  refine List.map_congr_left fun row _ => ?_
  rw [Function.comp_apply]
  split <;> rfl

/-- The rows of the hierarchy after a repair. -/
theorem Mends.rowsOf (h : Mends hierarchy s t report) : t.rowsOf hierarchy =
    (s.rowsOf hierarchy).map fun row =>
      { row with amount := (t.holdings hierarchy row.key).card } := by
  rw [Store.rowsOf, h.nodes, List.filter_map]
  have hsame : ((·.hierarchy == hierarchy) ∘ fun row : NodeRow => if row.hierarchy = hierarchy then
      { row with amount := (t.holdings hierarchy row.key).card } else row) =
        (·.hierarchy == hierarchy) := by
    funext row
    rw [Function.comp_apply]
    split <;> rfl
  rw [hsame]
  exact List.map_congr_left fun row hrow => if_pos (mem_rowsOf.1 hrow).2

theorem Mends.orderly (h : Mends hierarchy s t report) (hs : s.Orderly hierarchy) :
    t.Orderly hierarchy where
  nodeIds := by
    rw [h.alike.map_eq fun _ => rfl]
    exact hs.nodeIds
  assetIds := h.assets ▸ hs.assetIds
  keys := by
    rw [h.rowsOf, List.map_map]
    exact hs.keys
  canonical row hrow := by
    rw [h.rowsOf] at hrow
    obtain ⟨old, hold, rfl⟩ := List.mem_map.1 hrow
    exact hs.canonical old hold

theorem Mends.rootRows (h : Mends hierarchy s t report) : t.rootRows hierarchy =
    (s.rootRows hierarchy).map fun row =>
      { row with amount := (t.holdings hierarchy row.key).card } := by
  rw [Store.rootRows, h.rowsOf, List.filter_map]
  rfl

/-- Where there is one root, no asset is left without a node. -/
theorem Mends.orphans_again (h : Mends hierarchy s t report) (h' : Mends hierarchy t u again)
    (hroots : (s.rootRows hierarchy).length = 1) : again.orphans = [] := by
  obtain ⟨root, hroot⟩ := List.length_eq_one_iff.1 hroots
  rw [List.eq_nil_iff_forall_not_mem]
  intro id hid
  obtain ⟨hasset, hnone⟩ := (h'.orphans id).1 hid
  rw [h.healed root hroot] at hnone
  have horphan : id ∈ report.orphans := (h.orphans id).2
    ⟨h.assets ▸ hasset, fun node hlink => hnone node (List.mem_append_left _ hlink)⟩
  exact hnone root.id (List.mem_append_right _ (List.mem_map_of_mem horphan))

theorem Mends.attachments_again (h : Mends hierarchy s t report) (h' : Mends hierarchy t u again) :
    u.attachments = t.attachments := by
  by_cases hroots : (t.rootRows hierarchy).length = 1
  · obtain ⟨root, hroot⟩ := List.length_eq_one_iff.1 hroots
    have hone : (s.rootRows hierarchy).length = 1 := by
      rwa [h.rootRows, List.length_map] at hroots
    rw [h'.healed root hroot, h.orphans_again h' hone]
    exact List.append_nil _
  · exact h'.rootless hroots

/-- A second repair changes nothing. -/
theorem Mends.eq_again (h : Mends hierarchy s t report) (h' : Mends hierarchy t u again) : u = t := by
  have hlinks := h.attachments_again h'
  have hholdings : ∀ k, u.holdings hierarchy k = t.holdings hierarchy k := by
    intro k
    rw [holdings, holdings, ← h'.alike.reach_eq, hlinks]
  have hnodes : u.nodes = t.nodes := by
    rw [h'.nodes, h.nodes, List.map_map]
    refine List.map_congr_left fun row _ => ?_
    rw [Function.comp_apply]
    by_cases hh : row.hierarchy = hierarchy
    · rw [if_pos hh, if_pos hh, hholdings]
    · rw [if_neg hh, if_neg hh]
  have hmarked : u.marked = t.marked := by
    rw [h'.marked, h.marked, List.filter_filter]
    exact List.filter_congr fun _ _ => Bool.and_self _
  cases u
  cases t
  rw [mk.injEq]
  exact ⟨h'.hierarchies, hnodes, h'.assets, hlinks, hmarked⟩

theorem Mends.drift_again (h : Mends hierarchy s t report) (h' : Mends hierarchy t t again) :
    again.drift = [] := by
  rw [List.eq_nil_iff_forall_not_mem]
  intro drift hdrift
  obtain ⟨row, hrow, hh, -, hcached, hcomputed, hdiffers⟩ := (h'.drift drift).1 hdrift
  have hof := mem_rowsOf.2 ⟨hrow, hh⟩
  rw [h.rowsOf] at hof
  obtain ⟨old, -, rfl⟩ := List.mem_map.1 hof
  exact hdiffers (hcached.trans hcomputed.symm)

end Again

/-- A repair sets right whatever it finds: it makes the amounts of the hierarchy exact, attaches
assets without a node to the root if there is just one, takes the mark away, changes nothing else,
and reports what it has set right; a second one changes nothing and finds no drift. -/
theorem Orderly.repair_settles (hs : s.Orderly hierarchy) :
    ∃ report t, reconcile hierarchy .repair s = .ok (report, t) ∧ Mends hierarchy s t report ∧
      ∃ again, reconcile hierarchy .repair t = .ok (again, t) ∧ again.drift = [] ∧
        (again.orphans ≠ [] → (s.rootRows hierarchy).length ≠ 1) := by
  obtain ⟨report, t, hrun, hmends⟩ := hs.exists_mends
  obtain ⟨again, u, hrun', hmends'⟩ := (hmends.orderly hs).exists_mends
  obtain rfl := hmends.eq_again hmends'
  exact ⟨report, u, hrun, hmends, again, hrun', hmends.drift_again hmends',
    fun horphans hone => horphans (hmends.orphans_again hmends' hone)⟩

/-- A store with wrong amounts, a gap between its nodes and an asset without a node. -/
def ruin : Store where
  hierarchies := [⟨1, "Ruin"⟩]
  nodes := [⟨1, 1, "1", "", "Ruin", "Ruin", 7⟩, ⟨2, 1, "1:2:3", "1:2", "Crypt", "Ruin/Vault/Crypt", -1⟩]
  assets := [⟨1, 1, "Urn"⟩, ⟨2, 1, "Coin"⟩]
  attachments := [(1, 2)]
  marked := [1]

theorem orderly_ruin : ruin.Orderly 1 where
  nodeIds := by decide
  assetIds := by decide
  keys := by decide
  canonical row hrow := by
    rcases List.mem_cons.1 hrow with rfl | hrow
    · exact ⟨⟨1, []⟩, by decide⟩
    · obtain rfl := List.mem_singleton.1 hrow
      exact ⟨⟨1, [2, 3]⟩, by decide⟩

theorem repair_settles_ruin : ∃ report t, reconcile 1 .repair ruin = .ok (report, t) ∧
    (2, 1) ∈ t.attachments ∧ t.marked = [] ∧
      ∃ again, reconcile 1 .repair t = .ok (again, t) ∧ again.drift = [] ∧ again.orphans = [] := by
  obtain ⟨report, t, hrun, hmends, again, hrun', hdrift, horphans⟩ := Orderly.repair_settles orderly_ruin
  have hroots : ruin.rootRows 1 = [⟨1, 1, "1", "", "Ruin", "Ruin", 7⟩] := by decide
  refine ⟨report, t, hrun, ?_, hmends.marked, again, hrun', hdrift, ?_⟩
  · rw [hmends.healed _ hroots]
    refine List.mem_append_right _ (List.mem_map_of_mem ((hmends.orphans 2).2 ?_))
    exact ⟨⟨⟨2, 1, "Coin"⟩, by decide⟩, fun node => by simp [ruin]⟩
  · exact not_not.1 fun hsome => horphans hsome (congrArg List.length hroots)

end Inventory.Store
