import Inventory.Proofs.Attaching
import Inventory.Proofs.Totals
import Inventory.Reconcile

/-! # What a repair makes of the amounts

The totals of a hierarchy are the sizes of the holdings of its nodes. A repair writes them where the
cached amounts differ, so that afterwards every amount of the hierarchy is exact, and nothing but
amounts and the mark has changed. -/
namespace Inventory
set_option autoImplicit false

theorem mem_of_mapM_eq_ok {ε α β : Type} {f : α → Except ε β} {items : List α} {answers : List β}
    (h : items.mapM f = .ok answers) {answer : β} :
    answer ∈ answers ↔ ∃ item ∈ items, f item = .ok answer := by
  induction items generalizing answers with
  | nil =>
    rw [List.mapM_nil] at h
    cases h
    simp
  | cons item items ih =>
    rw [List.mapM_cons, bind_eq_ok] at h
    obtain ⟨first, hfirst, h⟩ := h
    obtain ⟨others, hothers, h⟩ := bind_eq_ok.1 h
    cases h
    rw [List.mem_cons, ih hothers]
    constructor
    · rintro (rfl | ⟨i, hi, hanswer⟩)
      · exact ⟨item, List.mem_cons_self .., hfirst⟩
      · exact ⟨i, List.mem_cons_of_mem _ hi, hanswer⟩
    · rintro ⟨i, hi, hanswer⟩
      rcases List.mem_cons.1 hi with rfl | hi
      · exact Or.inl (Except.ok.inj (hanswer.symm.trans hfirst))
      · exact Or.inr ⟨i, hi, hanswer⟩

theorem exists_of_mapM_eq_ok {ε α β : Type} {f : α → Except ε β} {items : List α} {answers : List β}
    (h : items.mapM f = .ok answers) {item : α} (hitem : item ∈ items) :
    ∃ answer ∈ answers, f item = .ok answer := by
  induction items generalizing answers with
  | nil => exact absurd hitem List.not_mem_nil
  | cons first items ih =>
    rw [List.mapM_cons, bind_eq_ok] at h
    obtain ⟨answer, hanswer, h⟩ := h
    obtain ⟨others, hothers, h⟩ := bind_eq_ok.1 h
    cases h
    rcases List.mem_cons.1 hitem with rfl | hin
    · exact ⟨answer, List.mem_cons_self .., hanswer⟩
    · obtain ⟨found, hfound, heq⟩ := ih hothers hin
      exact ⟨found, List.mem_cons_of_mem _ hfound, heq⟩

namespace Store
variable {s s' : Store}

/-! ## Computed amounts -/

theorem mem_directAssets {asset : AssetId} {node : NodeId} :
    asset ∈ s.directAssets node ↔ (asset, node) ∈ s.attachments := by
  simp only [directAssets, sortIds, List.mem_mergeSort, List.mem_map, List.mem_filter, beq_iff_eq]
  constructor
  · rintro ⟨⟨a, n⟩, ⟨hlink, rfl⟩, rfl⟩
    exact hlink
  · exact fun hlink => ⟨(asset, node), ⟨hlink, rfl⟩, rfl⟩

theorem mem_keyedAssets {rows : List NodeRow} (hrows : ∀ row ∈ rows, ∃ key : Key, row.key = key.text)
    {pairs : List KeyedAsset} (h : s.keyedAssets rows = .ok pairs) {key : Key} {asset : AssetId} :
    (key, asset) ∈ pairs ↔ ∃ row ∈ rows, row.key = key.text ∧ (asset, row.id) ∈ s.attachments := by
  obtain ⟨lists, hlists, rfl⟩ := map_eq_ok.1 h
  rw [List.mem_flatten]
  constructor
  · rintro ⟨list, hlist, hin⟩
    obtain ⟨row, hrow, hread⟩ := (mem_of_mapM_eq_ok hlists).1 hlist
    rw [List.mem_mergeSort] at hrow
    obtain ⟨k, hk⟩ := hrows row hrow
    split at hread
    · cases hread
      exact absurd hin List.not_mem_nil
    · obtain ⟨k', hk', rfl⟩ := map_eq_ok.1 hread
      rw [NodeRow.readKey_eq_ok hk hk'] at hin
      obtain ⟨a, ha, heq⟩ := List.mem_map.1 hin
      cases heq
      exact ⟨row, hrow, hk, mem_directAssets.1 ha⟩
  · rintro ⟨row, hrow, hk, hlink⟩
    obtain ⟨list, hlist, hread⟩ := exists_of_mapM_eq_ok hlists (List.mem_mergeSort.2 hrow)
    refine ⟨list, hlist, ?_⟩
    have hin := mem_directAssets.2 hlink
    split at hread
    · rename_i hnone
      rw [hnone] at hin
      exact absurd hin List.not_mem_nil
    · obtain ⟨k', hk', rfl⟩ := map_eq_ok.1 hread
      rw [NodeRow.readKey_eq_ok hk hk']
      exact List.mem_map_of_mem hin

/-- Rows of a hierarchy make up what a key holds if all that stand below the key are among them. -/
theorem below_keyedAssets {hierarchy : HierarchyId} {rows : List NodeRow}
    (hrows : ∀ row ∈ rows, row ∈ s.rowsOf hierarchy) {keys : List Key}
    (hkeys : ∀ row ∈ rows, ∃ key ∈ keys, row.key = key.text) {pairs : List KeyedAsset}
    (hpairs : s.keyedAssets rows = .ok pairs) {top : Key}
    (hall : ∀ row ∈ s.nodes, row.isWithin hierarchy top.text = true → row ∈ rows) :
    Totals.below ((Key.ascending keys).map (Totals.directTally pairs)) top =
      s.holdings hierarchy top.text := by
  have hcanonical : ∀ row ∈ rows, ∃ key : Key, row.key = key.text := fun row hrow =>
    (hkeys row hrow).imp fun _ hkey => hkey.2
  ext asset
  rw [Totals.mem_below_directTally, mem_holdings]
  constructor
  · rintro ⟨k, -, hd, hpair⟩
    obtain ⟨row, hrow, hk, hlink⟩ := (mem_keyedAssets hcanonical hpairs).1 hpair
    obtain ⟨hmem, hh⟩ := mem_rowsOf.1 (hrows row hrow)
    exact ⟨row, hmem, (isWithin_iff hk).2 ⟨hh, hd⟩, hlink⟩
  · rintro ⟨row, hrow, hwithin, hlink⟩
    have hof := hall row hrow hwithin
    obtain ⟨k, hin, hk⟩ := hkeys row hof
    exact ⟨k, hin, ((isWithin_iff hk).1 hwithin).2, (mem_keyedAssets hcanonical hpairs).2
      ⟨row, hof, hk, hlink⟩⟩

/-- Totals over the keys of a hierarchy are the numbers of what its nodes hold, if these keys are
canonical. -/
theorem computedAmount_eq {hierarchy : HierarchyId} {keys : List Key}
    (hkeys : ∀ row ∈ s.rowsOf hierarchy, ∃ key ∈ keys, row.key = key.text) {pairs : List KeyedAsset}
    (hpairs : s.keyedAssets (s.rowsOf hierarchy) = .ok pairs) {node : Node} (hnode : node.key ∈ keys) :
    computedAmount (aggregate keys pairs false) node =
      (s.holdings hierarchy node.key.text).card := by
  have hall : ∀ row ∈ s.nodes, row.isWithin hierarchy node.key.text = true →
      row ∈ s.rowsOf hierarchy := fun row hrow hwithin =>
    mem_rowsOf.2 ⟨hrow, hierarchy_of_isWithin hwithin⟩
  rw [computedAmount, Totals.count?_aggregate pairs false hnode,
    below_keyedAssets (fun _ hrow => hrow) hkeys hpairs hall, Option.getD_some]

theorem computedAmount_of_perm {hierarchy : HierarchyId} {nodes : List Node}
    (hnodes : (nodes.map Node.row).Perm (s.rowsOf hierarchy)) {pairs : List KeyedAsset}
    (hpairs : s.keyedAssets (s.rowsOf hierarchy) = .ok pairs) {node : Node} (hnode : node ∈ nodes) :
    computedAmount (aggregate (nodes.map (·.key)) pairs false) node =
      (s.holdings hierarchy node.key.text).card := by
  refine computedAmount_eq (fun row hrow => ?_) hpairs (List.mem_map_of_mem hnode)
  obtain ⟨other, hother, rfl⟩ := List.mem_map.1 (hnodes.mem_iff.2 hrow)
  exact ⟨other.key, List.mem_map_of_mem hother, rfl⟩

/-! ## Writing amounts -/

/-- Writing amounts of some nodes, one after another. -/
def setAmounts (s : Store) (nodes : List Node) (value : Node → Int) : Store :=
  nodes.foldl (fun s node => s.setAmount node.id (value node)) s

theorem alike_setAmounts (s : Store) (nodes : List Node) (value : Node → Int) :
    Alike s (s.setAmounts nodes value) := by
  induction nodes generalizing s with
  | nil => exact Alike.refl s
  | cons node rest ih => exact (alike_setAmount s node.id (value node)).trans (ih _)

theorem setAmounts_attachments (s : Store) (nodes : List Node) (value : Node → Int) :
    (s.setAmounts nodes value).attachments = s.attachments := by
  induction nodes generalizing s with
  | nil => rfl
  | cons node rest ih => exact ih _

theorem setAmounts_marked (s : Store) (nodes : List Node) (value : Node → Int) :
    (s.setAmounts nodes value).marked = s.marked := by
  induction nodes generalizing s with
  | nil => rfl
  | cons node rest ih => exact ih _

/-- A row afterwards is either an old one or has the value written for its node. -/
theorem mem_setAmounts {nodes : List Node} {value : Node → Int} {row : NodeRow}
    (h : row ∈ (s.setAmounts nodes value).nodes) :
    (row ∈ s.nodes ∧ ∀ node ∈ nodes, node.id ≠ row.id) ∨
      ∃ node ∈ nodes, node.id = row.id ∧ row.amount = value node := by
  induction nodes generalizing s with
  | nil => exact Or.inl ⟨h, fun _ hnode => absurd hnode List.not_mem_nil⟩
  | cons node rest ih =>
    rcases ih (s := s.setAmount node.id (value node)) h with ⟨hrow, hothers⟩ | ⟨found, hfound, hset⟩
    · rw [setAmount, List.mem_map] at hrow
      obtain ⟨old, hold, heq⟩ := hrow
      by_cases hid : (old.id == node.id) = true
      · rw [if_pos hid] at heq
        subst heq
        exact Or.inr ⟨node, List.mem_cons_self .., (beq_iff_eq.1 hid).symm, rfl⟩
      · rw [if_neg hid] at heq
        subst heq
        refine Or.inl ⟨hold, fun other hother => ?_⟩
        rcases List.mem_cons.1 hother with rfl | hin
        · exact fun heq => hid (beq_iff_eq.2 heq.symm)
        · exact hothers other hin
    · exact Or.inr ⟨found, List.mem_cons_of_mem _ hfound, hset⟩

/-! ## The repair -/

theorem orphans_eq_nil (hs : s.Placed) (hierarchy : HierarchyId) : s.orphans hierarchy = [] := by
  rw [List.eq_nil_iff_forall_not_mem]
  intro id hid
  obtain ⟨⟨asset, hasset, rfl, -⟩, hnone⟩ := mem_orphans.1 hid
  obtain ⟨node, hlink⟩ := hs asset hasset
  exact hnone node hlink

/-- What is reported of a hierarchy all of whose assets are attached. -/
def examined (s : Store) (hierarchy : HierarchyId) (mode : Mode) (nodes : List Node)
    (totals : Totals) : Report :=
  let drift := (drifted totals nodes).map fun node =>
    Drift.mk node.key node.amount (computedAmount totals node)
  let findings := (Report.rootFindings (nodes.filter (·.key.isRoot)) ++
    Report.parentFindings nodes).take Report.maxFindings
  { hierarchy, mode, drift, findings
    orphans := []
    clean := drift.isEmpty && findings.isEmpty
    nodesChecked := nodes.length
    assetsChecked := (s.assetsOf hierarchy).length }

/-- Where all assets are attached, a reconciliation only compares and writes amounts. -/
theorem reconcile_placed (hs : s.Placed) (hierarchy : HierarchyId) (mode : Mode) :
    reconcile hierarchy mode s = do
      let nodes ← s.nodesOf hierarchy
      let pairs ← s.keyedAssets (s.rowsOf hierarchy)
      let totals := aggregate (nodes.map (·.key)) pairs false
      return (s.examined hierarchy mode nodes totals,
        if mode = .repair
        then (s.setAmounts (drifted totals nodes) (computedAmount totals)).unmark hierarchy
        else s) := by
  rw [reconcile, Transaction.get_bind, Transaction.lift_bind]
  refine congrArg (s.nodesOf hierarchy >>= ·) (funext fun nodes => ?_)
  have hfindings : ∀ roots, Report.orphanFindings mode roots [] = [] := fun _ => rfl
  simp only [orphans_eq_nil hs, hfindings, List.append_nil, List.isEmpty_nil, Bool.and_true,
    examined]
  generalize nodes.filter (·.key.isRoot) = roots
  -- attaching no assets to a root changes nothing
  have hnothing : ∀ (root : Node) (next : PUnit → Transaction Report),
      (discard (addToNode root [] false) >>= next) s = next ⟨⟩ s := fun _ _ => rfl
  cases mode with
  | checkOnly =>
    dsimp only
    rw [Transaction.get_bind, Transaction.lift_bind]
    rfl
  | repair =>
    rcases roots with _ | ⟨root, _ | _⟩
    · dsimp only
      rw [Transaction.get_bind, Transaction.lift_bind]
      rfl
    · dsimp only
      rw [hnothing, Transaction.get_bind, Transaction.lift_bind]
      rfl
    · dsimp only
      rw [Transaction.get_bind, Transaction.lift_bind]
      rfl

theorem reconcile_eq_ok (hs : s.Sound) {hierarchy : HierarchyId} {report : Report}
    (h : reconcile hierarchy .repair s = .ok (report, s')) :
    ∃ nodes pairs, (nodes.map Node.row).Perm (s.rowsOf hierarchy) ∧
      s.keyedAssets (s.rowsOf hierarchy) = .ok pairs ∧
      s' = (s.setAmounts (drifted (aggregate (nodes.map (·.key)) pairs false) nodes)
        (computedAmount (aggregate (nodes.map (·.key)) pairs false))).unmark hierarchy := by
  rw [reconcile_placed hs.placed] at h
  obtain ⟨nodes, hnodes, h⟩ := Inventory.bind_eq_ok.1 h
  obtain ⟨pairs, hpairs, h⟩ := Inventory.bind_eq_ok.1 h
  cases h
  exact ⟨nodes, pairs, hs.formed.nodesOf hnodes, hpairs, rfl⟩

theorem counted_repaired (hs : s.Sound) {hierarchy : HierarchyId} {nodes : List Node}
    {pairs : List KeyedAsset} (hnodes : (nodes.map Node.row).Perm (s.rowsOf hierarchy))
    (hpairs : s.keyedAssets (s.rowsOf hierarchy) = .ok pairs) {totals : Totals}
    (htotals : totals = aggregate (nodes.map (·.key)) pairs false) :
    ∀ row ∈ (s.setAmounts (drifted totals nodes) (computedAmount totals)).nodes,
      row.hierarchy = hierarchy → row.amount = (s.holdings hierarchy row.key).card := by
  subst htotals
  intro row hrow hh
  have hvalue : ∀ node ∈ nodes, computedAmount (aggregate (nodes.map (·.key)) pairs false) node =
      (s.holdings hierarchy node.key.text).card := fun node hnode =>
    computedAmount_of_perm hnodes hpairs hnode
  have hin : ∀ node ∈ nodes, node.row ∈ s.nodes := fun node hnode =>
    (mem_rowsOf.1 (hnodes.mem_iff.1 (List.mem_map_of_mem hnode))).1
  rcases mem_setAmounts hrow with ⟨hold, hkept⟩ | ⟨node, hnode, hid, hset⟩
  · obtain ⟨node, hnode, rfl⟩ :=
      List.mem_map.1 (hnodes.mem_iff.2 (mem_rowsOf.2 ⟨hold, hh⟩))
    by_contra hne
    refine hkept node (List.mem_filter.2 ⟨hnode, ?_⟩) rfl
    rw [decide_eq_true_iff, hvalue node hnode]
    exact hne
  · have hmem := List.mem_of_mem_filter hnode
    obtain ⟨old, hold, hid', -, hk, -⟩ := (alike_setAmounts s _ _).exists_row hrow
    rw [hset, hvalue node hmem, ← hk,
      ← hs.formed.eq_of_id (hin node hmem) hold (hid.trans hid'.symm)]
    rfl

theorem reconcile_sound (hs : s.Sound) {hierarchy : HierarchyId} {report : Report}
    (h : reconcile hierarchy .repair s = .ok (report, s')) :
    s'.Sound ∧ s'.attachments = s.attachments ∧ s'.assets = s.assets ∧
      s'.marked = s.marked.filter (· != hierarchy) := by
  obtain ⟨nodes, pairs, hnodes, hpairs, rfl⟩ := reconcile_eq_ok hs h
  have hcounted := counted_repaired hs hnodes hpairs rfl
  generalize aggregate (nodes.map (·.key)) pairs false = totals at hcounted ⊢
  have halike := alike_setAmounts s (drifted totals nodes) (computedAmount totals)
  have hlinks := setAmounts_attachments s (drifted totals nodes) (computedAmount totals)
  have hmarked := setAmounts_marked s (drifted totals nodes) (computedAmount totals)
  have hrows : ∀ row ∈ (s.setAmounts (drifted totals nodes) (computedAmount totals)).nodes,
      row ∈ s.nodes ∨ row.hierarchy = hierarchy := by
    intro row hrow
    rcases mem_setAmounts hrow with ⟨hold, -⟩ | ⟨node, hnode, hid, -⟩
    · exact Or.inl hold
    · right
      have hmem := mem_rowsOf.1
        (hnodes.mem_iff.1 (List.mem_map_of_mem (List.mem_of_mem_filter hnode)))
      obtain ⟨old, hold, hid', hh, -, -⟩ := halike.exists_row hrow
      rw [← hh, hs.formed.eq_of_id hold hmem.1 (hid'.trans hid.symm)]
      exact hmem.2
  generalize s.setAmounts (drifted totals nodes) (computedAmount totals) = t at *
  have hholdings : ∀ h k, (t.unmark hierarchy).holdings h k = s.holdings h k := by
    intro h k
    rw [holdings, holdings, ← halike.reach_eq]
    exact congrArg (reach t.nodes · h k) hlinks
  refine ⟨⟨⟨?_, ?_, ?_, ?_, ?_⟩, ?_⟩, hlinks, halike.assets, ?_⟩
  · have hsame : Alike t (t.unmark hierarchy) := ⟨rfl, rfl, rfl⟩
    exact hsame.formed (halike.formed hs.formed)
  · exact (congrArg List.Nodup hlinks).mpr hs.single
  · intro link hlink
    exact halike.joins hs.joined link ((congrArg (link ∈ ·) hlinks).mp hlink)
  · exact halike.parented hs.parented
  · intro row hrow hunmarked
    rw [hholdings]
    by_cases hh : row.hierarchy = hierarchy
    · rw [hh]
      exact hcounted row hrow hh
    · refine hs.settled row ((hrows row hrow).resolve_right hh) fun hmark => hunmarked ?_
      rw [unmark, List.mem_filter, hmarked, bne_iff_ne]
      exact ⟨hmark, hh⟩
  · intro asset hasset
    obtain ⟨node, hlink⟩ := hs.placed asset (halike.assets ▸ hasset)
    exact ⟨node, (congrArg ((asset.id, node) ∈ ·) hlinks).mpr hlink⟩
  · rw [unmark, hmarked]

end Store
end Inventory
