import Inventory.Proofs.Store.Relation

/-! # When transactions go through

Nothing but a missing row, or a key whose text cannot be read, stops a move. -/
namespace Inventory
set_option autoImplicit false

/-- The text of the key can be read. -/
def NodeRow.Legible (row : NodeRow) : Prop := ∃ key, Key.ofText? row.key = some key

/-- The node that a row with a readable key is read as. -/
def NodeRow.node (row : NodeRow) : Node :=
  ⟨row.id, row.hierarchy, (Key.ofText? row.key).getD default, row.value, row.fullValue, row.amount⟩

theorem NodeRow.Legible.read_eq {row : NodeRow} (h : row.Legible) : row.read = .ok row.node := by
  obtain ⟨key, hkey⟩ := h
  rw [NodeRow.read, readKey, node, hkey]
  rfl

theorem NodeRow.Legible.read {row : NodeRow} (h : row.Legible) : ∃ node, row.read = .ok node :=
  ⟨row.node, h.read_eq⟩

theorem NodeRow.legible_of_read {row : NodeRow} {node : Node} (h : row.read = .ok node) :
    row.Legible := by
  rw [NodeRow.read, bind_eq_ok] at h
  obtain ⟨key, hkey, -⟩ := h
  rw [readKey] at hkey
  cases hread : Key.ofText? row.key with
  | none => rw [hread] at hkey; cases hkey
  | some found => exact ⟨found, hread⟩

theorem exists_mapM {α β : Type} {read : α → Except Error β} (items : List α)
    (h : ∀ item ∈ items, ∃ answer, read item = .ok answer) :
    ∃ answers, items.mapM read = .ok answers := by
  induction items with
  | nil => exact ⟨[], rfl⟩
  | cons item rest ih =>
    obtain ⟨answer, hanswer⟩ := h item List.mem_cons_self
    obtain ⟨answers, hanswers⟩ := ih fun other hother => h other (List.mem_cons_of_mem _ hother)
    refine ⟨answer :: answers, ?_⟩
    rw [List.mapM_cons, bind_eq_ok]
    refine ⟨answer, hanswer, bind_eq_ok.2 ⟨answers, hanswers, rfl⟩⟩

theorem mapM_read_eq {rows : List NodeRow} (h : ∀ row ∈ rows, row.Legible) :
    rows.mapM NodeRow.read = .ok (rows.map NodeRow.node) := by
  induction rows with
  | nil => rfl
  | cons row rest ih =>
    rw [List.mapM_cons, (h row List.mem_cons_self).read_eq,
      ih fun other hother => h other (List.mem_cons_of_mem _ hother)]
    rfl

theorem exists_mapM_read (rows : List NodeRow) (h : ∀ row ∈ rows, row.Legible) :
    ∃ nodes, rows.mapM NodeRow.read = .ok nodes := ⟨_, mapM_read_eq h⟩

namespace Store
variable {s t : Store}

theorem requireNode_read {id : NodeId} {node : Node} (h : s.requireNode id = .ok node) :
    ∃ row ∈ s.nodes, row.id = id ∧ row.read = .ok node := by
  rw [requireNode, bind_eq_ok] at h
  obtain ⟨found, hfound, h⟩ := h
  cases found with
  | none => cases h
  | some found =>
    cases h
    rw [node?] at hfound
    cases hrow : s.nodes.find? (·.id == id) with
    | none => rw [hrow] at hfound; cases hfound
    | some row =>
      rw [hrow] at hfound
      obtain ⟨read, hread, heq⟩ := map_eq_ok.1 hfound
      cases heq
      exact ⟨row, List.mem_of_find?_eq_some hrow, by simpa using List.find?_some hrow, hread⟩

theorem requireNode_legible {id : NodeId} {node : Node} (h : s.requireNode id = .ok node) :
    ∃ row ∈ s.nodes, row.id = id ∧ row.Legible := by
  obtain ⟨row, hrow, hid, hread⟩ := requireNode_read h
  exact ⟨row, hrow, hid, NodeRow.legible_of_read hread⟩

theorem requireNode_eq (hids : (s.nodes.map (·.id)).Nodup) {row : NodeRow} (hrow : row ∈ s.nodes)
    (h : row.Legible) : s.requireNode row.id = .ok row.node := by
  have hfind : s.nodes.find? (·.id == row.id) = some row := by
    cases hfound : s.nodes.find? (·.id == row.id) with
    | none => simpa using List.find?_eq_none.1 hfound row hrow
    | some other =>
      have hother : other.id = row.id := by simpa using List.find?_some hfound
      rw [List.inj_on_of_nodup_map hids (List.mem_of_find?_eq_some hfound) hrow hother]
  rw [requireNode, node?, hfind]
  show ((some <$> row.read) >>= _) = _
  rw [h.read_eq]
  rfl

theorem Formed.exists_requireNode (hs : s.Formed) {id : NodeId} {row : NodeRow}
    (hrow : row ∈ s.nodes) (hid : row.id = id) (h : row.Legible) :
    ∃ node, s.requireNode id = .ok node := ⟨row.node, hid ▸ requireNode_eq hs.nodeIds hrow h⟩

theorem Alike.exists_requireNode (h : Alike s t) (hs : s.Formed) {id : NodeId} {node : Node}
    (hnode : s.requireNode id = .ok node) : ∃ other, t.requireNode id = .ok other := by
  obtain ⟨row, hrow, hid, key, hkey⟩ := requireNode_legible hnode
  obtain ⟨new, hnew, hid', -, hkey', -⟩ := h.symm.exists_row hrow
  exact (h.formed hs).exists_requireNode hnew (hid'.trans hid) ⟨key, hkey' ▸ hkey⟩

/-! ## Reading a hierarchy -/

theorem nodesOf_eq {hierarchy : HierarchyId} (h : ∀ row ∈ s.rowsOf hierarchy, row.Legible) :
    ∃ rows : List NodeRow, rows.Perm (s.rowsOf hierarchy) ∧
      s.nodesOf hierarchy = .ok (sortNodes (rows.map NodeRow.node)) := by
  refine ⟨_, List.mergeSort_perm _ fun a b => decide (a.parentKey ≤ b.parentKey), ?_⟩
  rw [nodesOf, mapM_read_eq fun row hrow => h row (List.mem_mergeSort.1 hrow)]
  rfl

theorem exists_keyedAssets {rows : List NodeRow} (h : ∀ row ∈ rows, row.Legible) :
    ∃ pairs, s.keyedAssets rows = .ok pairs := by
  rw [keyedAssets]
  refine (exists_mapM _ fun row hrow => ?_).elim fun lists hlists =>
    ⟨lists.flatten, map_eq_ok.2 ⟨lists, hlists, rfl⟩⟩
  obtain ⟨key, hkey⟩ := h row (List.mem_mergeSort.1 hrow)
  cases s.directAssets row.id with
  | nil => exact ⟨[], rfl⟩
  | cons asset rest =>
    refine ⟨(asset :: rest).map (key, ·), ?_⟩
    rw [NodeRow.readKey, hkey]
    rfl

/-! ## Transactions that cannot fail -/

theorem exists_attach {asset : AssetId} {node : NodeId} (hasset : ∃ known ∈ s.assets, known.id = asset)
    (hnode : ∃ row ∈ s.nodes, row.id = node) :
    ∃ s', attach asset node s = .ok ((), s') ∧ s'.nodes = s.nodes ∧ s'.assets = s.assets ∧
      s'.hierarchies = s.hierarchies := by
  rw [attach, Transaction.get_bind]
  by_cases hold : s.attachments.contains (asset, node) = true
  · rw [if_pos hold]
    exact ⟨s, rfl, rfl, rfl, rfl⟩
  · rw [if_neg hold]
    have hknown : ((s.asset? asset).isNone || !(s.nodes.any (·.id == node))) = false := by
      obtain ⟨known, hknown, hid⟩ := hasset
      obtain ⟨row, hrow, hrid⟩ := hnode
      have hfound : (s.asset? asset).isNone = false := by
        rw [Option.isNone_eq_false_iff, asset?, List.find?_isSome]
        exact ⟨known, hknown, beq_iff_eq.2 hid⟩
      have hany : s.nodes.any (·.id == node) = true :=
        List.any_eq_true.2 ⟨row, hrow, beq_iff_eq.2 hrid⟩
      rw [hfound, hany]
      rfl
    rw [hknown]
    exact ⟨_, rfl, rfl, rfl, rfl⟩

theorem exists_forM_attach {α : Type} (link : α → Attachment) (items : List α)
    (h : ∀ item ∈ items, (∃ known ∈ s.assets, known.id = (link item).1) ∧
      ∃ row ∈ s.nodes, row.id = (link item).2) :
    ∃ s', (items.forM fun item => attach (link item).1 (link item).2) s = .ok ((), s') ∧
      s'.hierarchies = s.hierarchies := by
  induction items generalizing s with
  | nil => exact ⟨s, rfl, rfl⟩
  | cons item rest ih =>
    obtain ⟨hasset, hnode⟩ := h item List.mem_cons_self
    obtain ⟨s₁, hfirst, hnodes, hknown, hhosts⟩ := exists_attach hasset hnode
    obtain ⟨s₂, hrest, hhosts'⟩ := ih (s := s₁) fun other hother => by
      rw [hknown, hnodes]
      exact h other (List.mem_cons_of_mem _ hother)
    exact ⟨s₂, Transaction.bind_eq_ok.2 ⟨(), s₁, hfirst, hrest⟩, hhosts'.trans hhosts⟩

theorem exists_adjustForLosses (hierarchy : HierarchyId) (keys : List (NodeId × Key))
    (changes : List Change) (s : Store) :
    ∃ n s', adjustForLosses hierarchy keys changes s = .ok (n, s') := by
  induction changes generalizing s with
  | nil => exact ⟨0, s, rfl⟩
  | cons change rest ih =>
    obtain ⟨n, s', hrest⟩ := ih (Counts.adjustForAsset s .remove hierarchy change.asset
      (change.nodes.filterMap (List.lookup · keys))).2
    rw [adjustForLosses]
    exact ⟨_, s', Transaction.bind_eq_ok.2
      ⟨_, _, rfl, Transaction.bind_eq_ok.2 ⟨n, s', hrest, rfl⟩⟩⟩

theorem exists_markUnless (propagated : Bool) (hierarchy : HierarchyId)
    (h : ∃ host ∈ s.hierarchies, host.id = hierarchy) :
    ∃ s', markUnless propagated hierarchy s = .ok ((), s') := by
  rw [markUnless]
  cases propagated with
  | true => exact ⟨s, rfl⟩
  | false =>
    rw [if_neg Bool.false_ne_true, mark, Transaction.get_bind]
    by_cases hmarked : s.marked.contains hierarchy = true
    · rw [if_pos hmarked]
      exact ⟨s, rfl⟩
    · obtain ⟨host, hhost, hid⟩ := h
      have hfound : (s.hierarchy? hierarchy).isNone = false := by
        rw [Option.isNone_eq_false_iff, hierarchy?, List.find?_isSome]
        exact ⟨host, hhost, beq_iff_eq.2 hid⟩
      rw [if_neg hmarked, hfound]
      exact ⟨_, rfl⟩

theorem exists_addToNode (hs : s.Indexed) {node : Node} (hnode : node.IsIn s) {assets : List AssetId}
    (hassets : ∀ id ∈ assets, ∃ asset ∈ s.assets, asset.id = id) (propagate : Bool) :
    ∃ edited s', addToNode node assets propagate s = .ok (edited, s') ∧
      s'.hierarchies = s.hierarchies := by
  let fresh := assets.eraseDups.filter (!s.isAttached · node.id)
  rw [addToNode, Transaction.get_bind]
  obtain ⟨n, hn⟩ := Transaction.adjust_bind propagate
    (Counts.adjustForNode · .add node.hierarchy node.key fresh)
    (fun updated => do
      fresh.forM (attach · node.id)
      return (⟨fresh, updated⟩ : Edited AssetId)) s
  rw [adjusted_node hs hnode .add (nodup_fresh ..)] at hn
  obtain ⟨row, hrow, hid, -⟩ := (alike_shifted s _).isIn hnode
  obtain ⟨s', hforM, hhosts⟩ := exists_forM_attach (s := s.shifted _) (·, node.id) fresh
    fun asset hasset =>
      ⟨hassets asset (List.mem_eraseDups.1 (List.mem_of_mem_filter hasset)), row, hrow, hid⟩
  exact ⟨⟨fresh, n⟩, s', hn.trans (Transaction.bind_eq_ok.2 ⟨(), s', hforM, rfl⟩), hhosts⟩

theorem exists_addToNodes (hs : s.Indexed) {hierarchy : HierarchyId} {asset : AssetId}
    (hasset : ∃ known ∈ s.assets, known.id = asset) {nodes : List Node}
    (hn : (nodes.map (·.id)).Nodup)
    (hnodes : ∀ node ∈ nodes, node.IsIn s ∧ node.hierarchy = hierarchy) (propagate : Bool) :
    ∃ edited s', addToNodes hierarchy asset nodes propagate s = .ok (edited, s') ∧
      s'.hierarchies = s.hierarchies := by
  rw [addToNodes, Transaction.get_bind, eraseDupsBy_of_nodup Node.id hn]
  let fresh := nodes.filter (!s.isAttached asset ·.id)
  have hfresh : ∀ node ∈ fresh, node.IsIn s ∧ node.hierarchy = hierarchy := fun node hnode =>
    hnodes node (List.mem_of_mem_filter hnode)
  obtain ⟨n, hn⟩ := Transaction.adjust_bind propagate
    (Counts.adjustForAsset · .add hierarchy asset (fresh.map (·.key)))
    (fun updated => do
      fresh.forM (attach asset ·.id)
      return (⟨fresh, updated⟩ : Edited Node)) s
  rw [adjusted_asset hs asset hfresh .add] at hn
  have hall : ∀ delta, ∃ s', (fresh.forM fun node => attach asset node.id) (s.shifted delta) =
      .ok ((), s') ∧ s'.hierarchies = s.hierarchies := fun delta =>
    exists_forM_attach (s := s.shifted delta) (fun node : Node => (asset, node.id)) fresh
      fun node hnode =>
        have hin := (alike_shifted s delta).isIn (hfresh node hnode).1
        ⟨hasset, hin.imp fun _ h => ⟨h.1, h.2.1⟩⟩
  obtain ⟨s', hforM, hhosts⟩ := hall _
  exact ⟨⟨fresh, n⟩, s', hn.trans (Transaction.bind_eq_ok.2 ⟨(), s', hforM, rfl⟩), hhosts⟩

theorem exists_removeFromNode (s : Store) (node : Node) (assets : List AssetId) (propagate : Bool) :
    ∃ r, removeFromNode node assets propagate s = .ok r := by
  rw [removeFromNode, Transaction.get_bind, Transaction.set_bind]
  cases propagate with
  | true => exact ⟨_, rfl⟩
  | false => exact ⟨_, rfl⟩

theorem exists_removeFromNodes (s : Store) (hierarchy : HierarchyId) (asset : AssetId)
    (nodes : List Node) (propagate : Bool) :
    ∃ r, removeFromNodes hierarchy asset nodes propagate s = .ok r := by
  rw [removeFromNodes, Transaction.get_bind, Transaction.set_bind]
  cases propagate with
  | true => exact ⟨_, rfl⟩
  | false => exact ⟨_, rfl⟩

/-- A move whose rows are all there goes through, unless the key of one of their nodes cannot be
read. -/
theorem exists_move (hs : s.Steady) {hierarchy : HierarchyId} {id : NodeId} {target : Node}
    (htarget : s.requireNode id = .ok target) {assets : List AssetId}
    (hassets : ∀ id ∈ assets, ∃ asset ∈ s.assets, asset.id = id) {rows : List Attachment}
    (hrows : ∀ link ∈ rows, link ∈ s.attachments)
    (hhost : ∃ host ∈ s.hierarchies, host.id = hierarchy) (hlegible : ∀ row ∈ s.nodes, row.Legible)
    (propagate : Bool) : ∃ r, move hierarchy id assets rows propagate s = .ok r := by
  obtain ⟨hin, -⟩ := hs.formed.requireNode htarget
  have hcount : rows.countP (fun row => s.isAttached row.1 row.2) = rows.length := by
    rw [List.countP_eq_length]
    exact fun link hlink => isAttached_iff.2 (hrows link hlink)
  rw [move, Transaction.get_bind, htarget]
  show ∃ r, (if rows.countP (fun row => s.isAttached row.1 row.2) ≠ rows.length then _
    else _ : Transaction (Edited AssetId)) s = .ok r
  rw [if_neg (not_not.2 hcount)]
  dsimp only
  rw [foldl_detach fun row : Attachment => row, List.map_id', Transaction.set_bind]
  -- after the amounts have been taken back, one way or the other
  have hrest : ∀ (n : Nat) (t : Store), TakenBack propagate hierarchy rows s t →
      ∃ r, (do
        let added ← addToNode target assets propagate
        markUnless propagate hierarchy
        return { added with nodesUpdated := n + added.nodesUpdated } : Transaction _) t = .ok r := by
    intro n t ht
    obtain ⟨added, u, hadd, hhosts⟩ := exists_addToNode (ht.alike.formed hs.formed).indexed
      (ht.alike.isIn (isIn_of_row hin)) (ht.alike.assets ▸ hassets) propagate
    obtain ⟨v, hmark⟩ := exists_markUnless (s := u) propagate hierarchy
      (by rwa [hhosts, ht.alike.hierarchies])
    exact ⟨_, Transaction.bind_eq_ok.2 ⟨added, u, hadd, Transaction.bind_eq_ok.2 ⟨(), v, hmark, rfl⟩⟩⟩
  cases propagate with
  | true =>
    rw [if_pos rfl]
    obtain ⟨nodes, hnodes⟩ := exists_mapM_read (s.nodes.filter ((rows.map (·.2)).contains ·.id))
      fun row hrow => hlegible row (List.mem_of_mem_filter hrow)
    obtain ⟨n, t, hlosses⟩ := exists_adjustForLosses hierarchy
      (nodes.map fun node => (node.id, node.key)) (Change.group rows) (s.minus rows)
    obtain ⟨r, hr⟩ := hrest n t (takenBack_of_losses hs hrows hnodes hlosses)
    exact ⟨r, Transaction.lift_bind_eq_ok.2 ⟨nodes, hnodes, Transaction.bind_eq_ok.2
      ⟨n, t, hlosses, hr⟩⟩⟩
  | false => exact hrest 0 _ (takenBack_false s hierarchy rows)

end Store
end Inventory
