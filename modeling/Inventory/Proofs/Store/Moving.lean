import Inventory.Proofs.Store.Assets
import Inventory.Tree.Reassigning

/-! # Moving assets

A move takes back the amounts asset by asset. Different assets are counted apart, so that the losses
add up to what all the rows together had brought. -/
namespace Inventory.Store
set_option autoImplicit false
variable {s s' : Store}

/-! ## Losses of several assets -/

/-- A shift of amounts before an adjustment may as well come after it. -/
theorem adjustForAsset_after_shift (hs : s.Keyed) (delta : HierarchyId → String → Int) (edit : Edit)
    (hierarchy : HierarchyId) (asset : AssetId) (keys : List Key) :
    (Counts.adjustForAsset (s.shifted delta) edit hierarchy asset keys).2 =
      (Counts.adjustForAsset s edit hierarchy asset keys).2.shifted delta := by
  rw [Counts.adjustForAsset_shifted (keyed_shifted s delta hs), Counts.adjustForAsset_shifted hs,
    shifted_shifted, shifted_shifted]
  simp only [holdings_shifted, Int.add_comm]

theorem gain_append (s : Store) {rows more : List Attachment}
    (h : ∀ link ∈ rows, ∀ other ∈ more, link.1 ≠ other.1) (hierarchy : HierarchyId) (top : String) :
    s.gain (rows ++ more) hierarchy top = s.gain rows hierarchy top + s.gain more hierarchy top := by
  have hdisjoint : Disjoint (reach s.nodes rows hierarchy top \ s.holdings hierarchy top)
      (reach s.nodes more hierarchy top \ s.holdings hierarchy top) := by
    rw [Finset.disjoint_left]
    intro asset h1 h2
    obtain ⟨row, -, -, hlink⟩ := mem_reach.1 (Finset.mem_sdiff.1 h1).1
    obtain ⟨row', -, -, hlink'⟩ := mem_reach.1 (Finset.mem_sdiff.1 h2).1
    exact h _ hlink _ hlink' rfl
  rw [gain, reach_append, Finset.union_sdiff_distrib, Finset.card_union_of_disjoint hdisjoint]
  exact Int.natCast_add _ _

theorem gain_congr {rows rows' : List Attachment} (h : ∀ link, link ∈ rows ↔ link ∈ rows')
    (hierarchy : HierarchyId) (top : String) :
    s.gain rows hierarchy top = s.gain rows' hierarchy top := by
  rw [gain, gain, reach_congr h]

theorem lookup_key (nodes : List Node) (id : NodeId) :
    List.lookup id (nodes.map fun node => (node.id, node.key)) =
      (nodes.find? (·.id == id)).map (·.key) := by
  induction nodes with
  | nil => rfl
  | cons node rest ih =>
    rw [List.map_cons, List.lookup_cons, List.find?_cons]
    by_cases h : node.id = id
    · simp [h]
    · have hne : (id == node.id) = false := by simpa using Ne.symm h
      have hne' : (node.id == id) = false := by simpa using h
      rw [hne, hne', ih]

/-- The nodes of a change that are among the given ones. -/
def lostNodes (nodes : List Node) (ids : List NodeId) : List Node :=
  ids.filterMap fun id => nodes.find? (·.id == id)

theorem filterMap_lookup (nodes : List Node) (ids : List NodeId) :
    ids.filterMap (List.lookup · (nodes.map fun node => (node.id, node.key))) =
      (lostNodes nodes ids).map (·.key) := by
  rw [lostNodes, List.map_filterMap]
  exact List.filterMap_congr fun id _ => lookup_key nodes id

theorem ids_lostNodes {nodes : List Node} {ids : List NodeId}
    (h : ∀ id ∈ ids, ∃ node ∈ nodes, node.id = id) : (lostNodes nodes ids).map (·.id) = ids := by
  induction ids with
  | nil => rfl
  | cons id rest ih =>
    obtain ⟨node, hnode, hid⟩ := h id (List.mem_cons_self ..)
    have hfound : (nodes.find? (·.id == id)).isSome = true := by
      rw [List.find?_isSome]
      exact ⟨node, hnode, by simpa using hid⟩
    obtain ⟨found, hfind⟩ := Option.isSome_iff_exists.1 hfound
    have hrest := ih fun i hi => h i (List.mem_cons_of_mem _ hi)
    have hcons : lostNodes nodes (id :: rest) = found :: lostNodes nodes rest :=
      List.filterMap_cons_some (f := fun id => nodes.find? fun node : Node => node.id == id) hfind
    rw [hcons, List.map_cons, hrest]
    have heq : found.id = id := by simpa using List.find?_some hfind
    rw [heq]

theorem mem_of_mem_lostNodes {nodes : List Node} {ids : List NodeId} {node : Node}
    (h : node ∈ lostNodes nodes ids) : node ∈ nodes := by
  obtain ⟨id, -, hfind⟩ := List.mem_filterMap.1 h
  exact List.mem_of_find?_eq_some hfind

/-- Adjusting for losses takes back what the rows of all changes had brought. -/
theorem adjustForLosses_eq_ok (hs : s.Formed) {hierarchy : HierarchyId} {nodes : List Node}
    (hnodes : ∀ node ∈ nodes, node.row ∈ s.nodes ∧ node.hierarchy = hierarchy)
    {changes : List Change} (hn : (changes.map (·.asset)).Nodup)
    (hids : ∀ change ∈ changes, ∀ id ∈ change.nodes, ∃ node ∈ nodes, node.id = id)
    {delta : HierarchyId → String → Int} {n : Nat}
    (h : adjustForLosses hierarchy (nodes.map fun node => (node.id, node.key)) changes
      (s.shifted delta) = .ok (n, s')) :
    s' = s.shifted fun h k => delta h k + -s.gain (Change.rows changes) h k := by
  induction changes generalizing delta n with
  | nil =>
    cases h
    refine shifted_congr fun row _ => ?_
    rw [Change.rows, List.flatMap_nil, gain_nil, Int.neg_zero, Int.add_zero]
  | cons change rest ih =>
    rw [adjustForLosses, filterMap_lookup] at h
    obtain ⟨updated, s₁, hfirst, h⟩ := Transaction.bind_eq_ok.1 h
    obtain ⟨more, s₂, hrest, h⟩ := Transaction.bind_eq_ok.1 h
    cases h
    have hlost := ids_lostNodes (hids change (List.mem_cons_self ..))
    have hs₁ : s₁ = s.shifted fun h k =>
        delta h k + -s.gain (change.nodes.map (change.asset, ·)) h k := by
      have hlinks : (lostNodes nodes change.nodes).map (change.asset, ·.id) =
          change.nodes.map (change.asset, ·) := by
        conv_rhs => rw [← hlost, List.map_map]
        rfl
      have hlostNodes : ∀ node ∈ lostNodes nodes change.nodes,
          node.row ∈ s.nodes ∧ node.hierarchy = hierarchy := fun node hnode =>
        hnodes node (mem_of_mem_lostNodes hnode)
      have hadjusted := adjusted_asset hs.indexed change.asset (areIn_of_rows hlostNodes) .remove true
      rw [if_pos rfl, hlinks] at hadjusted
      rw [adjust_eq_ok hfirst, adjustForAsset_after_shift hs.keyed, hadjusted, shifted_shifted]
      refine shifted_congr fun row _ => ?_
      rw [if_pos rfl, Int.add_comm, Edit.sign, Int.neg_mul, Int.one_mul]
    rw [hs₁] at hrest
    rw [ih (List.nodup_cons.1 hn).2 (fun c hc => hids c (List.mem_cons_of_mem _ hc)) hrest]
    refine shifted_congr fun row _ => ?_
    rw [Change.rows_cons, gain_append, Int.neg_add, Int.add_assoc]
    intro link hlink other hother heq
    obtain ⟨id, -, rfl⟩ := List.mem_map.1 hlink
    obtain ⟨c, hc, hother⟩ := List.mem_flatMap.1 hother
    obtain ⟨id', -, rfl⟩ := List.mem_map.1 hother
    exact (List.nodup_cons.1 hn).1 (List.mem_map.2 ⟨c, hc, heq.symm⟩)

theorem adjustForLosses_foreign (hs : s.Formed) {hierarchy : HierarchyId} {nodes : List Node}
    (hnodes : ∀ node ∈ nodes, node.row ∈ s.nodes ∧ node.hierarchy ≠ hierarchy)
    {changes : List Change} {n : Nat}
    (h : adjustForLosses hierarchy (nodes.map fun node => (node.id, node.key)) changes s =
      .ok (n, s')) : s' = s := by
  induction changes generalizing n with
  | nil =>
    cases h
    rfl
  | cons change rest ih =>
    rw [adjustForLosses, filterMap_lookup] at h
    obtain ⟨updated, s₁, hfirst, h⟩ := Transaction.bind_eq_ok.1 h
    obtain ⟨more, s₂, hrest, h⟩ := Transaction.bind_eq_ok.1 h
    cases h
    have haway : ∀ node ∈ lostNodes nodes change.nodes,
        node.IsIn s ∧ node.hierarchy ≠ hierarchy := by
      intro node hnode
      obtain ⟨hrow, hne⟩ := hnodes node (mem_of_mem_lostNodes hnode)
      exact ⟨isIn_of_row hrow, hne⟩
    have hsame := adjustForAsset_foreign hs haway .remove change.asset
    rw [adjust_eq_ok hfirst, hsame] at hrest
    exact ih hrest

/-! ## The move -/

/-- A store after rows were deleted and the amounts that they brought taken back. They are taken
back in full within the hierarchy of the move, and not at all within another one. -/
structure TakenBack (propagate : Bool) (hierarchy : HierarchyId) (rows : List Attachment)
    (s t : Store) : Prop where
  alike : Alike s t
  attachments : t.attachments = (s.minus rows).attachments
  marked : t.marked = s.marked
  within : s.Within hierarchy rows → t = s.removing rows propagate
  foreign : (∀ row ∈ s.nodes, row.hierarchy = hierarchy → ∀ asset, (asset, row.id) ∉ rows) →
    t = s.minus rows

theorem adjustForLosses_shifted (hs : s.Keyed) {hierarchy : HierarchyId} {keys : List (NodeId × Key)}
    {changes : List Change} {n : Nat}
    (h : adjustForLosses hierarchy keys changes s = .ok (n, s')) : ∃ delta, s' = s.shifted delta := by
  induction changes generalizing s n with
  | nil =>
    cases h
    exact ⟨fun _ _ => 0, (shifted_eq_self fun _ _ => rfl).symm⟩
  | cons change rest ih =>
    rw [adjustForLosses] at h
    obtain ⟨updated, s₁, hfirst, h⟩ := Transaction.bind_eq_ok.1 h
    obtain ⟨more, s₂, hrest, h⟩ := Transaction.bind_eq_ok.1 h
    cases h
    have hs₁ := adjust_eq_ok hfirst
    rw [Counts.adjustForAsset_shifted hs] at hs₁
    subst hs₁
    obtain ⟨delta, rfl⟩ := ih (keyed_shifted _ _ hs) hrest
    exact ⟨_, shifted_shifted _ _ _⟩

theorem takenBack_of_losses (hs : s.Steady) {hierarchy : HierarchyId} {rows : List Attachment}
    (hold : ∀ link ∈ rows, link ∈ s.attachments) {nodes : List Node}
    (hnodes : s.nodesByIds (rows.map (·.2)) = .ok nodes) {n : Nat}
    (h : adjustForLosses hierarchy (nodes.map fun node => (node.id, node.key)) (Change.group rows)
      (s.minus rows) = .ok (n, s')) : TakenBack true hierarchy rows s s' := by
  have hformed := (alike_minus s rows).formed hs.formed
  have hrows := hs.formed.nodesByIds hnodes
  have hin : ∀ node ∈ nodes, node.row ∈ s.nodes ∧ ∃ asset, (asset, node.id) ∈ rows := by
    intro node hnode
    have hmem : node.row ∈ s.nodes.filter ((rows.map (·.2)).contains ·.id) :=
      hrows ▸ List.mem_map_of_mem hnode
    obtain ⟨hrow, hid⟩ := List.mem_filter.1 hmem
    obtain ⟨link, hlink, heq⟩ := List.mem_map.1 (List.contains_iff_mem.1 hid)
    have hid' : link.2 = node.id := heq
    exact ⟨hrow, link.1, by rwa [← hid']⟩
  have hids : ∀ change ∈ Change.group rows, ∀ id ∈ change.nodes, ∃ node ∈ nodes, node.id = id := by
    intro change hchange id hid
    have hlink : (change.asset, id) ∈ rows :=
      (Change.rows_group rows).mem_iff.1
        (List.mem_flatMap.2 ⟨change, hchange, List.mem_map_of_mem hid⟩)
    obtain ⟨-, -, row, hrow, -, hrid, -⟩ := hs.joined _ (hold _ hlink)
    have hmem : row ∈ nodes.map Node.row := by
      rw [hrows, List.mem_filter, List.contains_iff_mem, hrid]
      exact ⟨hrow, List.mem_map_of_mem hlink⟩
    obtain ⟨node, hnode, rfl⟩ := List.mem_map.1 hmem
    exact ⟨node, hnode, hrid⟩
  obtain ⟨delta, hdelta⟩ := adjustForLosses_shifted hformed.keyed h
  refine ⟨?_, ?_, ?_, fun hw => ?_, fun hforeign => ?_⟩
  · rw [hdelta]
    exact (alike_minus s rows).trans (alike_shifted _ _)
  · rw [hdelta]
    rfl
  · rw [hdelta]
    rfl
  · have hhere : ∀ node ∈ nodes, node.row ∈ (s.minus rows).nodes ∧ node.hierarchy = hierarchy := by
      intro node hnode
      obtain ⟨hrow, asset, hlink⟩ := hin node hnode
      exact ⟨hrow, hw _ hlink node.row hrow rfl⟩
    have hunshifted : (s.minus rows).shifted (fun _ _ => 0) = s.minus rows :=
      shifted_eq_self fun _ _ => rfl
    rw [← hunshifted] at h
    rw [adjustForLosses_eq_ok hformed hhere (Change.nodup_assets_group rows) hids h, removing]
    refine shifted_congr fun row _ => ?_
    rw [if_pos rfl, Int.zero_add, gain_congr fun link => (Change.rows_group rows).mem_iff]
  · have haway : ∀ node ∈ nodes, node.row ∈ (s.minus rows).nodes ∧ node.hierarchy ≠ hierarchy := by
      intro node hnode
      obtain ⟨hrow, asset, hlink⟩ := hin node hnode
      exact ⟨hrow, fun hh => hforeign node.row hrow hh asset hlink⟩
    exact adjustForLosses_foreign hformed haway h

theorem takenBack_false (s : Store) (hierarchy : HierarchyId) (rows : List Attachment) :
    TakenBack false hierarchy rows s (s.minus rows) where
  alike := alike_minus s rows
  attachments := rfl
  marked := rfl
  within _ := (shifted_eq_self fun _ _ => rfl).symm
  foreign _ := rfl

/-- The effect of a move that succeeds. -/
structure Moved (propagate : Bool) (hierarchy : HierarchyId) (target : NodeRow)
    (assets : List AssetId) (rows : List Attachment) (fresh : List AssetId) (s s' : Store) :
    Prop where
  known : target ∈ s.nodes
  old : ∀ link ∈ rows, link ∈ s.attachments
  new : fresh = assets.eraseDups.filter fun asset => !(s.minus rows).isAttached asset target.id
  exists_asset : ∀ id ∈ fresh, ∃ asset ∈ s.assets, asset.id = id
  result : ∃ t, TakenBack propagate hierarchy rows s t ∧
    s' = (t.adding (fresh.map (·, target.id)) propagate).marking propagate hierarchy

theorem move_eq_ok (hs : s.Steady) {hierarchy : HierarchyId} {id : NodeId} {assets : List AssetId}
    {rows : List Attachment} {propagate : Bool} {edited : Edited AssetId}
    (h : move hierarchy id assets rows propagate s = .ok (edited, s')) :
    ∃ target : NodeRow, target.id = id ∧
      Moved propagate hierarchy target assets rows edited.changed s s' := by
  rw [move, Transaction.get_bind] at h
  obtain ⟨target, htarget, h⟩ := Transaction.lift_bind_eq_ok.1 h
  obtain ⟨hin, hid⟩ := hs.formed.requireNode htarget
  refine ⟨target.row, hid, ?_⟩
  by_cases hcount : List.countP (fun row => s.isAttached row.1 row.2) rows ≠ rows.length
  · rw [if_pos hcount] at h
    cases h
  · rw [if_neg hcount] at h
    dsimp only at h
    rw [foldl_detach fun row : Attachment => row, List.map_id', Transaction.set_bind] at h
    rw [not_not, List.countP_eq_length] at hcount
    have hold : ∀ link ∈ rows, link ∈ s.attachments := fun link hlink =>
      isAttached_iff.1 (hcount link hlink)
    -- after the amounts have been taken back, one way or the other
    have hrest : ∀ (n : Nat) (t : Store), TakenBack propagate hierarchy rows s t →
        (do
          let added ← addToNode target assets propagate
          markUnless propagate hierarchy
          return { added with nodesUpdated := n + added.nodesUpdated } : Transaction _) t =
          .ok (edited, s') →
        Moved propagate hierarchy target.row assets rows edited.changed s s' := by
      intro n t ht h
      obtain ⟨added, s₁, hadd, h⟩ := Transaction.bind_eq_ok.1 h
      obtain ⟨_, s₂, hmark, h⟩ := Transaction.bind_eq_ok.1 h
      cases h
      obtain ⟨hchanged, rfl, hknown⟩ :=
        addToNode_eq_ok (ht.alike.formed hs.formed).indexed (ht.alike.isIn (isIn_of_row hin)) hadd
      refine ⟨hin, hold, ?_, fun id hid => ?_, t, ht, markUnless_eq_ok hmark⟩
      · rw [hchanged]
        simp only [isAttached, ht.attachments]
        rfl
      · rw [← ht.alike.assets]
        exact hknown id hid
    cases propagate with
    | true =>
      rw [if_pos rfl] at h
      obtain ⟨nodes, hnodes, h⟩ := Transaction.lift_bind_eq_ok.1 h
      obtain ⟨n, t, hlosses, h⟩ := Transaction.bind_eq_ok.1 h
      exact hrest n t (takenBack_of_losses hs hold hnodes hlosses) h
    | false => exact hrest 0 _ (takenBack_false s hierarchy rows) h

theorem move_conflict {hierarchy : HierarchyId} {id : NodeId} {assets : List AssetId}
    {rows : List Attachment} {propagate : Bool} {target : Node}
    (htarget : s.requireNode id = .ok target) {link : Attachment} (hlink : link ∈ rows)
    (hgone : link ∉ s.attachments) :
    ∃ actual, move hierarchy id assets rows propagate s = .error (.conflict rows.length actual) := by
  refine ⟨rows.countP fun row => s.isAttached row.1 row.2, ?_⟩
  have hcount : rows.countP (fun row => s.isAttached row.1 row.2) ≠ rows.length := by
    rw [Ne, List.countP_eq_length]
    exact fun hall => hgone (isAttached_iff.1 (hall link hlink))
  rw [move, Transaction.get_bind, htarget]
  show (if _ then _ else _ : Transaction _) s = _
  rw [if_pos hcount]
  rfl

section Moved
variable {propagate : Bool} {hierarchy : HierarchyId} {target : NodeRow} {assets : List AssetId}
  {rows : List Attachment} {fresh : List AssetId}

/-- After a move the assets are on the target, beside whatever rows were not among those deleted. -/
theorem Moved.mem_attachments (h : Moved propagate hierarchy target assets rows fresh s s')
    {link : Attachment} :
    link ∈ s'.attachments ↔
      (link ∈ s.attachments ∧ link ∉ rows) ∨ (link.1 ∈ assets ∧ link.2 = target.id) := by
  obtain ⟨t, ht, rfl⟩ := h.result
  rw [marking_attachments, adding_attachments, List.mem_append, ht.attachments, mem_minus, h.new]
  simp only [List.mem_map, List.mem_filter, List.mem_eraseDups, Bool.not_eq_true',
    ← Bool.not_eq_true, isAttached_iff, mem_minus]
  constructor
  · rintro (hold | ⟨asset, ⟨hasset, -⟩, rfl⟩)
    · exact Or.inl hold
    · exact Or.inr ⟨hasset, rfl⟩
  · rintro (hold | ⟨hasset, htarget⟩)
    · exact Or.inl hold
    · by_cases hin : link ∈ s.attachments ∧ link ∉ rows
      · exact Or.inl hin
      · refine Or.inr ⟨link.1, ⟨hasset, ?_⟩, ?_⟩
        · rwa [← htarget]
        · rw [← htarget]

theorem Moved.alike (h : Moved propagate hierarchy target assets rows fresh s s') : Alike s s' := by
  obtain ⟨t, ht, rfl⟩ := h.result
  exact ht.alike.trans ((alike_adding _ _ _).trans (alike_marking _ _ _))

theorem Moved.placed (h : Moved propagate hierarchy target assets rows fresh s s')
    (hrows : ∀ link ∈ rows, link.1 ∈ assets) (hs : s.Placed) : s'.Placed := by
  intro asset hasset
  by_cases hin : asset.id ∈ assets
  · exact ⟨target.id, h.mem_attachments.2 (Or.inr ⟨hin, rfl⟩)⟩
  · obtain ⟨node, hlink⟩ := hs asset (h.alike.assets ▸ hasset)
    exact ⟨node, h.mem_attachments.2 (Or.inl ⟨hlink, fun hgone => hin (hrows _ hgone)⟩)⟩

/-- A move within a hierarchy attaches the assets to the target after the removal. -/
theorem Moved.attached (h : Moved propagate hierarchy target assets rows fresh s s') (hs : s.Formed)
    (hw : s.Within hierarchy rows) (htarget : target.hierarchy = hierarchy)
    (hassets : ∀ id ∈ assets, ∃ asset ∈ s.assets, asset.id = id ∧ asset.hierarchy = hierarchy) :
    Attached propagate hierarchy (fresh.map (·, target.id)) (s.removing rows propagate) s' := by
  obtain ⟨t, ht, rfl⟩ := h.result
  rw [ht.within hw]
  have halike := alike_removing s rows propagate
  have hfresh : ∀ id ∈ fresh, id ∈ assets ∧ (id, target.id) ∉ (s.minus rows).attachments := by
    intro id hid
    rw [h.new] at hid
    obtain ⟨hin, hnew⟩ := List.mem_filter.1 hid
    refine ⟨List.mem_eraseDups.1 hin, ?_⟩
    simpa [isAttached] using hnew
  refine ⟨?_, ?_, ?_, ?_, rfl⟩
  · rw [h.new]
    exact nodup_links (nodup_fresh ..) target.id
  · intro link hlink
    obtain ⟨id, hid, rfl⟩ := List.mem_map.1 hlink
    exact (hfresh id hid).2
  · refine halike.joins fun link hlink => ?_
    obtain ⟨id, hid, rfl⟩ := List.mem_map.1 hlink
    obtain ⟨asset, hasset, haid, hh⟩ := hassets id (hfresh id hid).1
    exact ⟨asset, hasset, target, h.known, haid, rfl, hh.trans htarget.symm⟩
  · intro link hlink row hrow hid
    obtain ⟨asset, -, rfl⟩ := List.mem_map.1 hlink
    obtain ⟨old, hold, holdid, holdh, -, -⟩ := halike.exists_row hrow
    rw [← holdh, hs.eq_of_id hold h.known (holdid.trans hid)]
    exact htarget

theorem Moved.sound (h : Moved propagate hierarchy target assets rows fresh s s') (hs : s.Sound)
    (hw : s.Within hierarchy rows) (htarget : target.hierarchy = hierarchy)
    (hrows : ∀ link ∈ rows, link.1 ∈ assets)
    (hassets : ∀ id ∈ assets, ∃ asset ∈ s.assets, asset.id = id ∧ asset.hierarchy = hierarchy) :
    s'.Sound := by
  have hattached := h.attached hs.formed hw htarget hassets
  have hplaced := h.placed hrows hs.placed
  rw [hattached.result] at hplaced ⊢
  exact ((keeps_removing propagate h.old hw).trans hattached.keeps).sound hs.toSteady hplaced

end Moved
end Inventory.Store
