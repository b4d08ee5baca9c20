import Inventory.Proofs.Runs
import Inventory.Proofs.Store.Counting

/-! # Questions about subtrees agree

What a node holds can be asked for as a list, as a number, with the numbers of all nodes of its
hierarchy, and together with what other nodes hold. The answers fit together, also where selected
nodes lie below others: only the topmost of them are searched, and their subtrees cover the rest. -/
namespace Inventory.Store
set_option autoImplicit false
variable {s : Store} {hierarchy : HierarchyId}

/-- The asset is attached to a node of the hierarchy whose key begins with the segments of the given
one. -/
def AttachedBelow (s : Store) (hierarchy : HierarchyId) (key : Key) (asset : AssetId) : Prop :=
  ∃ row ∈ s.nodes, row.hierarchy = hierarchy ∧
    (∃ below : Key, row.key = below.text ∧ key.segments <+: below.segments) ∧
    (asset, row.id) ∈ s.attachments

theorem Orderly.mem_holdings_iff (hs : s.Orderly hierarchy) {key : Key} {asset : AssetId} :
    asset ∈ s.holdings hierarchy key.text ↔ s.AttachedBelow hierarchy key asset := by
  rw [mem_holdings]
  constructor
  · rintro ⟨row, hrow, hwithin, hlink⟩
    obtain ⟨below, hkey⟩ := hs.keyed row hrow (hierarchy_of_isWithin hwithin)
    obtain ⟨hh, hbelow⟩ := (isWithin_iff hkey).1 hwithin
    exact ⟨row, hrow, hh, ⟨below, hkey, Key.isDescendantOrSelf_iff.1 hbelow⟩, hlink⟩
  · rintro ⟨row, hrow, hh, ⟨below, hkey, hbelow⟩, hlink⟩
    exact ⟨row, hrow, (isWithin_iff hkey).2 ⟨hh, Key.isDescendantOrSelf_iff.2 hbelow⟩, hlink⟩

theorem AttachedBelow.above {key above : Key} {asset : AssetId} (h : s.AttachedBelow hierarchy key asset)
    (habove : key.isDescendantOrSelf above = true) : s.AttachedBelow hierarchy above asset := by
  obtain ⟨row, hrow, hh, ⟨below, hkey, hbelow⟩, hlink⟩ := h
  exact ⟨row, hrow, hh, ⟨below, hkey, (Key.isDescendantOrSelf_iff.1 habove).trans hbelow⟩, hlink⟩

/-! ## Selections -/

/-- The ids are those of nodes of the hierarchy. -/
def Selects (s : Store) (hierarchy : HierarchyId) (ids : List NodeId) : Prop :=
  ∀ id ∈ ids, ∃ row ∈ s.nodes, row.id = id ∧ row.hierarchy = hierarchy

theorem Orderly.mem_selected (hs : s.Orderly hierarchy) {ids : List NodeId}
    (hids : s.Selects hierarchy ids) {row : NodeRow} :
    row ∈ s.nodes.filter (ids.contains ·.id) ↔ row ∈ s.rowsOf hierarchy ∧ row.id ∈ ids := by
  rw [List.mem_filter, List.contains_iff_mem, mem_rowsOf]
  constructor
  · rintro ⟨hrow, hid⟩
    obtain ⟨other, hother, heq, hh⟩ := hids row.id hid
    rw [hs.eq_of_id hother hrow heq] at hh
    exact ⟨⟨hrow, hh⟩, hid⟩
  · rintro ⟨⟨hrow, -⟩, hid⟩
    exact ⟨hrow, hid⟩

theorem Orderly.exists_loadNodesIn (hs : s.Orderly hierarchy) {ids : List NodeId} (hn : ids.Nodup)
    (hids : s.Selects hierarchy ids) : ∃ nodes, s.loadNodesIn hierarchy ids = .ok nodes ∧
      ∀ key, key ∈ nodes.map (·.key) ↔ ∃ row ∈ s.rowsOf hierarchy, row.id ∈ ids ∧ row.node.key = key := by
  have hmem : ∀ row, row ∈ s.nodes.filter (ids.contains ·.id) ↔ row ∈ s.rowsOf hierarchy ∧ row.id ∈ ids :=
    fun _ => hs.mem_selected hids
  have hids' : ∀ id, id ∈ (s.nodes.filter (ids.contains ·.id)).map (·.id) ↔ id ∈ ids := by
    intro id
    simp only [List.mem_map, hmem]
    constructor
    · rintro ⟨row, ⟨-, hid⟩, rfl⟩
      exact hid
    · intro hid
      obtain ⟨row, hrow, rfl, hh⟩ := hids id hid
      exact ⟨row, ⟨mem_rowsOf.2 ⟨hrow, hh⟩, hid⟩, rfl⟩
  have hlength : (s.nodes.filter (ids.contains ·.id)).length = ids.length := by
    rw [← List.length_map (·.id)]
    have hdistinct : ((s.nodes.filter (ids.contains ·.id)).map (·.id)).Nodup :=
      hs.nodeIds.sublist (List.filter_sublist.map _)
    exact ((List.perm_ext_iff_of_nodup hdistinct hn).2 hids').length_eq
  have hstray : ((s.nodes.filter (ids.contains ·.id)).map NodeRow.node).find?
      (·.hierarchy != hierarchy) = none := by
    rw [List.find?_eq_none]
    intro node hnode
    obtain ⟨row, hrow, rfl⟩ := List.mem_map.1 hnode
    have hh : row.node.hierarchy = hierarchy := (mem_rowsOf.1 ((hmem row).1 hrow).1).2
    simp [hh]
  refine ⟨(s.nodes.filter (ids.contains ·.id)).map NodeRow.node, ?_, fun key => ?_⟩
  · rw [loadNodesIn, nodesByIds, mapM_read_eq fun row hrow => hs.legible row ((hmem row).1 hrow).1, ok_bind,
      List.length_map, hlength, if_neg (fun hne => hne rfl)]
    dsimp only
    rw [hstray]
    rfl
  · simp only [List.map_map, List.mem_map, hmem, and_assoc, Function.comp_apply]

/-- Attachments are gathered from the subtrees of keys. -/
theorem Orderly.exists_gathered (hs : s.Orderly hierarchy) (tops : List Key) :
    ∃ lists, tops.mapM (fun key => s.keyedAssets (s.subtreeRows hierarchy key)) = .ok lists ∧
      ∀ asset, asset ∈ lists.flatten.map (·.2) ↔ ∃ top ∈ tops, s.AttachedBelow hierarchy top asset := by
  have hcanonical : ∀ top : Key, ∀ row ∈ s.subtreeRows hierarchy top, ∃ key : Key, row.key = key.text :=
    fun top row hrow => ⟨_, hs.text_node (List.mem_of_mem_filter hrow)⟩
  obtain ⟨lists, h⟩ : ∃ lists, tops.mapM (fun key => s.keyedAssets (s.subtreeRows hierarchy key)) =
      .ok lists :=
    exists_mapM tops fun key _ =>
      exists_keyedAssets fun row hrow => hs.legible row (List.mem_of_mem_filter hrow)
  refine ⟨lists, h, fun asset => ?_⟩
  simp only [List.mem_map, List.mem_flatten]
  constructor
  · rintro ⟨⟨key, a⟩, ⟨pairs, hin, hpair⟩, rfl⟩
    obtain ⟨top, htop, hpairs⟩ := (mem_of_mapM_eq_ok h).1 hin
    obtain ⟨row, hrow, -, hlink⟩ := (mem_keyedAssets (hcanonical top) hpairs).1 hpair
    obtain ⟨hrow, hwithin⟩ := (mem_subtreeRows hs.keyed).1 hrow
    exact ⟨top, htop, hs.mem_holdings_iff.1 (mem_holdings.2 ⟨row, hrow, hwithin, hlink⟩)⟩
  · rintro ⟨top, htop, hbelow⟩
    obtain ⟨row, hrow, hwithin, hlink⟩ := mem_holdings.1 (hs.mem_holdings_iff.2 hbelow)
    obtain ⟨pairs, hin, hpairs⟩ := exists_of_mapM_eq_ok h htop
    have hrow := (mem_subtreeRows hs.keyed).2 ⟨hrow, hwithin⟩
    obtain ⟨key, hkey⟩ := hcanonical top row hrow
    exact ⟨(key, asset), ⟨pairs, hin, (mem_keyedAssets (hcanonical top) hpairs).2
      ⟨row, hrow, hkey, hlink⟩⟩, rfl⟩

/-- The assets below the topmost of some nodes are those below any of them. -/
theorem Orderly.exists_assetsUnder (hs : s.Orderly hierarchy) {selection : List NodeId}
    (hsome : selection ≠ []) (hids : s.Selects hierarchy selection) :
    ∃ ids, s.assetsUnder selection = .ok ids ∧ (ids.Pairwise fun a b => a < b) ∧
      ∀ asset, asset ∈ ids ↔ ∃ row ∈ s.rowsOf hierarchy, row.id ∈ selection ∧
        s.AttachedBelow hierarchy row.node.key asset := by
  cases hdistinct : selection.eraseDups with
  | nil => exact absurd (eq_nil_of_eraseDups hdistinct) hsome
  | cons first rest =>
    have hmem : ∀ id, id ∈ first :: rest ↔ id ∈ selection := fun id =>
      hdistinct ▸ List.mem_eraseDups
    obtain ⟨row, hrow, rfl, hh⟩ := hids first ((hmem first).1 List.mem_cons_self)
    obtain ⟨nodes, hload, hkeys⟩ := hs.exists_loadNodesIn (hdistinct ▸ nodup_eraseDups selection)
      fun id hid => hids id ((hmem id).1 hid)
    obtain ⟨lists, hlists, hgathered⟩ := hs.exists_gathered (Key.topmost (nodes.map (·.key)))
    refine ⟨sortIds (lists.flatten.map (·.2)).eraseDups, ?_, pairwise_lt_mergeSort (nodup_eraseDups _),
      fun asset => ?_⟩
    · have hlegible := hs.legible row (mem_rowsOf.2 ⟨hrow, hh⟩)
      have hhost : row.node.hierarchy = hierarchy := hh
      rw [assetsUnder, hdistinct]
      dsimp only
      rw [requireNode_eq hs.nodeIds hrow hlegible, ok_bind, hhost, hload, ok_bind, hlists]
      rfl
    · rw [sortIds, List.mem_mergeSort, List.mem_eraseDups, hgathered]
      constructor
      · rintro ⟨top, htop, hbelow⟩
        obtain ⟨other, hother, hid, rfl⟩ := (hkeys top).1 (Key.mem_of_mem_topmost htop)
        exact ⟨other, hother, (hmem other.id).1 hid, hbelow⟩
      · rintro ⟨other, hother, hid, hbelow⟩
        obtain ⟨top, htop, habove⟩ := Key.exists_topmost_above
          ((hkeys other.node.key).2 ⟨other, hother, (hmem other.id).2 hid, rfl⟩)
        exact ⟨top, htop, hbelow.above habove⟩

/-! ## Agreement -/

theorem Orderly.exists_answers (hs : s.Orderly hierarchy) {row : NodeRow}
    (hrow : row ∈ s.rowsOf hierarchy) : ∃ ids, s.Answers (.nodeAssetIds row.id) (.ids ids) ∧
      (ids.Pairwise fun a b => a < b) ∧
      (∀ asset, asset ∈ ids ↔ s.AttachedBelow hierarchy row.node.key asset) ∧
      s.Answers (.subtreeCount row.id) (.count ids.length) ∧
      (s.holdings hierarchy row.key).card = ids.length := by
  obtain ⟨hin, rfl⟩ := mem_rowsOf.1 hrow
  obtain ⟨ids, hids, hascending, hset⟩ := hs.exists_assetIds hin
  have hlength : (s.holdings row.hierarchy row.key).card = ids.length := by
    rw [← hset, List.toFinset_card_of_nodup (hascending.imp fun hlt => ne_of_lt hlt)]
  refine ⟨ids, answers_of_read .ids (·.assetIdsOf row.id) rfl hids, hascending, fun asset => ?_, ?_,
    hlength⟩
  · rw [← hs.mem_holdings_iff, ← hs.text_node hrow, ← hset, List.mem_toFinset]
  · rw [← hlength]
    exact answers_of_read .count (·.subtreeCount row.id) rfl (hs.subtreeCount_eq hin)

/-- The assets of a node are those attached at or below its key, ascending and each once; their
number is the one that is counted for the node and the one that stands with its key among the numbers
of all nodes. The assets of a selection are the union of those of its nodes. -/
theorem Orderly.subtree_answers_agree (hs : s.Orderly hierarchy) :
    (∃ counts, s.Answers (.computedCounts hierarchy) (.counts counts) ∧
      ∀ row ∈ s.nodes, row.hierarchy = hierarchy → ∃ key ids, row.key = key.text ∧
        s.Answers (.nodeAssetIds row.id) (.ids ids) ∧ (ids.Pairwise fun a b => a < b) ∧
        (∀ asset, asset ∈ ids ↔ s.AttachedBelow hierarchy key asset) ∧
        s.Answers (.subtreeCount row.id) (.count ids.length) ∧
        ∀ n, (key, n) ∈ counts ↔ n = ids.length) ∧
    ∀ selection, selection ≠ [] → s.Selects hierarchy selection →
      ∃ union, s.Answers (.assetsUnder selection) (.ids union) ∧ (union.Pairwise fun a b => a < b) ∧
        ∀ asset, asset ∈ union ↔
          ∃ id ∈ selection, ∃ ids, s.Answers (.nodeAssetIds id) (.ids ids) ∧ asset ∈ ids := by
  constructor
  · obtain ⟨counts, hcounts, hentries⟩ := hs.exists_computedCounts
    refine ⟨counts, answers_of_read .counts (·.computedCounts hierarchy) rfl hcounts,
      fun row hrow hh => ?_⟩
    have hof := mem_rowsOf.2 ⟨hrow, hh⟩
    obtain ⟨ids, hids, hascending, hmem, hcount, hlength⟩ := hs.exists_answers hof
    exact ⟨row.node.key, ids, hs.text_node hof, hids, hascending, hmem, hcount,
      hlength ▸ hentries row hof⟩
  · intro selection hsome hselects
    obtain ⟨union, hunion, hascending, hmem⟩ := hs.exists_assetsUnder hsome hselects
    refine ⟨union, answers_of_read .ids (·.assetsUnder selection) rfl hunion, hascending,
      fun asset => ?_⟩
    rw [hmem]
    constructor
    · rintro ⟨row, hrow, hid, hbelow⟩
      obtain ⟨ids, hids, -, hin, -⟩ := hs.exists_answers hrow
      exact ⟨row.id, hid, ids, hids, (hin asset).2 hbelow⟩
    · rintro ⟨id, hid, ids, hids, hasset⟩
      obtain ⟨row, hrow, rfl, hh⟩ := hselects id hid
      have hof := mem_rowsOf.2 ⟨hrow, hh⟩
      obtain ⟨same, hsame, -, hin, -⟩ := hs.exists_answers hof
      cases hids.unique hsame
      exact ⟨row, hof, hid, (hin asset).1 hasset⟩

/-- The root of the ruin is selected with the crypt, which lies below it beyond a gap. -/
theorem subtree_answers_agree_ruin : ruin.Answers (.nodeAssetIds 2) (.ids [1]) ∧
    ruin.Answers (.subtreeCount 2) (.count 1) ∧ ruin.Answers (.assetsUnder [2, 1, 2]) (.ids [1]) := by
  have hlone : ∀ ids : List AssetId, (ids.Pairwise fun a b => a < b) →
      (∀ asset, asset ∈ ids ↔ asset = 1) → ids = [1] := by
    intro ids hascending hmem
    refine List.perm_singleton.1 ((List.perm_ext_iff_of_nodup ?_ (List.nodup_singleton 1)).2 ?_)
    · exact hascending.imp fun hlt => ne_of_lt hlt
    · simpa using hmem
  -- what is attached at all is the urn
  have hurn : ∀ key asset, ruin.AttachedBelow 1 key asset → asset = 1 := by
    rintro key asset ⟨row, -, -, -, hlink⟩
    exact (Prod.mk.inj (List.mem_singleton.1 hlink)).1
  obtain ⟨⟨counts, -, hnodes⟩, hselections⟩ := Orderly.subtree_answers_agree orderly_ruin
  obtain ⟨key, ids, hkey, hids, hascending, hmem, hcount, -⟩ :=
    hnodes ⟨2, 1, "1:2:3", "1:2", "Crypt", "Ruin/Vault/Crypt", -1⟩ (by decide) rfl
  obtain rfl : ids = [1] := by
    refine hlone ids hascending fun asset => (hmem asset).trans ⟨hurn key asset, ?_⟩
    rintro rfl
    exact ⟨_, List.mem_cons_of_mem _ List.mem_cons_self, rfl, ⟨key, hkey, List.prefix_refl _⟩, by decide⟩
  have hselects : ruin.Selects 1 [2, 1, 2] := by
    show ∀ id ∈ [2, 1, 2], ∃ row ∈ ruin.nodes, row.id = id ∧ row.hierarchy = 1
    decide
  obtain ⟨union, hunion, hascending, hmem⟩ := hselections [2, 1, 2] (by decide) hselects
  refine ⟨hids, hcount, ?_⟩
  obtain rfl : union = [1] := by
    refine hlone union hascending fun asset => (hmem asset).trans ⟨?_, ?_⟩
    · rintro ⟨id, hid, found, hfound, hasset⟩
      obtain ⟨row, hrow, rfl, hh⟩ := hselects id hid
      obtain ⟨key, ids, -, hids, -, hin, -⟩ := hnodes row hrow hh
      cases hfound.unique hids
      exact hurn key asset ((hin asset).1 hasset)
    · rintro rfl
      exact ⟨2, by decide, [1], hids, by decide⟩
  exact hunion

end Inventory.Store
