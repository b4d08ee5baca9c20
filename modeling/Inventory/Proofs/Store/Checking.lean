import Inventory.Proofs.Store.Sturdy

/-! # What a check finds

A check of a hierarchy compares amounts, looks for assets without a node, and lists what is wrong
with the roots and the parents. Each of these comes out empty on its own condition, and cutting the
list of findings short leaves none of them out where it is empty. So a check of any store with
readable keys is clean just where the hierarchy is consistent. -/
namespace Inventory.Store
set_option autoImplicit false
variable {s : Store} {hierarchy : HierarchyId}

/-- What a check asks of a hierarchy. -/
structure Consistent (s : Store) (hierarchy : HierarchyId) : Prop where
  /-- Just one node has a key of a single segment. -/
  root : ∃! row, row ∈ s.nodes ∧ row.hierarchy = hierarchy ∧
    ∃ key : Key, row.key = key.text ∧ key.isRoot = true
  /-- The parent of any other key is the key of a node. -/
  parented : ∀ row ∈ s.nodes, row.hierarchy = hierarchy → ∀ key above : Key, row.key = key.text →
    key.parent? = some above → ∃ parent ∈ s.nodes, parent.hierarchy = hierarchy ∧
      parent.key = above.text
  placed : ∀ asset ∈ s.assets, asset.hierarchy = hierarchy → ∃ node, (asset.id, node) ∈ s.attachments
  counted : s.Counted hierarchy

/-! ## The parts of a report -/

theorem rootFindings_eq_nil {roots : List Node} :
    Report.rootFindings roots = [] ↔ roots.length = 1 := by
  rcases roots with _ | ⟨root, _ | ⟨other, rest⟩⟩
  · simp [Report.rootFindings]
  · simp [Report.rootFindings]
  · simp [Report.rootFindings]

theorem parentFindings_eq_nil {nodes : List Node} :
    Report.parentFindings nodes = [] ↔
      ∀ node ∈ nodes, ∀ above, node.key.parent? = some above → above ∈ nodes.map (·.key) := by
  rw [Report.parentFindings, List.filterMap_eq_nil_iff]
  apply forall₂_congr
  intro node _
  cases habove : node.key.parent? with
  | none => simp
  | some above =>
    have hall : (∀ key, some above = some key → key ∈ nodes.map (·.key)) ↔
        (nodes.map (·.key)).contains above = true := by simp
    rw [hall]
    dsimp only
    generalize (nodes.map (·.key)).contains above = found
    cases found with
    | true => exact iff_of_true rfl rfl
    | false => simp

theorem orphanFindings_checkOnly {roots : List Node} {orphans : List AssetId} :
    Report.orphanFindings .checkOnly roots orphans = [] ↔ orphans = [] := by
  cases orphans with
  | nil => simp [Report.orphanFindings]
  | cons first rest => simp [Report.orphanFindings]

/-- A list that is cut short is empty only if it was. -/
theorem take_maxFindings {findings : List Finding} :
    findings.take Report.maxFindings = [] ↔ findings = [] := by
  rw [List.take_eq_nil_iff]
  simp [Report.maxFindings]

/-! ## The lists of a hierarchy -/

section Lists
variable {nodes : List Node}

theorem Lists.roots_iff (h : s.Lists hierarchy nodes) (hs : s.Orderly hierarchy) :
    (nodes.filter (·.key.isRoot)).length = 1 ↔
      ∃! row, row ∈ s.nodes ∧ row.hierarchy = hierarchy ∧
        ∃ key : Key, row.key = key.text ∧ key.isRoot = true := by
  have hmem : ∀ row, row ∈ s.rootRows hierarchy ↔ row ∈ s.nodes ∧ row.hierarchy = hierarchy ∧
      ∃ key : Key, row.key = key.text ∧ key.isRoot = true := by
    intro row
    rw [rootRows, List.mem_filter, mem_rowsOf, and_assoc]
    apply and_congr_right
    intro hrow
    apply and_congr_right
    intro hh
    obtain ⟨key, hread, htext⟩ := hs.canonical row (mem_rowsOf.2 ⟨hrow, hh⟩)
    rw [hread, Option.any_some]
    constructor
    · exact fun htop => ⟨key, htext, htop⟩
    · rintro ⟨other, hother, htop⟩
      rwa [Key.text_injective (htext.symm.trans hother)]
  have hn : (s.rootRows hierarchy).Nodup := (hs.keys.of_map _).filter _
  rw [(h.roots hs).length_eq, List.length_map]
  simp only [← hmem]
  constructor
  · intro hone
    obtain ⟨root, hroot⟩ := List.length_eq_one_iff.1 hone
    rw [hroot]
    exact ⟨root, List.mem_singleton_self root, fun other hother => List.mem_singleton.1 hother⟩
  · rintro ⟨root, hroot, honly⟩
    rw [List.length_eq_one_iff]
    refine ⟨root, List.perm_singleton.1 ?_⟩
    apply (List.perm_ext_iff_of_nodup hn (List.nodup_singleton root)).2
    intro other
    rw [List.mem_singleton]
    exact ⟨honly other, fun h => h ▸ hroot⟩

theorem Lists.mem_keys (h : s.Lists hierarchy nodes) (hs : s.Orderly hierarchy) {key : Key} :
    key ∈ nodes.map (·.key) ↔ ∃ row ∈ s.nodes, row.hierarchy = hierarchy ∧ row.key = key.text := by
  rw [List.mem_map]
  constructor
  · rintro ⟨node, hnode, rfl⟩
    obtain ⟨row, hrow, hh, rfl⟩ := h.mem_iff.1 hnode
    exact ⟨row, hrow, hh, hs.text_node (mem_rowsOf.2 ⟨hrow, hh⟩)⟩
  · rintro ⟨row, hrow, hh, hkey⟩
    have htext := hs.text_node (mem_rowsOf.2 ⟨hrow, hh⟩)
    exact ⟨row.node, h.mem_iff.2 ⟨row, hrow, hh, rfl⟩, Key.text_injective (htext.symm.trans hkey)⟩

theorem Lists.parents_iff (h : s.Lists hierarchy nodes) (hs : s.Orderly hierarchy) :
    Report.parentFindings nodes = [] ↔
      ∀ row ∈ s.nodes, row.hierarchy = hierarchy → ∀ key above : Key, row.key = key.text →
        key.parent? = some above →
          ∃ parent ∈ s.nodes, parent.hierarchy = hierarchy ∧ parent.key = above.text := by
  rw [parentFindings_eq_nil]
  simp only [h.mem_keys hs]
  constructor
  · intro hall row hrow hh key above hkey habove
    have htext := hs.text_node (mem_rowsOf.2 ⟨hrow, hh⟩)
    rw [Key.text_injective (hkey.symm.trans htext)] at habove
    exact hall row.node (h.mem_iff.2 ⟨row, hrow, hh, rfl⟩) above habove
  · intro hall node hnode above habove
    obtain ⟨row, hrow, hh, rfl⟩ := h.mem_iff.1 hnode
    exact hall row hrow hh _ above (hs.text_node (mem_rowsOf.2 ⟨hrow, hh⟩)) habove

theorem Lists.drifted_iff (h : s.Lists hierarchy nodes) {totals : Totals}
    (htotals : ∀ row ∈ s.rowsOf hierarchy,
      computedAmount totals row.node = (s.holdings hierarchy row.key).card) :
    drifted totals nodes = [] ↔ s.Counted hierarchy := by
  rw [drifted, List.filter_eq_nil_iff]
  constructor
  · intro hall row hrow hh
    have hexact := hall row.node (h.mem_iff.2 ⟨row, hrow, hh, rfl⟩)
    rw [decide_eq_true_iff, not_not, htotals row (mem_rowsOf.2 ⟨hrow, hh⟩)] at hexact
    rwa [hh]
  · intro hcounted node hnode
    obtain ⟨row, hrow, hh, rfl⟩ := h.mem_iff.1 hnode
    rw [decide_eq_true_iff, not_not, htotals row (mem_rowsOf.2 ⟨hrow, hh⟩), ← hh]
    exact hcounted row hrow hh

end Lists

theorem orphans_eq_nil_iff :
    s.orphans hierarchy = [] ↔ ∀ asset ∈ s.assets, asset.hierarchy = hierarchy →
      ∃ node, (asset.id, node) ∈ s.attachments := by
  rw [List.eq_nil_iff_forall_not_mem]
  constructor
  · intro hnone asset hasset hh
    by_contra hout
    exact hnone asset.id (mem_orphans.2 ⟨⟨asset, hasset, rfl, hh⟩, fun node hlink => hout ⟨node, hlink⟩⟩)
  · intro hall id hid
    obtain ⟨⟨asset, hasset, rfl, hh⟩, hout⟩ := mem_orphans.1 hid
    obtain ⟨node, hlink⟩ := hall asset hasset hh
    exact hout node hlink

/-! ## Checks -/

theorem Orderly.exists_check (hs : s.Orderly hierarchy) :
    ∃ report, reconcile hierarchy .checkOnly s = .ok (report, s) ∧
      (report.clean = true ↔ s.Consistent hierarchy) := by
  obtain ⟨nodes, hnodes, hlists⟩ := hs.exists_lists
  obtain ⟨pairs, hpairs⟩ : ∃ pairs, s.keyedAssets (s.rowsOf hierarchy) = .ok pairs :=
    exists_keyedAssets hs.legible
  have htotals := fun row (hrow : row ∈ s.rowsOf hierarchy) => hlists.computed_eq hs hpairs hrow
  rw [reconcile, Transaction.get_bind, Transaction.lift_bind, hnodes, ok_bind]
  dsimp only
  rw [Transaction.get_bind, Transaction.lift_bind, hpairs, ok_bind]
  generalize aggregate (nodes.map (·.key)) pairs false = totals at htotals ⊢
  refine ⟨_, rfl, ?_⟩
  simp only [Bool.and_eq_true, List.isEmpty_iff, List.map_eq_nil_iff, take_maxFindings,
    List.append_eq_nil_iff, rootFindings_eq_nil, orphanFindings_checkOnly, hlists.roots_iff hs,
    hlists.parents_iff hs, hlists.drifted_iff htotals, orphans_eq_nil_iff]
  constructor
  · rintro ⟨⟨hcounted, hplaced⟩, ⟨hroot, hparented⟩, -⟩
    exact ⟨hroot, hparented, hplaced, hcounted⟩
  · intro h
    exact ⟨⟨h.counted, h.placed⟩, ⟨h.root, h.parented⟩, h.placed⟩

/-- A repair of a consistent hierarchy takes the mark off it and leaves all rows as they are. -/
theorem Consistent.repair_eq (h : s.Consistent hierarchy) (hs : s.Orderly hierarchy) :
    ∃ report, reconcile hierarchy .repair s = .ok (report, s.unmark hierarchy) := by
  obtain ⟨nodes, hnodes, hlists⟩ := hs.exists_lists
  obtain ⟨pairs, hpairs⟩ : ∃ pairs, s.keyedAssets (s.rowsOf hierarchy) = .ok pairs :=
    exists_keyedAssets hs.legible
  have htotals := fun row (hrow : row ∈ s.rowsOf hierarchy) => hlists.computed_eq hs hpairs hrow
  have hheal := hlists.heal_eq hs
  have hhome : s.plus (s.homeward hierarchy) = s := by
    rw [homeward, orphans_eq_nil_iff.2 h.placed]
    split <;> exact congrArg (fun links => ({ s with attachments := links } : Store)) (List.append_nil _)
  rw [hhome] at hheal
  obtain ⟨⟨report, t⟩, hrun, -, -, ht⟩ := reconcile_of_heal hnodes hheal hpairs rfl
  rw [(hlists.drifted_iff htotals).2 h.counted] at ht
  refine ⟨report, hrun.trans ?_⟩
  rw [show t = s.unmark hierarchy from ht]

/-! ## Tidy stores -/

theorem Sound.consistent (hs : s.Sound) (hhost : ∃ host ∈ s.hierarchies, host.id = hierarchy)
    (hunmarked : hierarchy ∉ s.marked) : s.Consistent hierarchy where
  root := by
    obtain ⟨host, hhost, rfl⟩ := hhost
    obtain ⟨root, hroot, hh, hp⟩ := hs.formed.rooted host hhost
    obtain ⟨key, hkey⟩ := hs.formed.keyed root hroot
    refine ⟨root, ⟨hroot, hh, key, hkey, (hs.formed.isRoot_iff hroot hkey).1 hp⟩, ?_⟩
    rintro row ⟨hrow, hh', key', hkey', htop⟩
    have hp' := (hs.formed.isRoot_iff hrow hkey').2 htop
    exact hs.formed.root_unique hrow hroot (hh'.trans hh.symm) hp' hp
  parented := by
    intro row hrow hh key above hkey habove
    have hup : row.parentKey = above.text :=
      (hs.formed.parentKey_eq hrow hkey).trans (Key.parentText_of_parent? habove)
    obtain ⟨parent, hparent, hh', hk⟩ := hs.parented row hrow (hup ▸ Key.text_ne_empty above)
    exact ⟨parent, hparent, hh'.trans hh, hk.trans hup⟩
  placed := fun asset hasset _ => hs.placed asset hasset
  counted := fun row hrow hh => hs.settled row hrow (hh ▸ hunmarked)

theorem Tidy.check_clean (hs : s.Tidy) (hhost : ∃ host ∈ s.hierarchies, host.id = hierarchy)
    (hunmarked : hierarchy ∉ s.marked) :
    ∃ report, reconcile hierarchy .checkOnly s = .ok (report, s) ∧ report.clean = true := by
  obtain ⟨report, hrun, hclean⟩ := (hs.sturdy.orderly hierarchy).exists_check
  exact ⟨report, hrun, hclean.2 (hs.consistent hhost hunmarked)⟩

end Inventory.Store
