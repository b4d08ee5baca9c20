import Inventory.Proofs.Store.Listing
import Inventory.Tree.Questions

/-! # Repairs of tidy stores

A repair of a tidy store takes the mark off a hierarchy and changes nothing else but amounts; without
the mark, the cached amounts are the computed ones. -/
namespace Inventory.Store
set_option autoImplicit false
variable {s t u : Store} {hierarchy : HierarchyId}

/-! ## Reading a hierarchy -/

/-- The nodes of a hierarchy and what is attached to them can be read. -/
theorem Tidy.exists_read (hs : s.Tidy) (hierarchy : HierarchyId) :
    ∃ nodes pairs, s.nodesOf hierarchy = .ok nodes ∧ s.keyedAssets (s.rowsOf hierarchy) = .ok pairs ∧
      (nodes.map Node.row).Perm (s.rowsOf hierarchy) := by
  have hlegible : ∀ row ∈ s.rowsOf hierarchy, row.Legible := fun row hrow =>
    hs.legible row (mem_rowsOf.1 hrow).1
  obtain ⟨_, -, hnodes⟩ := nodesOf_eq hlegible
  obtain ⟨pairs, hpairs⟩ := exists_keyedAssets hlegible
  exact ⟨_, pairs, hnodes, hpairs, hs.formed.nodesOf hnodes⟩

theorem Formed.ascending_nodesOf (hs : s.Formed) {nodes : List Node}
    (h : s.nodesOf hierarchy = .ok nodes) : Key.ascending (nodes.map (·.key)) = nodes.map (·.key) := by
  have hrows := (hs.nodesOf h).subperm.trans List.filter_sublist.subperm
  rw [Key.ascending, eraseDups_of_nodup (hs.nodup_keys hrows rfl)]
  obtain ⟨read, -, rfl⟩ := map_eq_ok.1 h
  rw [map_key_sortNodes]
  exact Key.sort_eq_of_perm (List.mergeSort_perm ..)

theorem Tidy.reconcile_of_read (hs : s.Tidy) {nodes : List Node}
    (hnodes : s.nodesOf hierarchy = .ok nodes) {pairs : List KeyedAsset}
    (hpairs : s.keyedAssets (s.rowsOf hierarchy) = .ok pairs) (mode : Mode) :
    reconcile hierarchy mode s =
      .ok (s.examined hierarchy mode nodes (aggregate (nodes.map (·.key)) pairs false),
        if mode = .repair then (s.setAmounts (drifted (aggregate (nodes.map (·.key)) pairs false) nodes)
          (computedAmount (aggregate (nodes.map (·.key)) pairs false))).unmark hierarchy
        else s) := by
  rw [reconcile_placed hs.placed, hnodes]
  show (s.keyedAssets (s.rowsOf hierarchy) >>= _) = _
  rw [hpairs]
  rfl

/-! ## Hierarchies without a mark -/

theorem Sound.amount_eq_computed (hs : s.Sound) (hunmarked : hierarchy ∉ s.marked)
    {nodes : List Node} (hnodes : (nodes.map Node.row).Perm (s.rowsOf hierarchy))
    {pairs : List KeyedAsset} (hpairs : s.keyedAssets (s.rowsOf hierarchy) = .ok pairs) {node : Node}
    (hnode : node ∈ nodes) :
    node.amount = computedAmount (aggregate (nodes.map (·.key)) pairs false) node := by
  obtain ⟨hin, hh⟩ := mem_rowsOf.1 (hnodes.mem_iff.1 (List.mem_map_of_mem hnode))
  rw [computedAmount_of_perm hnodes hpairs hnode, ← hh]
  exact hs.settled node.row hin (hh ▸ hunmarked)

theorem Tidy.computedCounts_eq (hs : s.Tidy) (hunmarked : hierarchy ∉ s.marked) :
    ∃ nodes counts, s.nodesOf hierarchy = .ok nodes ∧ s.computedCounts hierarchy = .ok counts ∧
      counts.map (fun count => (count.1, (count.2 : Int))) =
        nodes.map fun node => (node.key, node.amount) := by
  obtain ⟨nodes, pairs, hnodes, hpairs, hperm⟩ := hs.exists_read hierarchy
  refine ⟨nodes, (aggregate (nodes.map (·.key)) pairs false).counts, hnodes, ?_, ?_⟩
  · rw [computedCounts, hnodes]
    show (s.keyedAssets (s.rowsOf hierarchy) >>= _) = _
    rw [hpairs]
    rfl
  · rw [Totals.counts_aggregate, hs.formed.ascending_nodesOf hnodes, List.map_map, List.map_map]
    refine List.map_congr_left fun node hnode => ?_
    rw [hs.amount_eq_computed hunmarked hperm hpairs hnode]
    rfl

/-! ## Repairs -/

/-- Hierarchies are repaired one after another; those that are not there are passed over. -/
inductive Repairs : List HierarchyId → Store → Store → Prop
  | nil (s : Store) : Repairs [] s s
  | repair {hierarchy : HierarchyId} {rest : List HierarchyId} {s t u : Store} {report : Report}
      (hrun : reconcile hierarchy .repair s = .ok (report, t)) (hrest : Repairs rest t u) :
      Repairs (hierarchy :: rest) s u
  | unknown {hierarchy : HierarchyId} {rest : List HierarchyId} {s t : Store}
      (hnone : ¬∃ host ∈ s.hierarchies, host.id = hierarchy) (hrest : Repairs rest s t) :
      Repairs (hierarchy :: rest) s t

theorem Repairs.append {first second : List HierarchyId} (h : Repairs first s t)
    (h' : Repairs second t u) : Repairs (first ++ second) s u := by
  induction h with
  | nil => exact h'
  | repair hrun _ ih => exact .repair hrun (ih h')
  | unknown hnone _ ih => exact .unknown hnone (ih h')

/-- Repairs of some hierarchies lead from one tidy store to the other. -/
structure Repaired (repairs : List HierarchyId) (s t : Store) : Prop where
  tidy : t.Tidy
  hierarchies : t.hierarchies = s.hierarchies
  nodes : t.nodes.map NodeRow.bare = s.nodes.map NodeRow.bare
  assets : t.assets = s.assets
  attachments : t.attachments = s.attachments
  marked : ∀ h, h ∈ t.marked ↔ h ∈ s.marked ∧ h ∉ repairs

theorem Tidy.repaired_nil (hs : s.Tidy) : Repaired [] s s :=
  ⟨hs, rfl, rfl, rfl, rfl, fun _ => (and_iff_left List.not_mem_nil).symm⟩

theorem Repaired.append {first second : List HierarchyId} (h : Repaired first s t)
    (h' : Repaired second t u) : Repaired (first ++ second) s u where
  tidy := h'.tidy
  hierarchies := h'.hierarchies.trans h.hierarchies
  nodes := h'.nodes.trans h.nodes
  assets := h'.assets.trans h.assets
  attachments := h'.attachments.trans h.attachments
  marked host := by
    rw [h'.marked, h.marked, List.mem_append, not_or, and_assoc]

theorem Repaired.bare {repairs : List HierarchyId} (h : Repaired repairs s t) : t.bare = s.bare :=
  bare_eq_iff.2 ⟨h.hierarchies, h.nodes, h.assets, h.attachments⟩

theorem Tidy.repaired_of_run (hs : s.Tidy) {report : Report}
    (hrun : reconcile hierarchy .repair s = .ok (report, t)) : Repaired [hierarchy] s t := by
  obtain ⟨hsound, hattached, hassets, hmarked⟩ := reconcile_sound hs.toSound hrun
  have hstill := (Transaction.stays_reconcile _ _ _ _ hrun).toStill
  refine ⟨hstill.tidy hs hsound, hstill.hierarchies, hstill.nodes, hassets, hattached, fun host => ?_⟩
  rw [hmarked, List.mem_filter, bne_iff_ne, List.mem_singleton]

/-- A hierarchy that is not there has no mark to take away. -/
theorem Tidy.repaired_of_unknown (hs : s.Tidy)
    (hnone : ¬∃ host ∈ s.hierarchies, host.id = hierarchy) : Repaired [hierarchy] s s := by
  refine ⟨hs, rfl, rfl, rfl, rfl, fun host => ?_⟩
  rw [List.mem_singleton]
  refine (and_iff_left_of_imp fun hmarked heq => ?_).symm
  exact hnone (heq ▸ hs.vouched host hmarked)

theorem Repairs.repaired {repairs : List HierarchyId} (h : Repairs repairs s t) (hs : s.Tidy) :
    Repaired repairs s t := by
  induction h with
  | nil => exact hs.repaired_nil
  | repair hrun _ ih =>
    have hfirst := hs.repaired_of_run hrun
    exact hfirst.append (ih hfirst.tidy)
  | unknown hnone _ ih => exact (hs.repaired_of_unknown hnone).append (ih hs)

end Inventory.Store
