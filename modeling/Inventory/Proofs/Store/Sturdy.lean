import Inventory.Proofs.Store.Mending
import Inventory.Proofs.Store.Repair

/-! # What no transaction breaks

Whatever a transaction finds amiss, it leaves rows that are told apart by their ids, keys that can
be read, and marks on hierarchies that exist. That is all a repair asks for, so in a store of this
kind every repair goes through. -/
namespace Inventory.Store
set_option autoImplicit false
variable {s t u s' : Store} {owed : List HierarchyId} {hierarchy : HierarchyId}

/-- Every hierarchy can be repaired, and marks are on hierarchies that exist. -/
structure Sturdy (s : Store) : Prop where
  nodeIds : (s.nodes.map (·.id)).Nodup
  assetIds : (s.assets.map (·.id)).Nodup
  keys : ∀ hierarchy, ((s.rowsOf hierarchy).map (·.key)).Nodup
  bounded : ∀ row ∈ s.nodes, ∃ key : Key, row.key = key.text ∧ key.Bounded
  hosted : ∀ row ∈ s.nodes, ∃ host ∈ s.hierarchies, host.id = row.hierarchy
  vouched : ∀ h ∈ s.marked, ∃ host ∈ s.hierarchies, host.id = h

/-- A sturdy store stays so, and new marks are on some of the given hierarchies. -/
structure Upholds (owed : List HierarchyId) (s t : Store) : Prop where
  sturdy : s.Sturdy → t.Sturdy
  fresh : ∀ h ∈ t.marked, h ∈ s.marked ∨ h ∈ owed

theorem Upholds.refl (s : Store) : Upholds owed s s := ⟨id, fun _ => Or.inl⟩

theorem Upholds.trans (h : Upholds owed s t) (h' : Upholds owed t u) : Upholds owed s u where
  sturdy hs := h'.sturdy (h.sturdy hs)
  fresh host hhost := (h'.fresh host hhost).elim (h.fresh host) Or.inr

theorem Tidy.sturdy (hs : s.Tidy) : s.Sturdy where
  nodeIds := hs.formed.nodeIds
  assetIds := hs.formed.assetIds
  keys _ := hs.formed.keys.sublist (List.filter_sublist.map _)
  bounded row hrow := by
    obtain ⟨key, htext⟩ := hs.formed.keyed row hrow
    exact ⟨key, htext, bounded_of_legible htext (hs.legible row hrow)⟩
  hosted := hs.formed.hosted
  vouched := hs.vouched

/-! ## Repairs -/

theorem Sturdy.orderly (hs : s.Sturdy) (hierarchy : HierarchyId) : s.Orderly hierarchy where
  nodeIds := hs.nodeIds
  assetIds := hs.assetIds
  keys := hs.keys hierarchy
  canonical row hrow := by
    obtain ⟨key, htext, hbounded⟩ := hs.bounded row (mem_rowsOf.1 hrow).1
    obtain ⟨read, hread⟩ := Key.ofText?_text_isSome.2 hbounded
    rw [htext]
    exact ⟨key, Key.eq_of_ofText?_text hread ▸ hread, rfl⟩

/-- What repairs make of a sturdy store. -/
structure Mended (repairs : List HierarchyId) (s t : Store) : Prop where
  sturdy : t.Sturdy
  hierarchies : t.hierarchies = s.hierarchies
  marked : ∀ h, h ∈ t.marked ↔ h ∈ s.marked ∧ h ∉ repairs
  counted : ∀ h ∈ repairs, t.Counted h
  kept : ∀ h, s.Counted h → t.Counted h

theorem Mends.counted {report : Report} (h : Mends hierarchy s t report) : t.Counted hierarchy := by
  intro row hrow hh
  rw [h.nodes] at hrow
  obtain ⟨old, -, rfl⟩ := List.mem_map.1 hrow
  by_cases hold : old.hierarchy = hierarchy
  · simp only [if_pos hold]
    rw [hold]
  · rw [if_neg hold] at hh
    exact absurd hh hold

/-- The assets that go to the root of one hierarchy do not count in another. -/
theorem Mends.holdings_other {report : Report} (h : Mends hierarchy s t report) (hs : s.Sturdy)
    {other : HierarchyId} (hne : other ≠ hierarchy) (top : String) :
    t.holdings other top = s.holdings other top := by
  rw [holdings, holdings, h.alike.reach_eq]
  by_cases hroots : (s.rootRows hierarchy).length = 1
  · obtain ⟨root, hroot⟩ := List.length_eq_one_iff.1 hroots
    have hin : root ∈ s.rootRows hierarchy := hroot ▸ List.mem_singleton_self root
    obtain ⟨hrow, hh⟩ := mem_rowsOf.1 (List.mem_of_mem_filter hin)
    have hnone : reach s.nodes (report.orphans.map (·, root.id)) other top = ∅ := by
      refine reach_eq_empty (fun row hrow' hh' asset hlink => ?_) top
      obtain ⟨_, -, heq⟩ := List.mem_map.1 hlink
      have hsame := List.inj_on_of_nodup_map hs.nodeIds hrow hrow' (Prod.mk.inj heq).2
      exact hne (hh'.symm.trans (hsame ▸ hh))
    rw [h.healed root hroot, reach_append, hnone, Finset.union_empty]
  · rw [h.rootless hroots]

theorem Mends.mended {report : Report} (h : Mends hierarchy s t report) (hs : s.Sturdy)
    (ht : t.Sturdy) : Mended [hierarchy] s t where
  sturdy := ht
  hierarchies := h.hierarchies
  marked host := by rw [h.marked, List.mem_filter, bne_iff_ne, List.mem_singleton]
  counted host hhost := by
    rw [List.mem_singleton.1 hhost]
    exact h.counted
  kept host hcounted := by
    by_cases hne : host = hierarchy
    · rw [hne]
      exact h.counted
    · intro row hrow hh
      rw [h.nodes] at hrow
      obtain ⟨old, hold, rfl⟩ := List.mem_map.1 hrow
      by_cases hsame : old.hierarchy = hierarchy
      · simp only [if_pos hsame] at hh
        exact absurd (hh.symm.trans hsame) hne
      · rw [if_neg hsame] at hh ⊢
        rw [hh, h.holdings_other hs hne, ← hh]
        exact hcounted old hold hh

/-! ## Edits -/

/-- What is told of rows without their amounts is told of the rows of each hierarchy. -/
theorem map_rowsOf_of_bare (h : t.nodes.map NodeRow.bare = s.nodes.map NodeRow.bare)
    (hierarchy : HierarchyId) :
    (t.rowsOf hierarchy).map NodeRow.bare = (s.rowsOf hierarchy).map NodeRow.bare := by
  rw [rowsOf, rowsOf, ← filter_bare fun _ => rfl, h, filter_bare fun _ => rfl]

theorem StillBut.upholds (h : StillBut owed s t) : Upholds owed s t where
  sturdy hs :=
    { nodeIds := by
        rw [← map_bare fun _ => rfl, h.nodes, map_bare fun _ => rfl]
        exact hs.nodeIds
      assetIds := h.assetIds hs.assetIds
      keys := fun hierarchy => by
        rw [← map_bare fun _ => rfl, map_rowsOf_of_bare h.nodes, map_bare fun _ => rfl]
        exact hs.keys hierarchy
      bounded := fun row hrow => by
        obtain ⟨old, hold, -, -, hkey, -⟩ := h.exists_row hrow
        rw [← hkey]
        exact hs.bounded old hold
      hosted := fun row hrow => by
        obtain ⟨old, hold, -, hhost, -⟩ := h.exists_row hrow
        rw [← hhost, h.hierarchies]
        exact hs.hosted old hold
      vouched := fun host hhost => by
        rw [h.hierarchies]
        exact (h.marked host hhost).elim (hs.vouched host) id }
  fresh := h.fresh

/-! ## Nodes that are read -/

theorem requireRoot_read {hierarchy : HierarchyId} {root : Node} (h : s.requireRoot hierarchy = .ok root) :
    ∃ row ∈ s.nodes, row.read = .ok root := by
  rw [requireRoot, bind_eq_ok] at h
  obtain ⟨found, hfound, h⟩ := h
  rw [rootNode?, bind_eq_ok] at hfound
  obtain ⟨roots, hroots, hfound⟩ := hfound
  rcases roots with _ | ⟨top, _ | ⟨_, _⟩⟩
  · cases hfound
    cases h
  · cases hfound
    cases h
    obtain ⟨row, hrow, hread⟩ := (mem_of_mapM_eq_ok hroots).1 (List.mem_singleton_self _)
    exact ⟨row, (mem_rowsOf.1 (List.mem_of_mem_filter hrow)).1, hread⟩
  · cases hfound

theorem children_read {hierarchy : HierarchyId} {parent : Key} {nodes : List Node}
    (h : s.children hierarchy parent = .ok nodes) {node : Node} (hnode : node ∈ nodes) :
    ∃ row ∈ s.nodes, row.read = .ok node := by
  obtain ⟨read, hread, rfl⟩ := map_eq_ok.1 h
  obtain ⟨row, hrow, hnode⟩ := (mem_of_mapM_eq_ok hread).1 ((sortNodes_perm read).mem_iff.1 hnode)
  exact ⟨row, (mem_rowsOf.1 (List.mem_of_mem_filter hrow)).1, hnode⟩

theorem Sturdy.bounded_of_read (hs : s.Sturdy) {row : NodeRow} (hrow : row ∈ s.nodes) {node : Node}
    (h : row.read = .ok node) : node.key.Bounded := by
  obtain ⟨key, htext, hbounded⟩ := hs.bounded row hrow
  rw [NodeRow.read, bind_eq_ok] at h
  obtain ⟨read, hread, h⟩ := h
  cases h
  rw [NodeRow.readKey_eq_ok htext hread]
  exact hbounded

/-! ## Rows that come and go -/

theorem Sturdy.withNode (hs : s.Sturdy) {row : NodeRow} {key : Key} (htext : row.key = key.text)
    (hbounded : key.Bounded) (hid : ∀ old ∈ s.nodes, old.id ≠ row.id)
    (hfree : ∀ old ∈ s.nodes, old.hierarchy = row.hierarchy → old.key ≠ row.key)
    (hhost : ∃ host ∈ s.hierarchies, host.id = row.hierarchy) : (s.withNode [] row).Sturdy where
  nodeIds := by
    rw [Store.withNode, List.map_append]
    refine hs.nodeIds.append (List.nodup_singleton _) fun id hold hnew => ?_
    obtain ⟨old, hin, rfl⟩ := List.mem_map.1 hold
    exact hid old hin (List.mem_singleton.1 hnew)
  assetIds := hs.assetIds
  keys hierarchy := by
    rw [Store.withNode, rowsOf, List.filter_append, List.map_append]
    refine (hs.keys hierarchy).append ?_ fun text hold hnew => ?_
    · exact (List.nodup_singleton _).sublist (List.filter_sublist.map _)
    · obtain ⟨old, hof, rfl⟩ := List.mem_map.1 hold
      obtain ⟨hin, hh⟩ := mem_rowsOf.1 hof
      obtain ⟨other, hother, heq⟩ := List.mem_map.1 hnew
      obtain ⟨hsame, hh'⟩ := List.mem_filter.1 hother
      obtain rfl := List.mem_singleton.1 hsame
      exact hfree old hin (hh.trans (beq_iff_eq.1 hh').symm) heq.symm
  bounded other hother := by
    rcases List.mem_append.1 hother with hold | hnew
    · exact hs.bounded other hold
    · rw [List.mem_singleton.1 hnew]
      exact ⟨key, htext, hbounded⟩
  hosted other hother := by
    rw [Store.withNode, List.append_nil]
    rcases List.mem_append.1 hother with hold | hnew
    · exact hs.hosted other hold
    · rw [List.mem_singleton.1 hnew]
      exact hhost
  vouched host hmarked := by
    rw [Store.withNode, List.append_nil]
    exact hs.vouched host hmarked

theorem Sturdy.deleteNode (hs : s.Sturdy) (id : NodeId) : (s.deleteNode id).Sturdy where
  nodeIds := hs.nodeIds.sublist (List.filter_sublist.map _)
  assetIds := hs.assetIds
  keys hierarchy := (hs.keys hierarchy).sublist ((List.filter_sublist.filter _).map _)
  bounded row hrow := hs.bounded row (mem_deleteNode.1 hrow).1
  hosted row hrow := hs.hosted row (mem_deleteNode.1 hrow).1
  vouched := hs.vouched

theorem insertNode_upholds {key : Key} (hbounded : key.Bounded) {value fullValue : String} {id : NodeId}
    (h : insertNode hierarchy key value fullValue s = .ok (id, s')) : Upholds [] s s' := by
  obtain ⟨hfree, hhost, hid, rfl⟩ := insertNode_eq_ok h
  exact ⟨fun hs => hs.withNode rfl hbounded hid hfree hhost, fun _ => Or.inl⟩

/-! ## The structural transactions -/

section Children
variable {parent child : Node} {value : String}

theorem insertChild_upholds (hparent : parent.key.Bounded) {siblings : List Node}
    (h : insertChild parent siblings value s = .ok (child, s')) :
    Upholds [] s s' ∧ child.key.Bounded := by
  rw [insertChild] at h
  obtain ⟨hword, h⟩ := ensureWord_bind_eq_ok.1 h
  obtain ⟨id, s₁, hinsert, h⟩ := Transaction.bind_eq_ok.1 h
  cases h
  rw [Key.nextChild, Key.lastSegment_child] at hword
  have hbounded := hparent.child hword
  exact ⟨insertNode_upholds hbounded hinsert, hbounded⟩

theorem getOrInsertChild_upholds (hs : s.Sturdy) (hparent : parent.key.Bounded) {created : Bool}
    (h : getOrInsertChild parent value s = .ok ((child, created), s')) :
    Upholds [] s s' ∧ child.key.Bounded := by
  rw [getOrInsertChild, Transaction.get_bind] at h
  obtain ⟨siblings, hsiblings, h⟩ := Transaction.lift_bind_eq_ok.1 h
  cases hfind : siblings.find? (·.value == value) with
  | some found =>
    simp only [hfind] at h
    cases h
    obtain ⟨row, hrow, hread⟩ := children_read hsiblings (List.mem_of_find?_eq_some hfind)
    exact ⟨Upholds.refl _, hs.bounded_of_read hrow hread⟩
  | none =>
    simp only [hfind] at h
    obtain ⟨name, -, h⟩ := Transaction.lift_bind_eq_ok.1 h
    obtain ⟨node, s₁, hinsert, h⟩ := Transaction.bind_eq_ok.1 h
    cases h
    exact insertChild_upholds hparent hinsert

/-- Going down a path, every step starts from the child that the step before it has found. -/
theorem descend_upholds (hs : s.Sturdy) (hparent : parent.key.Bounded) {values : List String}
    (h : descend parent values s = .ok (child, s')) : Upholds [] s s' := by
  induction values generalizing s parent with
  | nil =>
    cases h
    exact Upholds.refl _
  | cons value rest ih =>
    rw [descend, Transaction.bind_eq_ok] at h
    obtain ⟨⟨next, created⟩, s₁, hnext, h⟩ := h
    obtain ⟨hupholds, hbounded⟩ := getOrInsertChild_upholds hs hparent hnext
    exact hupholds.trans (ih (hupholds.sturdy hs) hbounded h)

theorem createPath_upholds (hs : s.Sturdy) {path : String}
    (h : createPath hierarchy path s = .ok (child, s')) : Upholds [] s s' := by
  rw [createPath, Transaction.get_bind] at h
  obtain ⟨root, hroot, h⟩ := Transaction.lift_bind_eq_ok.1 h
  obtain ⟨row, hrow, hread⟩ := requireRoot_read hroot
  exact descend_upholds hs (hs.bounded_of_read hrow hread) h

theorem createChild_upholds (hs : s.Sturdy) {id : NodeId} {value : Option String} {preset : String}
    (h : createChild hierarchy id value preset s = .ok (child, s')) : Upholds [] s s' := by
  rw [createChild, Transaction.get_bind] at h
  obtain ⟨found, hfound, h⟩ := Transaction.lift_bind_eq_ok.1 h
  obtain ⟨row, hrow, -, hread⟩ := requireNode_read hfound
  have hbounded := hs.bounded_of_read hrow hread
  rw [Transaction.get_bind] at h
  obtain ⟨siblings, hsiblings, h⟩ := Transaction.lift_bind_eq_ok.1 h
  cases value with
  | none =>
    obtain ⟨-, h⟩ := ensureWord_bind_eq_ok.1 h
    exact (insertChild_upholds hbounded h).1
  | some name =>
    obtain ⟨stored, -, h⟩ := Transaction.lift_bind_eq_ok.1 h
    by_cases htaken : siblings.any (·.value == stored) = true
    · rw [if_pos htaken] at h
      cases h
    · rw [if_neg htaken] at h
      exact (insertChild_upholds hbounded h).1

end Children

theorem createHierarchy_upholds {name : String} {made : Hierarchy × Node}
    (h : createHierarchy name s = .ok (made, s')) : Upholds [] s s' := by
  rw [createHierarchy, insertHierarchy] at h
  obtain ⟨id, s₁, hhost, h⟩ := Transaction.bind_eq_ok.1 h
  cases hhost
  rw [Transaction.get_bind] at h
  obtain ⟨keys, hkeys, h⟩ := Transaction.lift_bind_eq_ok.1 h
  obtain ⟨hword, h⟩ := ensureWord_bind_eq_ok.1 h
  obtain ⟨node, s₂, hinsert, h⟩ := Transaction.bind_eq_ok.1 h
  cases h
  have hbounded : (Key.nextRoot keys).Bounded := fun segment hsegment => by
    rw [List.mem_singleton.1 hsegment]
    exact hword
  have hnew := insertNode_upholds hbounded hinsert
  refine ⟨fun hs => hnew.sturdy ?_, hnew.fresh⟩
  exact { hs with
    hosted := fun row hrow => (hs.hosted row hrow).imp fun _ h => ⟨List.mem_append_left _ h.1, h.2⟩
    vouched := fun host hhost =>
      (hs.vouched host hhost).imp fun _ h => ⟨List.mem_append_left _ h.1, h.2⟩ }

theorem removeNode_upholds {id : NodeId} (h : removeNode hierarchy id s = .ok ((), s')) :
    Upholds [] s s' := by
  rw [removeNode, Transaction.get_bind] at h
  obtain ⟨node, -, h⟩ := Transaction.lift_bind_eq_ok.1 h
  by_cases hroot : node.key.isRoot = true
  · rw [if_pos hroot] at h
    cases h
  · rw [if_neg hroot] at h
    by_cases hfull : (s.hasChildren hierarchy node.key || !(s.directAssets node.id).isEmpty) = true
    · simp only [hfull, if_true] at h
      cases h
    · simp only [hfull] at h
      cases h
      exact ⟨fun hs => hs.deleteNode node.id, fun _ => Or.inl⟩

/-! ## Jobs -/

theorem Sturdy.mended_of_run (hs : s.Sturdy) {report : Report}
    (hrun : reconcile hierarchy .repair s = .ok (report, t)) : Mended [hierarchy] s t := by
  obtain ⟨_, u, hrun', hmends⟩ := (hs.orderly hierarchy).exists_mends
  cases hrun.symm.trans hrun'
  exact hmends.mended hs ((Transaction.stays_reconcile _ _ _ _ hrun).upholds.sturdy hs)

theorem Sturdy.exists_repair (hs : s.Sturdy) (hierarchy : HierarchyId) :
    ∃ report t, reconcile hierarchy .repair s = .ok (report, t) := by
  obtain ⟨report, t, hrun, -⟩ := (hs.orderly hierarchy).exists_mends
  exact ⟨report, t, hrun⟩

/-- A hierarchy that is not there has neither a mark nor nodes. -/
theorem Sturdy.mended_of_unknown (hs : s.Sturdy)
    (hnone : ¬∃ host ∈ s.hierarchies, host.id = hierarchy) : Mended [hierarchy] s s := by
  refine ⟨hs, rfl, fun host => ?_, fun host hhost row hrow hh => ?_, fun _ => id⟩
  · rw [List.mem_singleton]
    refine (and_iff_left_of_imp fun hmarked heq => ?_).symm
    exact hnone (heq ▸ hs.vouched host hmarked)
  · rw [List.mem_singleton.1 hhost] at hh
    exact absurd (hh ▸ hs.hosted row hrow) hnone

theorem Sturdy.mended_nil (hs : s.Sturdy) : Mended [] s s where
  sturdy := hs
  hierarchies := rfl
  marked _ := (and_iff_left List.not_mem_nil).symm
  counted _ h := absurd h List.not_mem_nil
  kept _ := id

theorem Mended.append {first second : List HierarchyId} (h : Mended first s t)
    (h' : Mended second t u) : Mended (first ++ second) s u where
  sturdy := h'.sturdy
  hierarchies := h'.hierarchies.trans h.hierarchies
  marked host := by rw [h'.marked, h.marked, List.mem_append, not_or, and_assoc]
  counted host hhost := (List.mem_append.1 hhost).elim
    (fun hfirst => h'.kept host (h.counted host hfirst)) (h'.counted host)
  kept host hcounted := h'.kept host (h.kept host hcounted)

theorem Repairs.mended {repairs : List HierarchyId} (h : Repairs repairs s t) (hs : s.Sturdy) :
    Mended repairs s t := by
  induction h with
  | nil => exact hs.mended_nil
  | repair hrun _ ih =>
    have hfirst := hs.mended_of_run hrun
    exact hfirst.append (ih hfirst.sturdy)
  | unknown hnone _ ih => exact (hs.mended_of_unknown hnone).append (ih hs)

end Inventory.Store
