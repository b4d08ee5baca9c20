import Inventory.Proofs.Store.Repair
import Inventory.Request

/-! # Failures that are mistakes of the caller

In a tidy store all keys can be read and a hierarchy has one root. What is left to fail is the
request itself: it asks for something that is not there, or for something that is not allowed. Where
numbers run out, a new one cannot be had either. -/
namespace Inventory
set_option autoImplicit false
variable {α β : Type} {full : Prop}

/-- The request asks for something that is not there or not allowed. -/
def Error.isMistake (e : Error) : Prop :=
  e.kind ∈ [ErrorKind.notFound, .invalid, .duplicateSibling, .nodeNotEmpty]

/-- If it fails, the caller has made a mistake, or it runs out of numbers that are `full`. -/
def Fair (full : Prop) (x : Except Error α) : Prop :=
  ∀ e, x = .error e → e.isMistake ∧ (e = .overflow → full)

/-! ## Steps put together -/

theorem fair_ok (a : α) : Fair full (.ok a) := by
  intro e h
  cases h

theorem fair_of_eq {x : Except Error α} {a : α} (h : x = .ok a) : Fair full x := h ▸ fair_ok a

theorem fair_error {e : Error} (h : e.isMistake ∧ (e = .overflow → full)) :
    Fair full (.error e : Except Error α) := by
  intro e' he
  cases he
  exact h

theorem Fair.bind {x : Except Error α} {next : α → Except Error β} (h : Fair full x)
    (hnext : ∀ a, x = .ok a → Fair full (next a)) : Fair full (x >>= next) := by
  cases x with
  | ok a => exact hnext a rfl
  | error e => exact fair_error (h e rfl)

theorem Fair.map {x : Except Error α} (f : α → β) (h : Fair full x) : Fair full (f <$> x) := by
  cases x with
  | ok a => exact fair_ok (f a)
  | error e => exact fair_error (h e rfl)

theorem fair_mapM {read : α → Except Error β} {items : List α}
    (h : ∀ item ∈ items, Fair full (read item)) : Fair full (items.mapM read) := by
  induction items with
  | nil => exact fair_ok []
  | cons item rest ih =>
    rw [List.mapM_cons]
    refine (h item List.mem_cons_self).bind fun a _ => ?_
    refine (ih fun other hother => h other (List.mem_cons_of_mem _ hother)).bind fun _ _ => ?_
    exact fair_ok _

namespace Transaction
variable {s : Store}

theorem fair_bind {act : Transaction α} {next : α → Transaction β} (h : Fair full (act s))
    (hnext : ∀ a t, act s = .ok (a, t) → Fair full (next a t)) : Fair full ((act >>= next) s) := by
  have hrun : Fair full (act s >>= fun r => next r.1 r.2) := h.bind fun r hr => hnext r.1 r.2 hr
  exact hrun

theorem fair_lift_bind {x : Except Error α} {next : α → Transaction β} (h : Fair full x)
    (hnext : ∀ a, x = .ok a → Fair full (next a s)) :
    Fair full (((liftM x : Transaction α) >>= next) s) := by
  rw [lift_bind]
  exact h.bind hnext

theorem fair_map_lift {x : Except Error α} (f : α → β) (h : Fair full x) :
    Fair full ((f <$> (liftM x : Transaction α)) s) := by
  cases x with
  | ok a => exact fair_ok (f a, s)
  | error e => exact fair_error (h e rfl)

end Transaction

theorem Name.validate_fair (text : String) : Fair full (Name.validate text) := by
  rw [validate]
  split
  · exact fair_error (by simp [Error.isMistake, Error.kind])
  · split
    · exact fair_error (by simp [Error.isMistake, Error.kind])
    · exact fair_ok _

namespace Store
variable {s s' : Store} {hierarchy : HierarchyId}

/-! ## Questions -/

theorem requireHierarchy_fair (s : Store) (id : HierarchyId) :
    Fair full (s.requireHierarchy id) := by
  rw [requireHierarchy]
  cases s.hierarchy? id with
  | none => exact fair_error (by simp [Error.isMistake, Error.kind])
  | some found => exact fair_ok found

theorem requireAsset_fair (s : Store) (id : AssetId) : Fair full (s.requireAsset id) := by
  rw [requireAsset]
  cases s.asset? id with
  | none => exact fair_error (by simp [Error.isMistake, Error.kind])
  | some found => exact fair_ok found

theorem ensureAssetsIn_fair (s : Store) (hierarchy : HierarchyId) (ids : List AssetId) :
    Fair full (s.ensureAssetsIn hierarchy ids) := by
  unfold ensureAssetsIn
  dsimp only
  split
  · exact fair_ok ()
  · exact fair_error (by simp [Error.isMistake, Error.kind])

/-- No hierarchy has two rows without a parent. -/
theorem Formed.exists_rootNode? (hs : s.Formed) (hlegible : ∀ row ∈ s.nodes, row.Legible)
    (hierarchy : HierarchyId) : ∃ found, s.rootNode? hierarchy = .ok found := by
  rw [Store.rootNode?]
  have hrow : ∀ row ∈ (s.rowsOf hierarchy).filter (·.parentKey == ""),
      row ∈ s.nodes ∧ row.hierarchy = hierarchy ∧ row.parentKey = "" := by
    intro row hrow
    obtain ⟨hin, htop⟩ := List.mem_filter.1 hrow
    exact ⟨(mem_rowsOf.1 hin).1, (mem_rowsOf.1 hin).2, beq_iff_eq.1 htop⟩
  obtain ⟨roots, hroots⟩ := exists_mapM_read _ fun row h => hlegible row (hrow row h).1
  have hrows := hs.mapM_read (fun row h => (hrow row h).1) hroots
  rw [hroots]
  cases roots with
  | nil => exact ⟨none, rfl⟩
  | cons first others =>
    cases others with
    | nil => exact ⟨some first, rfl⟩
    | cons second rest =>
      have hnodup : ((s.rowsOf hierarchy).filter (·.parentKey == "")).Nodup :=
        ((hs.nodeIds.of_map _).filter _).filter _
      rw [← hrows] at hrow hnodup
      obtain ⟨hin, hh, hp⟩ := hrow first.row (by simp)
      obtain ⟨hin', hh', hp'⟩ := hrow second.row (by simp)
      have hsame := hs.root_unique hin hin' (hh.trans hh'.symm) hp hp'
      simp [hsame] at hnodup

/-- A hierarchy has a root, and it can be read. -/
theorem Formed.exists_root (hs : s.Formed) (hlegible : ∀ row ∈ s.nodes, row.Legible)
    (hhost : ∃ host ∈ s.hierarchies, host.id = hierarchy) :
    ∃ root, s.rootNode? hierarchy = .ok (some root) ∧ root.row ∈ s.nodes ∧
      root.hierarchy = hierarchy ∧ root.row.parentKey = "" := by
  obtain ⟨found, hfound⟩ := hs.exists_rootNode? hlegible hierarchy
  obtain ⟨host, hhost, rfl⟩ := hhost
  obtain ⟨row, hrow, hh, hp⟩ := hs.rooted host hhost
  obtain ⟨root, rfl, -⟩ := (hs.rootNode? hfound).1 row hrow hh hp
  exact ⟨root, hfound, (hs.rootNode? hfound).2 root rfl⟩

theorem Formed.exists_requireRoot (hs : s.Formed) (hlegible : ∀ row ∈ s.nodes, row.Legible)
    (hhost : ∃ host ∈ s.hierarchies, host.id = hierarchy) :
    ∃ root, s.requireRoot hierarchy = .ok root ∧ root.row ∈ s.nodes ∧
      root.hierarchy = hierarchy ∧ root.row.parentKey = "" := by
  obtain ⟨root, hfound, hroot⟩ := hs.exists_root hlegible hhost
  refine ⟨root, ?_, hroot⟩
  rw [Store.requireRoot, hfound]
  rfl

theorem Tidy.requireRoot_eq (hs : s.Tidy) {root : Node} (hroot : root.row ∈ s.nodes)
    (htop : root.row.parentKey = "") : s.requireRoot root.hierarchy = .ok root := by
  obtain ⟨found, hfound, hin, hh, hp⟩ :=
    hs.formed.exists_requireRoot hs.legible (hs.formed.hosted root.row hroot)
  have hrow := hs.formed.root_unique hin hroot hh hp htop
  rwa [Node.row_injective hrow] at hfound

namespace Tidy
variable (hs : s.Tidy)
include hs

theorem mapM_read_fair {rows : List NodeRow} (hrows : ∀ row ∈ rows, row ∈ s.nodes) :
    Fair full (rows.mapM NodeRow.read) :=
  fair_of_eq (mapM_read_eq fun row hrow => hs.legible row (hrows row hrow))

theorem node?_fair (id : NodeId) : Fair full (s.node? id) := by
  rw [node?]
  cases hfind : s.nodes.find? (·.id == id) with
  | none => exact fair_ok none
  | some row =>
    have hread := (hs.legible row (List.mem_of_find?_eq_some hfind)).read_eq
    exact (fair_of_eq hread).map some

theorem requireNode_fair (id : NodeId) : Fair full (s.requireNode id) := by
  rw [requireNode]
  refine (hs.node?_fair id).bind fun found _ => ?_
  cases found with
  | none => exact fair_error (by simp [Error.isMistake, Error.kind])
  | some node => exact fair_ok node

theorem nodeByKey?_fair (hierarchy : HierarchyId) (key : Key) :
    Fair full (s.nodeByKey? hierarchy key) := by
  rw [nodeByKey?]
  cases hfind : (s.rowsOf hierarchy).find? (·.key == key.text) with
  | none => exact fair_ok none
  | some row =>
    have hin := (mem_rowsOf.1 (List.mem_of_find?_eq_some hfind)).1
    exact (fair_of_eq (hs.legible row hin).read_eq).map some

theorem rootNode?_fair (hierarchy : HierarchyId) : Fair full (s.rootNode? hierarchy) := by
  obtain ⟨found, hfound⟩ := hs.formed.exists_rootNode? hs.legible hierarchy
  exact fair_of_eq hfound

theorem requireRoot_fair (hierarchy : HierarchyId) : Fair full (s.requireRoot hierarchy) := by
  rw [requireRoot]
  refine (hs.rootNode?_fair hierarchy).bind fun found _ => ?_
  cases found with
  | none => exact fair_error (by simp [Error.isMistake, Error.kind])
  | some root => exact fair_ok root

theorem children_fair (hierarchy : HierarchyId) (parent : Key) :
    Fair full (s.children hierarchy parent) :=
  (hs.mapM_read_fair fun _ hrow => (mem_rowsOf.1 (List.mem_of_mem_filter hrow)).1).map _

theorem nodesByIds_fair (ids : List NodeId) : Fair full (s.nodesByIds ids) :=
  hs.mapM_read_fair fun _ hrow => List.mem_of_mem_filter hrow

theorem nodesOf_fair (hierarchy : HierarchyId) : Fair full (s.nodesOf hierarchy) :=
  (hs.mapM_read_fair fun _ hrow => (mem_rowsOf.1 (List.mem_mergeSort.1 hrow)).1).map _

theorem subtreeNodes_fair (hierarchy : HierarchyId) (key : Key) :
    Fair full (s.subtreeNodes hierarchy key) :=
  (hs.mapM_read_fair fun _ hrow =>
    (mem_rowsOf.1 (List.mem_of_mem_filter (List.mem_mergeSort.1 hrow))).1).map _

theorem loadNodesIn_fair (hierarchy : HierarchyId) (ids : List NodeId) :
    Fair full (s.loadNodesIn hierarchy ids) := by
  rw [loadNodesIn]
  refine (hs.nodesByIds_fair ids).bind fun nodes _ => ?_
  dsimp only
  split
  · exact fair_error (by simp [Error.isMistake, Error.kind])
  · cases nodes.find? (·.hierarchy != hierarchy) with
    | none => exact fair_ok nodes
    | some stray => exact fair_error (by simp [Error.isMistake, Error.kind])

theorem keyedAssets_fair {rows : List NodeRow} (hrows : ∀ row ∈ rows, row ∈ s.nodes) :
    Fair full (s.keyedAssets rows) := by
  obtain ⟨pairs, hpairs⟩ := exists_keyedAssets fun row hrow => hs.legible row (hrows row hrow)
  exact fair_of_eq hpairs

theorem totalsBelow_fair (id : NodeId) (keepAssets : Bool) :
    Fair full (s.totalsBelow id keepAssets) := by
  rw [totalsBelow]
  refine (hs.requireNode_fair id).bind fun node _ => ?_
  refine (hs.subtreeNodes_fair _ _).bind fun nodes _ => ?_
  refine (hs.keyedAssets_fair fun _ hrow => (mem_rowsOf.1 (List.mem_of_mem_filter hrow)).1).bind
    fun pairs _ => ?_
  exact fair_ok _

theorem subtreeCount_fair (id : NodeId) : Fair full (s.subtreeCount id) :=
  (hs.totalsBelow_fair id false).bind fun _ _ => fair_ok _

theorem assetIdsOf_fair (id : NodeId) : Fair full (s.assetIdsOf id) :=
  (hs.totalsBelow_fair id true).bind fun _ _ => fair_ok _

theorem assetsUnder_fair (ids : List NodeId) : Fair full (s.assetsUnder ids) := by
  rw [assetsUnder]
  cases ids.eraseDups with
  | nil => exact fair_ok []
  | cons first rest =>
    refine (hs.requireNode_fair first).bind fun node _ => ?_
    refine (hs.loadNodesIn_fair _ _).bind fun nodes _ => ?_
    refine (fair_mapM fun key _ => ?_).bind fun pairs _ => fair_ok _
    exact hs.keyedAssets_fair fun _ hrow => (mem_rowsOf.1 (List.mem_of_mem_filter hrow)).1

theorem computedCounts_fair (hierarchy : HierarchyId) : Fair full (s.computedCounts hierarchy) := by
  rw [computedCounts]
  refine (hs.nodesOf_fair hierarchy).bind fun nodes _ => ?_
  exact (hs.keyedAssets_fair fun _ hrow => (mem_rowsOf.1 hrow).1).bind fun _ _ => fair_ok _

theorem reconcile_fair (hierarchy : HierarchyId) (mode : Mode) :
    Fair full (reconcile hierarchy mode s) := by
  obtain ⟨nodes, pairs, hnodes, hpairs, -⟩ := hs.exists_read hierarchy
  exact fair_of_eq (hs.reconcile_of_read hnodes hpairs mode)

end Tidy
end Store
end Inventory
