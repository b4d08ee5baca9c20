import Inventory.Proofs.Reconcile
import Inventory.Tree.Questions
import Inventory.Tree.Reassigning

/-! # Stores without amounts and marks

Cached amounts and marks are all that depends on when amounts are propagated. Every question about
a store gives the same answer without them, up to the amounts that it shows, and adjustments of
amounts leave the rest of a store alone. -/
namespace Inventory
set_option autoImplicit false

/-- The node without its cached amount. -/
def Node.bare (node : Node) : Node := { node with amount := 0 }

theorem Node.bare_congr {α : Type} (f : Node → α) (hf : ∀ node, f node.bare = f node)
    {node node' : Node} (h : node.bare = node'.bare) : f node = f node' := by
  rw [← hf, h, hf]

/-- The outcome without what it says about amounts. -/
def Outcome.bare (outcome : Outcome) : Outcome := { outcome with nodesUpdated := 0, deferred := false }

/-- The account of a move without what it says about amounts. -/
def Reassignment.bare (moved : Reassignment) : Reassignment :=
  { moved with nodesUpdated := 0, deferred := false }

/-- The report without the amounts that were found to be wrong. -/
def Report.bare (report : Report) : Report := { report with drift := [], clean := true }

namespace Store
variable {s : Store} {hierarchy : HierarchyId}

def bare (s : Store) : Store := { s with nodes := s.nodes.map NodeRow.bare, marked := [] }

theorem bare_congr {α : Type} (f : Store → α) (hf : ∀ s, f s.bare = f s) {s t : Store}
    (h : s.bare = t.bare) : f s = f t := by
  rw [← hf, h, hf]

theorem bare_eq_iff {t : Store} : s.bare = t.bare ↔
    s.hierarchies = t.hierarchies ∧ s.nodes.map NodeRow.bare = t.nodes.map NodeRow.bare ∧
      s.assets = t.assets ∧ s.attachments = t.attachments := by
  simp [bare, mk.injEq]

/-! ## Rows -/

theorem read_bare (row : NodeRow) : row.bare.read = Node.bare <$> row.read := by
  rw [NodeRow.read, NodeRow.read]
  have hkey : row.bare.readKey 2 = row.readKey 2 := rfl
  rw [hkey]
  cases row.readKey 2 with
  | error e => rfl
  | ok key => rfl

theorem map_mapM {α β γ : Type} (f : β → γ) (read : α → Except Error β) (items : List α) :
    List.map f <$> items.mapM read = items.mapM fun item => f <$> read item := by
  induction items with
  | nil => rfl
  | cons item rest ih =>
    rw [List.mapM_cons, List.mapM_cons, ← ih]
    cases read item with
    | error e => rfl
    | ok answer =>
      cases rest.mapM read with
      | error e => rfl
      | ok answers => rfl

theorem mapM_read_bare (rows : List NodeRow) :
    (rows.map NodeRow.bare).mapM NodeRow.read = List.map Node.bare <$> rows.mapM NodeRow.read := by
  rw [List.mapM_map, map_mapM]
  exact congrArg (rows.mapM ·) (funext read_bare)

theorem mapM_readKey_bare (column : Nat) (rows : List NodeRow) :
    (rows.map NodeRow.bare).mapM (NodeRow.readKey column) = rows.mapM (NodeRow.readKey column) := by
  rw [List.mapM_map]
  rfl

theorem filter_bare {p : NodeRow → Bool} (hp : ∀ row, p row.bare = p row) (rows : List NodeRow) :
    (rows.map NodeRow.bare).filter p = (rows.filter p).map NodeRow.bare := by
  rw [List.filter_map]
  exact congrArg (List.map NodeRow.bare) (List.filter_congr fun row _ => hp row)

theorem find?_bare {p : NodeRow → Bool} (hp : ∀ row, p row.bare = p row) (rows : List NodeRow) :
    (rows.map NodeRow.bare).find? p = (rows.find? p).map NodeRow.bare := by
  rw [List.find?_map]
  have hcomp : p ∘ NodeRow.bare = p := funext hp
  rw [hcomp]

theorem any_bare {p : NodeRow → Bool} (hp : ∀ row, p row.bare = p row) (rows : List NodeRow) :
    (rows.map NodeRow.bare).any p = rows.any p := by
  rw [List.any_map]
  have hcomp : p ∘ NodeRow.bare = p := funext hp
  rw [hcomp]

theorem mergeSort_bare {le : NodeRow → NodeRow → Bool} (hle : ∀ a b, le a.bare b.bare = le a b)
    (rows : List NodeRow) :
    (rows.map NodeRow.bare).mergeSort le = (rows.mergeSort le).map NodeRow.bare :=
  (List.map_mergeSort fun a _ b _ => (hle a b).symm).symm

theorem sortNodes_bare (nodes : List Node) :
    sortNodes (nodes.map Node.bare) = (sortNodes nodes).map Node.bare := by
  rw [sortNodes, sortNodes, List.map_mergeSort]
  exact fun _ _ _ _ => rfl

theorem rowsOf_bare (s : Store) (hierarchy : HierarchyId) :
    s.bare.rowsOf hierarchy = (s.rowsOf hierarchy).map NodeRow.bare := filter_bare (fun _ => rfl) s.nodes

theorem subtreeRows_bare (s : Store) (hierarchy : HierarchyId) (key : Key) :
    s.bare.subtreeRows hierarchy key = (s.subtreeRows hierarchy key).map NodeRow.bare := by
  rw [subtreeRows, rowsOf_bare, filter_bare fun _ => rfl]
  rfl

theorem childRows_bare (s : Store) (hierarchy : HierarchyId) (key : Key) :
    s.bare.childRows hierarchy key = (s.childRows hierarchy key).map NodeRow.bare := by
  rw [childRows, rowsOf_bare, filter_bare fun _ => rfl]
  rfl

/-! ## Questions about nodes -/

theorem rootKeys_bare (s : Store) : s.bare.rootKeys = s.rootKeys := by
  have hrows := filter_bare (p := fun row => row.parentKey == "") (fun _ => rfl) s.nodes
  rw [rootKeys, rootKeys, ← mapM_readKey_bare 0 (s.nodes.filter _), ← hrows]
  rfl

theorem node?_bare (s : Store) (id : NodeId) :
    s.bare.node? id = Option.map Node.bare <$> s.node? id := by
  have hfind := find?_bare (p := fun row => row.id == id) (fun _ => rfl) s.nodes
  rw [node?, node?, bare, hfind]
  cases s.nodes.find? (·.id == id) with
  | none => rfl
  | some row =>
    show some <$> row.bare.read = Option.map Node.bare <$> some <$> row.read
    rw [read_bare]
    cases row.read with
    | error e => rfl
    | ok node => rfl

theorem requireNode_bare (s : Store) (id : NodeId) :
    s.bare.requireNode id = Node.bare <$> s.requireNode id := by
  rw [requireNode, requireNode, node?_bare]
  cases s.node? id with
  | error e => rfl
  | ok found =>
    cases found with
    | none => rfl
    | some node => rfl

theorem nodeByKey?_bare (s : Store) (hierarchy : HierarchyId) (key : Key) :
    s.bare.nodeByKey? hierarchy key = Option.map Node.bare <$> s.nodeByKey? hierarchy key := by
  rw [nodeByKey?, nodeByKey?, rowsOf_bare, find?_bare fun _ => rfl]
  cases (s.rowsOf hierarchy).find? (·.key == key.text) with
  | none => rfl
  | some row =>
    show some <$> row.bare.read = Option.map Node.bare <$> some <$> row.read
    rw [read_bare]
    cases row.read with
    | error e => rfl
    | ok node => rfl

theorem rootNode?_bare (s : Store) (hierarchy : HierarchyId) :
    s.bare.rootNode? hierarchy = Option.map Node.bare <$> s.rootNode? hierarchy := by
  rw [rootNode?, rootNode?, rowsOf_bare, filter_bare fun _ => rfl, mapM_read_bare]
  cases ((s.rowsOf hierarchy).filter (·.parentKey == "")).mapM NodeRow.read with
  | error e => rfl
  | ok roots =>
    cases roots with
    | nil => rfl
    | cons first others =>
      cases others with
      | nil => rfl
      | cons second rest =>
        show Except.error
          (Error.manyRoots hierarchy ((first :: second :: rest).map Node.bare).length) = _
        rw [List.length_map]
        rfl

theorem requireRoot_bare (s : Store) (hierarchy : HierarchyId) :
    s.bare.requireRoot hierarchy = Node.bare <$> s.requireRoot hierarchy := by
  rw [requireRoot, requireRoot, rootNode?_bare]
  cases s.rootNode? hierarchy with
  | error e => rfl
  | ok found =>
    cases found with
    | none => rfl
    | some node => rfl

theorem sorted_bare (rows : List NodeRow) :
    sortNodes <$> (rows.map NodeRow.bare).mapM NodeRow.read =
      List.map Node.bare <$> sortNodes <$> rows.mapM NodeRow.read := by
  rw [mapM_read_bare]
  cases rows.mapM NodeRow.read with
  | error e => rfl
  | ok nodes => exact congrArg Except.ok (sortNodes_bare nodes)

theorem children_bare (s : Store) (hierarchy : HierarchyId) (key : Key) :
    s.bare.children hierarchy key = List.map Node.bare <$> s.children hierarchy key := by
  rw [children, childRows_bare, sorted_bare]
  rfl

theorem hasChildren_bare (s : Store) (hierarchy : HierarchyId) (key : Key) :
    s.bare.hasChildren hierarchy key = s.hasChildren hierarchy key := by
  rw [hasChildren, childRows_bare, List.isEmpty_map]
  rfl

theorem nodesByIds_bare (s : Store) (ids : List NodeId) :
    s.bare.nodesByIds ids = List.map Node.bare <$> s.nodesByIds ids := by
  rw [nodesByIds, nodesByIds, ← mapM_read_bare, ← filter_bare fun _ => rfl]
  rfl

theorem nodesOf_bare (s : Store) (hierarchy : HierarchyId) :
    s.bare.nodesOf hierarchy = List.map Node.bare <$> s.nodesOf hierarchy := by
  rw [nodesOf, rowsOf_bare, mergeSort_bare fun _ _ => rfl, sorted_bare]
  rfl

theorem subtreeNodes_bare (s : Store) (hierarchy : HierarchyId) (key : Key) :
    s.bare.subtreeNodes hierarchy key = List.map Node.bare <$> s.subtreeNodes hierarchy key := by
  rw [subtreeNodes, subtreeRows_bare, mergeSort_bare fun _ _ => rfl, sorted_bare]
  rfl

theorem loadNodesIn_bare (s : Store) (hierarchy : HierarchyId) (ids : List NodeId) :
    s.bare.loadNodesIn hierarchy ids = List.map Node.bare <$> s.loadNodesIn hierarchy ids := by
  rw [loadNodesIn, loadNodesIn, nodesByIds_bare]
  cases s.nodesByIds ids with
  | error e => rfl
  | ok nodes =>
    have hfind : (nodes.map Node.bare).find? (·.hierarchy != hierarchy) =
        (nodes.find? (·.hierarchy != hierarchy)).map Node.bare := List.find?_map
    by_cases hlength : nodes.length = ids.length
    · have hlength' : (nodes.map Node.bare).length = ids.length := by rwa [List.length_map]
      show (if (nodes.map Node.bare).length ≠ ids.length then _ else _) =
        List.map Node.bare <$> (if nodes.length ≠ ids.length then _ else _)
      rw [if_neg (not_not.2 hlength), if_neg (not_not.2 hlength'), hfind]
      cases nodes.find? (·.hierarchy != hierarchy) with
      | none => rfl
      | some stray => rfl
    · have hlength' : ¬(nodes.map Node.bare).length = ids.length := by rwa [List.length_map]
      show (if (nodes.map Node.bare).length ≠ ids.length then _ else _) =
        List.map Node.bare <$> (if nodes.length ≠ ids.length then _ else _)
      rw [if_pos hlength, if_pos hlength']
      rfl

/-! ## Questions about attachments -/

theorem keyedAssets_bare (s : Store) (rows : List NodeRow) :
    s.bare.keyedAssets (rows.map NodeRow.bare) = s.keyedAssets rows := by
  rw [keyedAssets, keyedAssets, mergeSort_bare fun _ _ => rfl, List.mapM_map]
  rfl

theorem keys_bare (nodes : List Node) : (nodes.map Node.bare).map (·.key) = nodes.map (·.key) := by
  rw [List.map_map]
  rfl

theorem totalsBelow_bare (s : Store) (id : NodeId) (keep : Bool) :
    s.bare.totalsBelow id keep = s.totalsBelow id keep := by
  simp only [totalsBelow, requireNode_bare, subtreeNodes_bare, subtreeRows_bare, keyedAssets_bare,
    bind_map_left, keys_bare]
  rfl

theorem assetsUnder_bare (s : Store) (ids : List NodeId) :
    s.bare.assetsUnder ids = s.assetsUnder ids := by
  rw [assetsUnder, assetsUnder]
  cases ids.eraseDups with
  | nil => rfl
  | cons first rest =>
    simp only [requireNode_bare, loadNodesIn_bare, subtreeRows_bare, keyedAssets_bare,
      bind_map_left, keys_bare]
    rfl

theorem computedCounts_bare (s : Store) (hierarchy : HierarchyId) :
    s.bare.computedCounts hierarchy = s.computedCounts hierarchy := by
  simp only [computedCounts, nodesOf_bare, rowsOf_bare, keyedAssets_bare, bind_map_left, keys_bare]

/-! ## Stores that differ in amounts and marks -/

section Agree
variable {t : Store} (hst : s.bare = t.bare)
include hst

theorem requireNode_agree (id : NodeId) :
    Node.bare <$> s.requireNode id = Node.bare <$> t.requireNode id := by
  rw [← requireNode_bare, ← requireNode_bare, hst]

theorem requireRoot_agree (hierarchy : HierarchyId) :
    Node.bare <$> s.requireRoot hierarchy = Node.bare <$> t.requireRoot hierarchy := by
  rw [← requireRoot_bare, ← requireRoot_bare, hst]

theorem loadNodesIn_agree (hierarchy : HierarchyId) (ids : List NodeId) :
    List.map Node.bare <$> s.loadNodesIn hierarchy ids =
      List.map Node.bare <$> t.loadNodesIn hierarchy ids := by
  rw [← loadNodesIn_bare, ← loadNodesIn_bare, hst]

end Agree

theorem ids_eq_of_bare {nodes nodes' : List Node} (h : nodes.map Node.bare = nodes'.map Node.bare) :
    nodes.map (·.id) = nodes'.map (·.id) := by
  have hids := congrArg (List.map Node.id) h
  rwa [List.map_map, List.map_map] at hids

/-! ## Adjustments of amounts -/

/-- Nothing but amounts has changed. -/
def Recounted (s t : Store) : Prop := t.bare = s.bare ∧ t.marked = s.marked

theorem Recounted.refl (s : Store) : Recounted s s := ⟨rfl, rfl⟩

theorem Recounted.trans {t u : Store} (h : Recounted s t) (h' : Recounted t u) : Recounted s u :=
  ⟨h'.1.trans h.1, h'.2.trans h.2⟩

theorem recounted_addAmount (s : Store) (hierarchy : HierarchyId) (keys : List Key) (delta : Int) :
    Recounted s (s.addAmount hierarchy keys delta).2 := by
  rw [addAmount]
  by_cases hdelta : delta = 0
  · rw [if_pos hdelta]
    exact Recounted.refl s
  · rw [if_neg hdelta]
    refine ⟨bare_eq_iff.2 ⟨rfl, ?_, rfl, rfl⟩, rfl⟩
    rw [List.map_map]
    refine List.map_congr_left fun row _ => ?_
    rw [Function.comp_apply]
    by_cases hnamed : named hierarchy keys row = true
    · rw [if_pos hnamed]
      rfl
    · rw [if_neg hnamed]

theorem recounted_climb (edit : Edit) (hierarchy : HierarchyId) (keys : List Key)
    (assets : List AssetId) (s : Store) :
    Recounted s (Counts.climb edit hierarchy keys assets s).2 := by
  induction keys generalizing assets s with
  | nil => exact Recounted.refl s
  | cons key above ih =>
    rw [Counts.climb]
    dsimp only
    generalize assets.filter (!s.seesAsset hierarchy key ·) = unseen
    by_cases hnone : unseen.isEmpty = true
    · rw [if_pos hnone]
      exact Recounted.refl s
    · rw [if_neg hnone]
      have hfirst := recounted_addAmount s hierarchy [key] (edit.sign * unseen.length)
      exact hfirst.trans (ih unseen _)

end Store
end Inventory
