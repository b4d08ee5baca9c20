import Inventory.Proofs.Store.Mistakes

/-! # Failures that are no matter of leases

Leases are asked for between the reads of an operation and its transaction. Neither questions nor
transactions know of them, whatever the store holds, so that none of them fails for want of one. -/
namespace Inventory
set_option autoImplicit false
variable {α β : Type}

/-- A lease was not to be had. -/
def Error.isRefusal : Error → Bool
  | lockTimeout _ | waitsForever _ => true
  | _ => false

/-- If it fails, then not for want of a lease. -/
def Unrefused (x : Except Error α) : Prop := ∀ e, x = .error e → e.isRefusal = false

/-! ## Steps put together -/

theorem unrefused_ok (a : α) : Unrefused (.ok a) := by
  intro e h
  cases h

theorem unrefused_error {e : Error} (h : e.isRefusal = false) :
    Unrefused (.error e : Except Error α) := by
  intro e' he
  cases he
  exact h

theorem Error.isRefusal_of_isMistake {e : Error} (h : e.isMistake) : e.isRefusal = false := by
  cases e <;> first | rfl | simp [isMistake, kind] at h

theorem Fair.unrefused {full : Prop} {x : Except Error α} (h : Fair full x) : Unrefused x :=
  fun e he => Error.isRefusal_of_isMistake (h e he).1

theorem Unrefused.bind {x : Except Error α} {next : α → Except Error β} (h : Unrefused x)
    (hnext : ∀ a, Unrefused (next a)) : Unrefused (x >>= next) := by
  cases x with
  | ok a => exact hnext a
  | error e => exact unrefused_error (h e rfl)

theorem Unrefused.map {x : Except Error α} (f : α → β) (h : Unrefused x) : Unrefused (f <$> x) := by
  cases x with
  | ok a => exact unrefused_ok (f a)
  | error e => exact unrefused_error (h e rfl)

theorem unrefused_mapM {read : α → Except Error β} (h : ∀ item, Unrefused (read item))
    (items : List α) : Unrefused (items.mapM read) := by
  induction items with
  | nil => exact unrefused_ok []
  | cons item rest ih =>
    rw [List.mapM_cons]
    exact (h item).bind fun _ => ih.bind fun _ => unrefused_ok _

namespace Transaction

/-- If it fails, on whatever store, then not for want of a lease. -/
def Unrefused (act : Transaction α) : Prop := ∀ s, Inventory.Unrefused (act s)

theorem unrefused_pure (a : α) : Unrefused (pure a : Transaction α) := fun _ => unrefused_ok _

theorem unrefused_throw {e : Error} (h : e.isRefusal = false) :
    Unrefused (throw e : Transaction α) := fun _ => unrefused_error h

theorem unrefused_lift {x : Except Error α} (h : Inventory.Unrefused x) :
    Unrefused (liftM x : Transaction α) := by
  intro s
  cases x with
  | ok a => exact unrefused_ok (a, s)
  | error e => exact unrefused_error (h e rfl)

theorem unrefused_set (s : Store) : Unrefused (set s : Transaction PUnit) := fun _ => unrefused_ok _

theorem unrefused_adjust (change : Store → Nat × Store) : Unrefused (Store.adjust change) :=
  fun _ => unrefused_ok _

theorem Unrefused.bind {act : Transaction α} {next : α → Transaction β} (h : Unrefused act)
    (hnext : ∀ a, Unrefused (next a)) : Unrefused (act >>= next) := by
  intro s
  have hrun : Inventory.Unrefused (act s >>= fun r => next r.1 r.2) :=
    (h s).bind fun r => hnext r.1 r.2
  exact hrun

theorem unrefused_get {next : Store → Transaction β} (h : ∀ s, Unrefused (next s)) :
    Unrefused (get >>= next) := fun s => h s s

theorem Unrefused.map {act : Transaction α} (h : Unrefused act) (f : α → β) :
    Unrefused (f <$> act) := by
  rw [map_eq_pure_bind]
  exact h.bind fun a => unrefused_pure (f a)

theorem unrefused_ite {c : Prop} [Decidable c] {act act' : Transaction α} (h : Unrefused act)
    (h' : Unrefused act') : Unrefused (if c then act else act') := by
  by_cases hc : c
  · rwa [if_pos hc]
  · rwa [if_neg hc]

theorem unrefused_forM {act : α → Transaction PUnit} (h : ∀ a, Unrefused (act a))
    (items : List α) : Unrefused (items.forM act) := by
  induction items with
  | nil => exact unrefused_pure PUnit.unit
  | cons item rest ih => exact (h item).bind fun _ => ih

/-- An adjustment that is made or left out, and what comes after it. -/
theorem unrefused_adjusting {propagate : Bool} {change : Store → Nat × Store}
    {next : Nat → Transaction β} (h : ∀ n, Unrefused (next n)) :
    Unrefused (if propagate then Store.adjust change >>= next else pure 0 >>= next) :=
  unrefused_ite ((unrefused_adjust change).bind h) ((unrefused_pure 0).bind h)

end Transaction

/-! ## Questions -/

theorem Name.validate_unrefused (text : String) : Unrefused (Name.validate text) :=
  Fair.unrefused (Name.validate_fair text : Fair True _)

theorem NodeRow.readKey_unrefused (column : Nat) (row : NodeRow) :
    Unrefused (row.readKey column) := by
  rw [readKey]
  cases Key.ofText? row.key with
  | none => exact unrefused_error rfl
  | some key => exact unrefused_ok key

theorem NodeRow.read_unrefused (row : NodeRow) : Unrefused row.read :=
  (row.readKey_unrefused 2).bind fun _ => unrefused_ok _

namespace Store
variable (s : Store) (hierarchy : HierarchyId)

theorem mapM_read_unrefused (rows : List NodeRow) : Unrefused (rows.mapM NodeRow.read) :=
  unrefused_mapM NodeRow.read_unrefused rows

theorem rootKeys_unrefused : Unrefused s.rootKeys := unrefused_mapM (NodeRow.readKey_unrefused 0) _

theorem node?_unrefused (id : NodeId) : Unrefused (s.node? id) := by
  rw [node?]
  cases s.nodes.find? (·.id == id) with
  | none => exact unrefused_ok none
  | some row => exact row.read_unrefused.map some

theorem requireNode_unrefused (id : NodeId) : Unrefused (s.requireNode id) := by
  refine (s.node?_unrefused id).bind fun found => ?_
  cases found with
  | none => exact unrefused_error rfl
  | some node => exact unrefused_ok node

theorem nodeByKey?_unrefused (key : Key) : Unrefused (s.nodeByKey? hierarchy key) := by
  rw [nodeByKey?]
  cases (s.rowsOf hierarchy).find? (·.key == key.text) with
  | none => exact unrefused_ok none
  | some row => exact row.read_unrefused.map some

theorem rootNode?_unrefused : Unrefused (s.rootNode? hierarchy) := by
  refine (mapM_read_unrefused _).bind fun roots => ?_
  cases roots with
  | nil => exact unrefused_ok none
  | cons first rest =>
    cases rest with
    | nil => exact unrefused_ok (some first)
    | cons second rest => exact unrefused_error rfl

theorem requireRoot_unrefused : Unrefused (s.requireRoot hierarchy) := by
  refine (s.rootNode?_unrefused hierarchy).bind fun found => ?_
  cases found with
  | none => exact unrefused_error rfl
  | some root => exact unrefused_ok root

theorem children_unrefused (parent : Key) : Unrefused (s.children hierarchy parent) :=
  (mapM_read_unrefused _).map sortNodes

theorem nodesByIds_unrefused (ids : List NodeId) : Unrefused (s.nodesByIds ids) :=
  mapM_read_unrefused _

theorem nodesOf_unrefused : Unrefused (s.nodesOf hierarchy) := (mapM_read_unrefused _).map sortNodes

theorem subtreeNodes_unrefused (key : Key) : Unrefused (s.subtreeNodes hierarchy key) :=
  (mapM_read_unrefused _).map sortNodes

theorem loadNodesIn_unrefused (ids : List NodeId) : Unrefused (s.loadNodesIn hierarchy ids) := by
  refine (s.nodesByIds_unrefused ids).bind fun nodes => ?_
  by_cases hall : nodes.length ≠ ids.length
  · rw [if_pos hall]
    exact unrefused_error rfl
  · rw [if_neg hall]
    cases nodes.find? (·.hierarchy != hierarchy) with
    | none => exact unrefused_ok nodes
    | some stray => exact unrefused_error rfl

theorem keyedAssets_unrefused (rows : List NodeRow) : Unrefused (s.keyedAssets rows) := by
  refine (unrefused_mapM (fun row => ?_) _).map List.flatten
  cases s.directAssets row.id with
  | nil => exact unrefused_ok []
  | cons first rest => exact (row.readKey_unrefused 0).map fun key => (first :: rest).map (key, ·)

theorem totalsBelow_unrefused (id : NodeId) (keepAssets : Bool) :
    Unrefused (s.totalsBelow id keepAssets) :=
  (s.requireNode_unrefused id).bind fun _ => (s.subtreeNodes_unrefused _ _).bind fun _ =>
    (s.keyedAssets_unrefused _).bind fun _ => unrefused_ok _

theorem subtreeCount_unrefused (id : NodeId) : Unrefused (s.subtreeCount id) :=
  (s.totalsBelow_unrefused id false).bind fun _ => unrefused_ok _

theorem assetIdsOf_unrefused (id : NodeId) : Unrefused (s.assetIdsOf id) :=
  (s.totalsBelow_unrefused id true).bind fun _ => unrefused_ok _

theorem assetsUnder_unrefused (ids : List NodeId) : Unrefused (s.assetsUnder ids) := by
  rw [assetsUnder]
  cases ids.eraseDups with
  | nil => exact unrefused_ok []
  | cons first rest =>
    refine (s.requireNode_unrefused first).bind fun node => ?_
    refine (s.loadNodesIn_unrefused _ _).bind fun nodes => ?_
    exact (unrefused_mapM (fun _ => s.keyedAssets_unrefused _) _).bind fun _ => unrefused_ok _

theorem computedCounts_unrefused : Unrefused (s.computedCounts hierarchy) :=
  (s.nodesOf_unrefused hierarchy).bind fun _ => (s.keyedAssets_unrefused _).bind fun _ =>
    unrefused_ok _

theorem requireHierarchy_unrefused : Unrefused (s.requireHierarchy hierarchy) :=
  Fair.unrefused (requireHierarchy_fair s hierarchy : Fair True _)

theorem requireAsset_unrefused (id : AssetId) : Unrefused (s.requireAsset id) :=
  Fair.unrefused (requireAsset_fair s id : Fair True _)

theorem ensureAssetsIn_unrefused (ids : List AssetId) :
    Unrefused (s.ensureAssetsIn hierarchy ids) :=
  Fair.unrefused (ensureAssetsIn_fair s hierarchy ids : Fair True _)

end Store

/-! ## Transactions -/

namespace Store
open Transaction
variable (hierarchy : HierarchyId)

theorem ensureWord_unrefused (n : Nat) : (ensureWord n).Unrefused :=
  unrefused_ite (unrefused_pure ()) (unrefused_throw rfl)

theorem insertNode_unrefused (key : Key) (value fullValue : String) :
    (insertNode hierarchy key value fullValue).Unrefused := by
  refine unrefused_get fun s => unrefused_ite (unrefused_throw rfl) ?_
  refine unrefused_ite (unrefused_throw rfl) ?_
  exact (unrefused_set _).bind fun _ => unrefused_pure _

theorem insertChild_unrefused (parent : Node) (siblings : List Node) (value : String) :
    (insertChild parent siblings value).Unrefused :=
  (ensureWord_unrefused _).bind fun _ => (insertNode_unrefused _ _ _ _).bind fun _ =>
    unrefused_pure _

theorem getOrInsertChild_unrefused (parent : Node) (value : String) :
    (getOrInsertChild parent value).Unrefused := by
  refine unrefused_get fun s => (unrefused_lift (s.children_unrefused _ _)).bind fun siblings => ?_
  cases siblings.find? (·.value == value) with
  | some found => exact unrefused_pure _
  | none =>
    refine (unrefused_lift (Name.validate_unrefused value)).bind fun name => ?_
    exact (insertChild_unrefused parent siblings name).bind fun _ => unrefused_pure _

theorem descend_unrefused (node : Node) (values : List String) : (descend node values).Unrefused := by
  induction values generalizing node with
  | nil => exact unrefused_pure node
  | cons value rest ih => exact (getOrInsertChild_unrefused node value).bind fun made => ih made.1

theorem createHierarchy_unrefused (name : String) : (createHierarchy name).Unrefused := by
  have hinsert : (insertHierarchy name).Unrefused :=
    unrefused_get fun _ => (unrefused_set _).bind fun _ => unrefused_pure _
  refine hinsert.bind fun host => unrefused_get fun s => ?_
  refine (unrefused_lift s.rootKeys_unrefused).bind fun keys => ?_
  exact (ensureWord_unrefused _).bind fun _ => (insertNode_unrefused _ _ _ _).bind fun _ =>
    unrefused_pure _

theorem createChild_unrefused (parent : NodeId) (value : Option String) (preset : String) :
    (createChild hierarchy parent value preset).Unrefused := by
  refine unrefused_get fun s => (unrefused_lift (s.requireNode_unrefused parent)).bind fun node => ?_
  refine unrefused_get fun t => (unrefused_lift (t.children_unrefused _ _)).bind fun siblings => ?_
  cases value with
  | some name =>
    refine (unrefused_lift (Name.validate_unrefused name)).bind fun stored => ?_
    exact unrefused_ite (unrefused_throw rfl) (insertChild_unrefused node siblings stored)
  | none =>
    exact (ensureWord_unrefused _).bind fun _ => insertChild_unrefused node siblings _

theorem createPath_unrefused (path : String) : (createPath hierarchy path).Unrefused :=
  unrefused_get fun s => (unrefused_lift (s.requireRoot_unrefused hierarchy)).bind fun _ =>
    descend_unrefused _ _

theorem removeNode_unrefused (id : NodeId) : (removeNode hierarchy id).Unrefused := by
  refine unrefused_get fun s => (unrefused_lift (s.requireNode_unrefused id)).bind fun node => ?_
  refine unrefused_ite (unrefused_throw rfl) ?_
  exact unrefused_ite (unrefused_throw rfl) (unrefused_set _)

theorem attach_unrefused (asset : AssetId) (node : NodeId) : (attach asset node).Unrefused := by
  refine unrefused_get fun s => unrefused_ite (unrefused_pure ()) ?_
  exact unrefused_ite (unrefused_throw rfl) (unrefused_set _)

theorem markUnless_unrefused (propagated : Bool) : (markUnless propagated hierarchy).Unrefused := by
  refine unrefused_ite (unrefused_pure ()) (unrefused_get fun s => ?_)
  refine unrefused_ite (unrefused_pure ()) ?_
  exact unrefused_ite (unrefused_throw rfl) (unrefused_set _)

theorem addToNode_unrefused (node : Node) (assets : List AssetId) (propagate : Bool) :
    (addToNode node assets propagate).Unrefused := by
  refine unrefused_get fun s => unrefused_adjusting fun n => ?_
  exact (unrefused_forM (fun asset => attach_unrefused asset node.id) _).bind fun _ =>
    unrefused_pure _

theorem addToNodes_unrefused (asset : AssetId) (nodes : List Node) (propagate : Bool) :
    (addToNodes hierarchy asset nodes propagate).Unrefused := by
  refine unrefused_get fun s => unrefused_adjusting fun n => ?_
  exact (unrefused_forM (fun (node : Node) => attach_unrefused asset node.id) _).bind fun _ =>
    unrefused_pure _

theorem removeFromNode_unrefused (node : Node) (assets : List AssetId) (propagate : Bool) :
    (removeFromNode node assets propagate).Unrefused :=
  unrefused_get fun _ => (unrefused_set _).bind fun _ => unrefused_adjusting fun _ =>
    unrefused_pure _

theorem removeFromNodes_unrefused (asset : AssetId) (nodes : List Node) (propagate : Bool) :
    (removeFromNodes hierarchy asset nodes propagate).Unrefused :=
  unrefused_get fun _ => (unrefused_set _).bind fun _ => unrefused_adjusting fun _ =>
    unrefused_pure _

theorem rehome_unrefused (assets : List AssetId) (propagate : Bool) :
    (rehome hierarchy assets propagate).Unrefused := by
  refine unrefused_get fun s => ?_
  cases (s.orphans hierarchy).filter (assets.contains ·) with
  | nil => exact unrefused_pure []
  | cons orphan rest =>
    refine (unrefused_lift (s.rootNode?_unrefused hierarchy)).bind fun found => ?_
    cases found with
    | none => exact unrefused_throw rfl
    | some root => exact (addToNode_unrefused root _ propagate).bind fun _ => unrefused_pure _

theorem createAsset_unrefused (name : String) (nodes : List NodeId) (propagate : Bool) :
    (createAsset hierarchy name nodes propagate).Unrefused := by
  have hinsert : (insertAsset hierarchy name).Unrefused := unrefused_get fun _ =>
    unrefused_ite (unrefused_throw rfl) ((unrefused_set _).bind fun _ => unrefused_pure _)
  refine unrefused_get fun s => ?_
  refine ((unrefused_lift (s.requireHierarchy_unrefused hierarchy)).map _).bind fun _ => ?_
  have hrest : ∀ targets : List Node, Transaction.Unrefused (do
      let id ← insertAsset hierarchy name
      let added ← addToNodes hierarchy id targets propagate
      markUnless propagate hierarchy
      return ((⟨id, hierarchy, name⟩ : Asset), added.changed.map (·.id))) := fun targets =>
    hinsert.bind fun id => (addToNodes_unrefused hierarchy id targets propagate).bind fun _ =>
      (markUnless_unrefused hierarchy propagate).bind fun _ => unrefused_pure _
  refine unrefused_ite ?_ ?_
  · exact ((unrefused_lift (s.requireRoot_unrefused hierarchy)).map _).bind hrest
  · exact (unrefused_lift (s.loadNodesIn_unrefused hierarchy nodes)).bind hrest

theorem removeAsset_unrefused (id : AssetId) (propagates : Nat → Bool) :
    (removeAsset hierarchy id propagates).Unrefused := by
  refine unrefused_get fun s => (unrefused_lift (s.nodesByIds_unrefused _)).bind fun nodes => ?_
  refine (removeFromNodes_unrefused hierarchy id nodes _).bind fun removed => ?_
  have hdelete : Transaction.Unrefused (modify (·.deleteAsset id)) := fun _ => unrefused_ok _
  exact hdelete.bind fun _ => (markUnless_unrefused hierarchy _).bind fun _ => unrefused_pure _

theorem attachAll_unrefused (node : NodeId) (assets : List AssetId) (propagate : Bool) :
    (attachAll node assets propagate).Unrefused := by
  refine unrefused_get fun s => (unrefused_lift (s.requireNode_unrefused node)).bind fun node => ?_
  refine (unrefused_lift (s.ensureAssetsIn_unrefused _ assets)).bind fun _ => ?_
  exact (addToNode_unrefused node assets propagate).bind fun _ =>
    (markUnless_unrefused _ propagate).bind fun _ => unrefused_pure _

theorem detachAll_unrefused (node : NodeId) (assets : List AssetId) (propagate : Bool) :
    (detachAll hierarchy node assets propagate).Unrefused := by
  refine unrefused_get fun s => (unrefused_lift (s.requireNode_unrefused node)).bind fun node => ?_
  refine (removeFromNode_unrefused node assets propagate).bind fun removed => ?_
  exact (rehome_unrefused hierarchy _ propagate).bind fun _ =>
    (markUnless_unrefused hierarchy propagate).bind fun _ => unrefused_pure _

theorem attachToAll_unrefused (asset : AssetId) (nodes : List NodeId) (propagate : Bool) :
    (attachToAll asset nodes propagate).Unrefused := by
  refine unrefused_get fun s => (unrefused_lift (s.requireAsset_unrefused asset)).bind fun found => ?_
  refine (unrefused_lift (s.loadNodesIn_unrefused _ nodes)).bind fun targets => ?_
  exact (addToNodes_unrefused _ asset targets propagate).bind fun _ =>
    (markUnless_unrefused _ propagate).bind fun _ => unrefused_pure _

theorem detachFromAll_unrefused (asset : AssetId) (nodes : List NodeId) (propagate : Bool) :
    (detachFromAll hierarchy asset nodes propagate).Unrefused := by
  refine unrefused_get fun s =>
    (unrefused_lift (s.loadNodesIn_unrefused hierarchy nodes)).bind fun targets => ?_
  refine (removeFromNodes_unrefused hierarchy asset targets propagate).bind fun removed => ?_
  have hrest : ∀ rehomed : List Change, Transaction.Unrefused (do
      markUnless propagate hierarchy
      return {
        changes := Change.perNode asset (removed.changed.map (·.id))
        rehomed
        nodesUpdated := removed.nodesUpdated
        deferred := !propagate : Outcome }) := fun _ =>
    (markUnless_unrefused hierarchy propagate).bind fun _ => unrefused_pure _
  refine unrefused_ite ((unrefused_pure []).bind hrest) ?_
  exact (rehome_unrefused hierarchy _ propagate).bind hrest

theorem adjustForLosses_unrefused (keys : List (NodeId × Key)) (changes : List Change) :
    (adjustForLosses hierarchy keys changes).Unrefused := by
  induction changes with
  | nil => exact unrefused_pure 0
  | cons change rest ih =>
    exact (unrefused_adjust _).bind fun _ => ih.bind fun _ => unrefused_pure _

theorem move_unrefused (target : NodeId) (assets : List AssetId) (rows : List Attachment)
    (propagate : Bool) : (move hierarchy target assets rows propagate).Unrefused := by
  refine unrefused_get fun s => (unrefused_lift (s.requireNode_unrefused target)).bind fun node => ?_
  refine unrefused_ite (unrefused_throw rfl) ((unrefused_set _).bind fun _ => ?_)
  have hrest : ∀ updated : Nat, Transaction.Unrefused (do
      let added ← addToNode node assets propagate
      markUnless propagate hierarchy
      return { added with nodesUpdated := updated + added.nodesUpdated }) := fun _ =>
    (addToNode_unrefused node assets propagate).bind fun _ =>
      (markUnless_unrefused hierarchy propagate).bind fun _ => unrefused_pure _
  refine unrefused_ite ?_ ((unrefused_pure 0).bind hrest)
  exact (unrefused_lift (nodesByIds_unrefused _ _)).bind fun _ =>
    (adjustForLosses_unrefused hierarchy _ _).bind hrest

theorem reconcile_unrefused (mode : Mode) : (reconcile hierarchy mode).Unrefused := by
  have hwrite : ∀ (t : Store) (report : Report), Transaction.Unrefused (if mode = .repair then do
      set t
      return report
      else return report) := fun t report =>
    unrefused_ite ((unrefused_set t).bind fun _ => unrefused_pure report) (unrefused_pure report)
  refine unrefused_get fun s => (unrefused_lift (s.nodesOf_unrefused hierarchy)).bind fun nodes => ?_
  generalize nodes.filter (·.key.isRoot) = roots
  dsimp only
  split
  · refine ((addToNode_unrefused _ _ false).map _).bind fun _ => ?_
    exact unrefused_get fun t => (unrefused_lift (t.keyedAssets_unrefused _)).bind fun _ => hwrite _ _
  · exact unrefused_get fun t => (unrefused_lift (t.keyedAssets_unrefused _)).bind fun _ => hwrite _ _

end Store
end Inventory
