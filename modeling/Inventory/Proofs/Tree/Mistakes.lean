import Inventory.Proofs.Store.Fair
import Inventory.Proofs.Tree.Refusals

/-! # Requests fail only on mistakes

While nobody else holds a lease or acts on the tree, no request to a tidy tree is kept waiting, and
what an operation has read is still so when it writes. Nothing is left to fail but what the
questions and transactions refuse. -/
namespace Inventory
set_option autoImplicit false
variable {σ α β γ : Type} {env : Surroundings σ} {full : Prop} {w : World σ}

/-! ## Steps put together -/

namespace Action

/-- A question leaves everything as it is. -/
theorem fair_question_bind {act : Action σ α} {x : Except Error α} {next : α → Action σ β}
    (hact : act env w = (x, w)) (h : Fair full x)
    (hnext : ∀ a, x = .ok a → Fair full (next a env w).1) :
    Fair full ((act >>= next) env w).1 := by
  cases x with
  | ok a =>
    rw [bind_of_ok hact]
    exact hnext a rfl
  | error e =>
    rw [bind_of_error hact]
    exact fair_error (h e rfl)

theorem fair_lift_bind {x : Except Error α} {next : α → Action σ β} (h : Fair full x)
    (hnext : ∀ a, x = .ok a → Fair full (next a env w).1) :
    Fair full ((lift x >>= next) env w).1 :=
  fair_question_bind rfl h hnext

theorem fair_read_bind {question : Store → Except Error α} {next : α → Action σ β}
    (h : Fair full (question w.tree.store))
    (hnext : ∀ a, question w.tree.store = .ok a → Fair full (next a env w).1) :
    Fair full ((read question >>= next) env w).1 :=
  fair_question_bind rfl h hnext

theorem fair_map_read_bind {question : Store → Except Error α} (f : α → γ) {next : γ → Action σ β}
    (h : Fair full (question w.tree.store))
    (hnext : ∀ a, question w.tree.store = .ok a → Fair full (next (f a) env w).1) :
    Fair full (((f <$> read question) >>= next) env w).1 := by
  refine fair_question_bind (map_run f (read question) env w) (h.map f) fun c hc => ?_
  obtain ⟨a, ha, rfl⟩ := map_eq_ok.1 hc
  exact hnext a ha

theorem fair_ite {p : Prop} [Decidable p] {first second : Action σ α}
    (h : Fair full (first env w).1) (h' : Fair full (second env w).1) :
    Fair full ((if p then first else second) env w).1 := by
  by_cases hp : p
  · rwa [if_pos hp]
  · rwa [if_neg hp]

theorem fair_announce_bind (henv : env.Passive) {phase : Phase} {host : HierarchyId}
    {changes : List Change} {next : Unit → Action σ β}
    (hnext : ∀ u, u.tree = w.tree → Fair full (next () env u).1) :
    Fair full ((announce phase host changes >>= next) env w).1 := by
  refine hnext _ ?_
  by_cases hnone : changes.isEmpty = true
  · rw [if_pos hnone]
  · rw [if_neg hnone]
    exact henv _ w

theorem fair_write {change : Transaction α} (h : Fair full (change w.tree.store)) :
    Fair full (write change env w).1 := by
  cases hrun : change w.tree.store with
  | ok r =>
    rw [write_of_ok hrun]
    exact fair_ok r.1
  | error e =>
    rw [write_of_error hrun]
    exact fair_error (h e hrun)

theorem fair_write_bind {change : Transaction α} {next : α → Action σ β}
    (h : Fair full (change w.tree.store)) (hnext : ∀ a, Succeeds env (next a)) :
    Fair full ((write change >>= next) env w).1 := by
  cases hrun : change w.tree.store with
  | ok r =>
    rw [bind_of_ok (write_of_ok hrun)]
    obtain ⟨b, hb⟩ := hnext r.1 { w with tree := { w.tree with store := r.2 } }
    exact fair_of_eq hb
  | error e =>
    rw [bind_of_error (write_of_error hrun)]
    exact fair_error (h e hrun)

theorem fair_map {act : Action σ α} (f : α → β) (h : Fair full (act env w).1) :
    Fair full ((f <$> act) env w).1 := by
  rw [map_run]
  exact h.map f

/-- A lease that is free is granted at once. -/
theorem fair_holding (henv : env.Passive) (hfree : w.tree.leases = {}) {host : HierarchyId}
    {act : Action σ α} (h : ∀ u, u.tree.store = w.tree.store → Fair full (act env u).1) :
    Fair full (holding host act env w).1 := by
  have hquiet := henv (.waiting host) w
  rw [holding_granted rfl (by rw [hquiet, hfree]; rfl)]
  refine h _ ?_
  show (env (.waiting host) w).tree.store = w.tree.store
  rw [hquiet]

theorem fair_held (henv : env.Passive) (hfree : w.tree.leases = {}) {host : HierarchyId}
    {change : Transaction α} (h : Fair full (change w.tree.store)) :
    Fair full (holding host (write change) env w).1 := by
  refine fair_holding henv hfree fun u hu => fair_write ?_
  rw [hu]
  exact h

end Action

/-! ## Operations -/

namespace Tree
open Inventory.Action Store

variable (henv : env.Passive) (hs : w.tree.store.Tidy) (hfree : w.tree.leases = {})
  (hfull : w.tree.store.Exhausted w.tree.options.newNodeName → full)
include hs

section
include hfull

theorem createHierarchy_fair (name : String) :
    Fair full ((createHierarchy name : Action σ _) env w).1 := by
  refine fair_lift_bind (Name.validate_fair name) fun name _ => ?_
  exact fair_write (Store.createHierarchy_fair hs hfull name)

include henv hfree

theorem createChild_fair (parent : NodeId) (value : Option String) :
    Fair full ((createChild parent value : Action σ _) env w).1 := by
  refine fair_map_read_bind _ (hs.requireNode_fair _) fun node hnode => ?_
  exact fair_held henv hfree (Store.createChild_fair hs hfull hnode value)

theorem getOrCreateChild_fair (parent : NodeId) (value : String) :
    Fair full ((getOrCreateChild parent value : Action σ _) env w).1 := by
  refine fair_lift_bind (Name.validate_fair value) fun value _ => ?_
  refine fair_map_read_bind _ (hs.requireNode_fair _) fun node _ => fair_held henv hfree ?_
  rw [Transaction.get_bind]
  refine Transaction.fair_lift_bind (hs.requireNode_fair parent) fun found hfound => ?_
  refine getOrInsertChild_fair hs (hs.formed.requireNode hfound).1 fun child hchild hlarge => ?_
  exact hfull (exhausted_of_key (mem_rowsOf.1 (List.mem_of_mem_filter hchild)).1 hlarge _)

theorem createPath_fair (host : HierarchyId) (path : String) :
    Fair full ((createPath host path : Action σ _) env w).1 :=
  fair_held henv hfree (Store.createPath_fair hs hfull host path)

end

theorem createAsset_fair (host : HierarchyId) (name : String) (nodes : List NodeId) :
    Fair full ((createAsset host name nodes : Action σ _) env w).1 := by
  refine fair_lift_bind (Name.validate_fair name) fun name _ => ?_
  refine fair_write_bind (hs.createAsset_fair host name _) fun made => ?_
  exact succeeds_defer_bind fun _ => succeeds_announce_bind fun _ => succeeds_pure _

theorem attach_fair (node : NodeId) (assets : List AssetId) :
    Fair full ((attach node assets : Action σ _) env w).1 := by
  rw [attach]
  refine fair_ite (fair_ok _) ?_
  refine fair_write_bind (hs.attachAll_fair node _) fun made => ?_
  exact succeeds_defer_bind fun _ => succeeds_announce_bind fun _ => succeeds_pure _

theorem attachToNodes_fair (asset : AssetId) (nodes : List NodeId) :
    Fair full ((attachToNodes asset nodes : Action σ _) env w).1 := by
  rw [attachToNodes]
  refine fair_ite (fair_ok _) ?_
  refine fair_write_bind (hs.attachToAll_fair asset _) fun made => ?_
  exact succeeds_defer_bind fun _ => succeeds_announce_bind fun _ => succeeds_pure _

include henv

theorem deleteNode_fair (hfree : w.tree.leases = {}) (id : NodeId) :
    Fair full ((deleteNode id : Action σ _) env w).1 := by
  refine fair_map_read_bind _ (hs.requireNode_fair _) fun node _ => ?_
  exact fair_held henv hfree (hs.removeNode_fair _ id)

theorem deleteAsset_fair (id : AssetId) : Fair full ((deleteAsset id : Action σ _) env w).1 := by
  refine fair_read_bind ((requireAsset_fair _ id).bind fun _ _ => fair_ok _) fun found hfound => ?_
  obtain ⟨asset, hasset, hrest⟩ := bind_eq_ok.1 hfound
  cases hrest
  obtain ⟨hknown, -⟩ := requireAsset_eq_ok hasset
  refine fair_announce_bind henv fun u hu => ?_
  refine fair_write_bind ?_ fun removed => succeeds_defer_bind fun _ => succeeds_announce _ _ _
  rw [hu]
  exact hs.removeAsset_fair (hs.formed.owned asset hknown) id _

theorem detach_fair (node : NodeId) (assets : List AssetId) :
    Fair full ((detach node assets : Action σ _) env w).1 := by
  rw [detach]
  refine fair_ite (fair_ok _) ?_
  refine fair_read_bind ((hs.requireNode_fair node).bind fun _ _ => fair_ok _)
    fun found hfound => ?_
  obtain ⟨place, hplace, hrest⟩ := bind_eq_ok.1 hfound
  cases hrest
  refine fair_announce_bind henv fun u hu => ?_
  refine fair_write_bind ?_ fun outcome =>
    succeeds_defer_bind fun _ => succeeds_announce_bind fun _ =>
      succeeds_announce_bind fun _ => succeeds_pure _
  rw [hu]
  exact hs.detachAll_fair hplace _

theorem detachFromNodes_fair (asset : AssetId) (nodes : List NodeId) :
    Fair full ((detachFromNodes asset nodes : Action σ _) env w).1 := by
  rw [detachFromNodes]
  refine fair_ite (fair_ok _) ?_
  refine fair_read_bind ((requireAsset_fair _ asset).bind fun _ _ => fair_ok _)
    fun found hfound => ?_
  obtain ⟨owner, howner, hrest⟩ := bind_eq_ok.1 hfound
  cases hrest
  obtain ⟨hknown, -⟩ := requireAsset_eq_ok howner
  refine fair_announce_bind henv fun u hu => ?_
  refine fair_write_bind ?_ fun outcome =>
    succeeds_defer_bind fun _ => succeeds_announce_bind fun _ =>
      succeeds_announce_bind fun _ => succeeds_pure _
  rw [hu]
  exact hs.detachFromAll_fair (hs.formed.owned owner hknown) asset _

/-- The snapshot is that of the store in which the move is carried out. -/
theorem reassign_fair (hfree : w.tree.leases = {}) (assets : List AssetId) (target : NodeId) :
    Fair full ((reassign assets target : Action σ _) env w).1 := by
  rw [reassign]
  refine fair_map_read_bind _ (hs.requireNode_fair _) fun node hnode => ?_
  refine fair_ite (fair_ok _) ?_
  refine fair_read_bind ((ensureAssetsIn_fair _ _ _).bind fun _ _ => fair_ok _)
    fun observed hobserved => ?_
  refine fair_holding henv hfree fun u hu => ?_
  have hfound : observe assets.eraseDups target w.tree.store = .ok (node.hierarchy, observed) := by
    rw [observe, hnode]
    exact bind_eq_ok.2 ⟨node.hierarchy, rfl, bind_eq_ok.2 ⟨observed, hobserved, rfl⟩⟩
  have hsame : u.tree.store.attachmentsOf assets.eraseDups = observed := by
    rw [hu]
    exact (observe_eq_ok hs.formed hfound).2.2.symm
  rw [moveObserved_eq]
  refine fair_read_bind (fair_ok _) fun snapshot hsnapshot => ?_
  cases hsnapshot
  rw [if_pos hsame, moveSeen]
  refine fair_announce_bind henv fun v hv => ?_
  refine fair_write_bind ?_ fun added =>
    succeeds_announce_bind fun _ => succeeds_announce_bind fun _ =>
      succeeds_defer_bind fun _ => succeeds_pure _
  rw [hv, hu]
  exact hs.move_fair hfound

theorem reconcile_fair (hfree : w.tree.leases = {}) (host : HierarchyId) (mode : Mode) :
    Fair full ((reconcile host mode : Action σ _) env w).1 := by
  refine fair_map_read_bind _ (requireHierarchy_fair _ host) fun _ _ => ?_
  cases mode with
  | repair => exact fair_held henv hfree (hs.reconcile_fair host .repair)
  | checkOnly => exact (hs.reconcile_fair host .checkOnly).map _

end Tree

/-! ## All requests -/

theorem Tree.overview_fair {tree : Tree} (hs : tree.store.Tidy) : Fair full tree.overview := by
  refine (fair_mapM fun host _ => ?_).bind fun _ _ => fair_ok _
  exact (hs.nodesOf_fair host.id).bind fun _ _ => fair_ok _

open Inventory.Action in
theorem Request.run_fair (henv : env.Passive) (hs : w.tree.store.Tidy) (hfree : w.tree.leases = {})
    (request : Request) :
    Fair (w.tree.store.Exhausted w.tree.options.newNodeName) (request.run env w).1 := by
  cases request with
  | createHierarchy name =>
    rw [run_createHierarchy]
    exact fair_map _ (Tree.createHierarchy_fair hs id name)
  | createChild parent value =>
    exact fair_map _ (Tree.createChild_fair henv hs hfree id parent value)
  | getOrCreateChild parent value =>
    rw [run_getOrCreateChild]
    exact fair_map _ (Tree.getOrCreateChild_fair henv hs hfree id parent value)
  | createPath host path => exact fair_map _ (Tree.createPath_fair henv hs hfree id host path)
  | deleteNode id => exact fair_map _ (Tree.deleteNode_fair henv hs hfree id)
  | createAsset host name places => exact fair_map _ (Tree.createAsset_fair hs host name places)
  | deleteAsset id => exact fair_map _ (Tree.deleteAsset_fair henv hs id)
  | attach place batch => exact fair_map _ (Tree.attach_fair hs place batch)
  | detach place batch => exact fair_map _ (Tree.detach_fair henv hs place batch)
  | attachToNodes id places => exact fair_map _ (Tree.attachToNodes_fair hs id places)
  | detachFromNodes id places => exact fair_map _ (Tree.detachFromNodes_fair henv hs id places)
  | reassign batch target => exact fair_map _ (Tree.reassign_fair henv hs hfree batch target)
  | reconcile host => exact fair_map _ (Tree.reconcile_fair henv hs hfree host .repair)
  | check host => exact fair_map _ (Tree.reconcile_fair henv hs hfree host .checkOnly)
  | flush =>
    obtain ⟨_, hflush⟩ := Tree.succeeds_flush henv w
    exact fair_map _ (fair_of_eq hflush)
  | root host => exact fair_map _ (hs.requireRoot_fair host)
  | node id => exact fair_map _ (hs.node?_fair id)
  | nodeByKey key host => exact fair_map _ (hs.nodeByKey?_fair host key)
  | nodes host => exact fair_map _ (hs.nodesOf_fair host)
  | children id =>
    exact fair_map _ ((hs.requireNode_fair id).bind fun node _ => hs.children_fair _ _)
  | subtreeCount id => exact fair_map _ (hs.subtreeCount_fair id)
  | nodeAssetIds id => exact fair_map _ (hs.assetIdsOf_fair id)
  | assetsUnder ids => exact fair_map _ (hs.assetsUnder_fair ids)
  | computedCounts host => exact fair_map _ (hs.computedCounts_fair host)
  | overview => exact (Tree.overview_fair hs).map _
  | _ => exact fair_ok _

end Inventory
