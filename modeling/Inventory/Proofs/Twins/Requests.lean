import Inventory.Proofs.Tree.Repair
import Inventory.Proofs.Twins.Operations

/-! # Requests to twin trees

Twin trees give the same answers, up to what an answer shows of amounts, marks and queues. -/
namespace Inventory
set_option autoImplicit false
open Inventory.Store Inventory.Action

variable {σ τ α β : Type} {env : Surroundings σ} {env' : Surroundings τ} {tree tree' : Tree}

/-! ## Answers without amounts -/

theorem Node.map_bare_bare (nodes : List Node) :
    (nodes.map Node.bare).map Node.bare = nodes.map Node.bare := by
  rw [List.map_map]
  rfl

def HierarchyOverview.bare (overview : HierarchyOverview) : HierarchyOverview :=
  { overview with nodes := overview.nodes.map fun entry => (entry.1.bare, entry.2) }

/-- The overview without amounts, marks and what waits in the queue. -/
def Overview.bare (overview : Overview) : Overview :=
  { overview with
    hierarchies := overview.hierarchies.map HierarchyOverview.bare, pending := [], queued := [] }

/-- The answer without what it shows of amounts, marks, the queue and the size of batches. -/
def Answer.bare : Answer → Answer
  | .newHierarchy made top => .newHierarchy made top.bare
  | .node found => .node found.bare
  | .nodeFound found => .nodeFound (found.map Node.bare)
  | .nodes found => .nodes (found.map Node.bare)
  | .child found created => .child found.bare created
  | .outcome edit => .outcome edit.bare
  | .reassignment moved => .reassignment moved.bare
  | .report found => .report found.bare
  | .options given => .options given.unlimited
  | .overview shown => .overview shown.bare
  | answer => answer

/-- The questions about marks and the queue, and the request for a job. -/
def Request.isAboutJobs : Request → Bool
  | pending | queue | schedule _ => true
  | _ => false

/-! ## Questions -/

section Questions
variable (h : Twins {} [] tree tree')
include h

theorem agrees_question (wrap : α → Answer) {question : Store → Except Error α}
    (hquestion : ∀ s, (Answer.bare ∘ wrap) <$> question s.bare = (Answer.bare ∘ wrap) <$> question s) :
    Agrees env env' tree tree' (fun answer answer' => answer.bare = answer'.bare)
      (wrap <$> Action.read question) (wrap <$> Action.read question) := by
  have hsame := bare_congr (fun s => (Answer.bare ∘ wrap) <$> question s) hquestion h.bare
  refine Pairs.map wrap wrap (pairs_read hsame) ?_
  rintro a b _ _ ⟨⟨-, -, heq⟩, rfl, rfl⟩
  exact ⟨heq, h⟩

theorem agrees_view {question : Tree → Answer}
    (hsame : (question tree).bare = (question tree').bare) :
    Agrees env env' tree tree' (fun answer answer' => answer.bare = answer'.bare)
      (Action.view question) (Action.view question) := by
  refine (pairs_view question).weaken ?_
  rintro _ _ _ _ ⟨⟨rfl, rfl⟩, rfl, rfl⟩
  exact ⟨hsame, h⟩

theorem overviewOf_agree (hierarchy : Hierarchy) :
    HierarchyOverview.bare <$> tree.overviewOf hierarchy =
      HierarchyOverview.bare <$> tree'.overviewOf hierarchy := by
  let shown : Store → Except Error HierarchyOverview := fun s => do
    let nodes ← s.nodesOf hierarchy.id
    return ⟨hierarchy, nodes.map fun node => (node, s.directAssets node.id)⟩
  have hshown : ∀ s : Store, HierarchyOverview.bare <$> shown s.bare =
      HierarchyOverview.bare <$> shown s := by
    intro s
    show HierarchyOverview.bare <$> (s.bare.nodesOf hierarchy.id >>= _) =
      HierarchyOverview.bare <$> (s.nodesOf hierarchy.id >>= _)
    rw [nodesOf_bare]
    cases s.nodesOf hierarchy.id with
    | error e => rfl
    | ok nodes =>
      refine congrArg (fun nodes => Except.ok (⟨hierarchy, nodes⟩ : HierarchyOverview)) ?_
      rw [List.map_map, List.map_map, List.map_map]
      rfl
  exact bare_congr (fun s => HierarchyOverview.bare <$> shown s) hshown h.bare

theorem overview_agree : Overview.bare <$> tree.overview = Overview.bare <$> tree'.overview := by
  have hhosts : tree.store.hierarchies = tree'.store.hierarchies :=
    bare_congr (·.hierarchies) (fun _ => rfl) h.bare
  have hlocked : tree.leases.held = tree'.leases.held := by rw [h.first, h.second]
  have hall : List.map HierarchyOverview.bare <$> tree.store.hierarchies.mapM tree.overviewOf =
      List.map HierarchyOverview.bare <$> tree'.store.hierarchies.mapM tree'.overviewOf := by
    rw [map_mapM, map_mapM, hhosts]
    exact congrArg (tree'.store.hierarchies.mapM ·) (funext (overviewOf_agree h))
  have hshown : ∀ tree : Tree, Overview.bare <$> tree.overview =
      (fun shown => (⟨shown, [], [], tree.leases.held⟩ : Overview)) <$>
        List.map HierarchyOverview.bare <$> tree.store.hierarchies.mapM tree.overviewOf := by
    intro tree
    rw [Tree.overview]
    cases tree.store.hierarchies.mapM tree.overviewOf with
    | error e => rfl
    | ok shown => rfl
  rw [hshown, hshown, hall, hlocked]

theorem agrees_overview :
    Agrees env env' tree tree' (fun answer answer' => answer.bare = answer'.bare)
      Request.overview.run Request.overview.run := by
  have hshown : Answer.bare <$> Answer.overview <$> tree.overview =
      Answer.bare <$> Answer.overview <$> tree'.overview := by
    have hsame := congrArg (Answer.overview <$> ·) (overview_agree h)
    rw [Functor.map_map, Functor.map_map] at hsame ⊢
    exact hsame
  refine (pairs_ask hshown (fun w hw => ?_) fun v hv => ?_).weaken ?_
  · show (Answer.overview <$> w.tree.overview, w) = _
    rw [hw]
  · show (Answer.overview <$> v.tree.overview, v) = _
    rw [hv]
  · rintro _ _ _ _ ⟨⟨-, -, hsame⟩, rfl, rfl⟩
    exact ⟨hsame, h⟩

end Questions

section
variable (henv : env.Passive) (henv' : env'.Passive) (h : Twins {} [] tree tree')
  (hs : tree.store.Tidy)
include henv henv' h hs

theorem Request.agrees_of_asks {request : Request} (hasks : request.asks = true) :
    Agrees env env' tree tree'
      (fun answer answer' => request.isAboutJobs = false → answer.bare = answer'.bare)
      request.run request.run := by
  have hquestion : ∀ {α : Type} (wrap : α → Answer) (question : Store → Except Error α),
      (∀ s, (Answer.bare ∘ wrap) <$> question s.bare = (Answer.bare ∘ wrap) <$> question s) →
      Agrees env env' tree tree'
        (fun answer answer' => request.isAboutJobs = false → answer.bare = answer'.bare)
        (wrap <$> Action.read question) (wrap <$> Action.read question) :=
    fun wrap question hsame => (agrees_question h wrap hsame).weaken fun _ _ _ _ hpost =>
      ⟨fun _ => hpost.1, hpost.2⟩
  have hview : ∀ {question : Tree → Answer}, (question tree).bare = (question tree').bare →
      Agrees env env' tree tree'
        (fun answer answer' => request.isAboutJobs = false → answer.bare = answer'.bare)
        (Action.view question) (Action.view question) :=
    fun hsame => (agrees_view h hsame).weaken fun _ _ _ _ hpost => ⟨fun _ => hpost.1, hpost.2⟩
  cases request with
  | root host =>
    refine hquestion .node (·.requireRoot host) fun s => ?_
    rw [requireRoot_bare, Functor.map_map]
    rfl
  | node id =>
    refine hquestion .nodeFound (·.node? id) fun s => ?_
    rw [node?_bare, Functor.map_map]
    exact congrArg (· <$> s.node? id) (funext fun found => by cases found <;> rfl)
  | nodeByKey key host =>
    refine hquestion .nodeFound (·.nodeByKey? host key) fun s => ?_
    rw [nodeByKey?_bare, Functor.map_map]
    exact congrArg (· <$> s.nodeByKey? host key) (funext fun found => by cases found <;> rfl)
  | children id =>
    refine hquestion .nodes (fun s => do
      let node ← s.requireNode id
      s.children node.hierarchy node.key) fun s => ?_
    rw [requireNode_bare, bind_map_left]
    cases s.requireNode id with
    | error e => rfl
    | ok node =>
      show (Answer.bare ∘ .nodes) <$> s.bare.children node.hierarchy node.key =
        (Answer.bare ∘ .nodes) <$> s.children node.hierarchy node.key
      rw [children_bare, Functor.map_map]
      exact congrArg (· <$> s.children node.hierarchy node.key)
        (funext fun found => congrArg Answer.nodes (Node.map_bare_bare found))
  | nodes host =>
    refine hquestion .nodes (·.nodesOf host) fun s => ?_
    rw [nodesOf_bare, Functor.map_map]
    exact congrArg (· <$> s.nodesOf host) (funext fun found => congrArg Answer.nodes (Node.map_bare_bare found))
  | subtreeCount id =>
    refine hquestion .count (·.subtreeCount id) fun s => ?_
    rw [Store.subtreeCount, Store.subtreeCount, totalsBelow_bare]
  | nodeAssetIds id =>
    refine hquestion .ids (·.assetIdsOf id) fun s => ?_
    rw [assetIdsOf, assetIdsOf, totalsBelow_bare]
  | assetsUnder ids => exact hquestion .ids (·.assetsUnder ids) fun s => congrArg _ (assetsUnder_bare s ids)
  | computedCounts host =>
    exact hquestion .counts (·.computedCounts host) fun s => congrArg _ (computedCounts_bare s host)
  | hierarchy id => exact hview (congrArg Answer.hierarchy (bare_congr (·.hierarchy? id) (fun _ => rfl) h.bare))
  | hierarchies => exact hview (congrArg Answer.hierarchies (bare_congr (·.hierarchies) (fun _ => rfl) h.bare))
  | asset id => exact hview (congrArg Answer.assetFound (bare_congr (·.asset? id) (fun _ => rfl) h.bare))
  | assetNodes id => exact hview (congrArg Answer.ids (bare_congr (·.nodesOfAsset id) (fun _ => rfl) h.bare))
  | directAssets id => exact hview (congrArg Answer.ids (bare_congr (·.directAssets id) (fun _ => rfl) h.bare))
  | options => exact hview (congrArg Answer.options h.options)
  | locked => exact hview (by rw [h.first, h.second])
  | overview => exact (agrees_overview h).weaken fun _ _ _ _ hpost => ⟨fun _ => hpost.1, hpost.2⟩
  | check host =>
    refine Pairs.map _ _ (Tree.agrees_reconcile henv henv' h hs host .checkOnly) ?_
    exact fun _ _ _ _ hpost => ⟨fun _ => congrArg Answer.report hpost.1, hpost.2⟩
  | schedule host =>
    refine Pairs.map _ _ (Tree.agrees_schedule h host) ?_
    exact fun _ _ _ _ hpost => ⟨fun hjobs => (nomatch hjobs), hpost.2⟩
  | pending =>
    refine (pairs_view fun tree => Answer.ids tree.store.pending).weaken ?_
    rintro _ _ _ _ ⟨-, rfl, rfl⟩
    exact ⟨fun hjobs => (nomatch hjobs), h⟩
  | queue =>
    refine (pairs_view fun tree => Answer.queue tree.queue.pending tree.queue.stats).weaken ?_
    rintro _ _ _ _ ⟨-, rfl, rfl⟩
    exact ⟨fun hjobs => (nomatch hjobs), h⟩
  | _ => cases hasks

/-! ## Flushing -/

variable (ht : tree'.store.Tidy)
include ht

theorem agrees_flush : Agrees env env' tree tree' (fun _ _ => True) Tree.flush Tree.flush := by
  rintro w v ⟨rfl, rfl⟩
  obtain ⟨jobs, s, queue, hjobs, hrepairs, hok, htree⟩ := Tree.flush_free henv hs.sturdy h.first
  obtain ⟨jobs', t, queue', -, hrepairs', hok', htree'⟩ := Tree.flush_free henv' ht.sturdy h.second
  have hrepaired := hrepairs.repaired hs
  have hrepaired' := hrepairs'.repaired ht
  refine Or.inr ⟨(), (), hok, hok', trivial, ?_⟩
  rw [htree, htree']
  refine ⟨h.options, ?_, h.first, h.second, fun host hhost => ?_⟩
  · exact hrepaired.bare.trans (h.bare.trans hrepaired'.bare.symm)
  · obtain ⟨hmarked, hleft⟩ := (hrepaired.marked host).1 hhost
    exact absurd ((hjobs host).2 ((h.covered host hmarked).resolve_left List.not_mem_nil)) hleft

/-! ## All requests -/

/-- No request tells twin trees apart, and they remain twins. -/
theorem Request.agrees (request : Request) :
    Agrees env env' tree tree'
      (fun answer answer' => request.isAboutJobs = false → answer.bare = answer'.bare)
      request.run request.run := by
  have hwrap : ∀ {α : Type} {act : Action σ α} {act' : Action τ α} {agree : α → α → Prop}
      (wrap : α → Answer), Agrees env env' tree tree' agree act act' →
      (∀ a b, agree a b → (wrap a).bare = (wrap b).bare) →
      Agrees env env' tree tree'
        (fun answer answer' => request.isAboutJobs = false → answer.bare = answer'.bare)
        (wrap <$> act) (wrap <$> act') :=
    fun wrap hact hsame => Pairs.map wrap wrap hact fun a b _ _ hpost =>
      ⟨fun _ => hsame a b hpost.1, hpost.2⟩
  cases request with
  | createHierarchy name =>
    rw [run_createHierarchy, run_createHierarchy]
    refine hwrap _ (Tree.agrees_createHierarchy h hs name) ?_
    rintro made _ rfl
    rfl
  | createChild parent value =>
    refine hwrap .node (Tree.agrees_createChild henv henv' h hs parent value) ?_
    rintro made _ rfl
    rfl
  | getOrCreateChild parent value =>
    rw [run_getOrCreateChild, run_getOrCreateChild]
    refine hwrap _ (Tree.agrees_getOrCreateChild henv henv' h hs parent value) fun made made' hmade => ?_
    rw [Answer.bare, Answer.bare, hmade.1, hmade.2]
  | createPath host path =>
    exact hwrap .node (Tree.agrees_createPath henv henv' h hs host path)
      fun _ _ hmade => congrArg Answer.node hmade
  | deleteNode id =>
    exact hwrap (fun _ => .done) (Tree.agrees_deleteNode henv henv' h hs id) fun _ _ _ => rfl
  | createAsset host name places =>
    refine hwrap .asset (Tree.agrees_createAsset henv henv' h hs host name places) ?_
    rintro made _ rfl
    rfl
  | deleteAsset id =>
    exact hwrap (fun _ => .done) (Tree.agrees_deleteAsset henv henv' h hs id) fun _ _ _ => rfl
  | attach place batch =>
    exact hwrap .outcome (Tree.agrees_attach henv henv' h hs place batch)
      fun _ _ hmade => congrArg Answer.outcome hmade
  | detach place batch =>
    exact hwrap .outcome (Tree.agrees_detach henv henv' h hs place batch)
      fun _ _ hmade => congrArg Answer.outcome hmade
  | attachToNodes id places =>
    exact hwrap .outcome (Tree.agrees_attachToNodes henv henv' h hs id places)
      fun _ _ hmade => congrArg Answer.outcome hmade
  | detachFromNodes id places =>
    exact hwrap .outcome (Tree.agrees_detachFromNodes henv henv' h hs id places)
      fun _ _ hmade => congrArg Answer.outcome hmade
  | reassign batch target =>
    exact hwrap .reassignment (Tree.agrees_reassign henv henv' h hs batch target)
      fun _ _ hmade => congrArg Answer.reassignment hmade
  | reconcile host =>
    exact hwrap .report (Tree.agrees_reconcile henv henv' h hs host .repair)
      fun _ _ hmade => congrArg Answer.report hmade
  | flush => exact hwrap (fun _ => .done) (agrees_flush henv henv' h hs ht) fun _ _ _ => rfl
  | _ => exact agrees_of_asks henv henv' h hs rfl

end
end Inventory
