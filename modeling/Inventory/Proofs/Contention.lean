import Inventory.Proofs.Queue
import Inventory.Proofs.Runs
import Inventory.Proofs.Tree.Leasing
import Inventory.Proofs.Tree.Requests

/-! # Operations on trees whose leases are held

Somebody else may hold leases of a tree while an operation runs. The operation gives back what it
takes; a lease that it needs and does not get stops it before it has done anything, but only once
its checks have passed; and leases that it does not need make no difference to it. -/
namespace Inventory
set_option autoImplicit false
open Inventory.Store Inventory.Action
variable {σ : Type}

/-! ## Plain operations -/

namespace Tree
variable {calls : Prop}

theorem plain_createHierarchy (name : String) :
    Plain calls (createHierarchy name : Action σ (Hierarchy × Node)) :=
  (plain_lift (Name.validate_unrefused name)).bind fun name =>
    plain_write (createHierarchy_unrefused name)

theorem plain_createAsset (hcalls : calls) (hierarchy : HierarchyId) (name : String)
    (nodes : List NodeId) : Plain calls (createAsset hierarchy name nodes : Action σ Asset) := by
  refine (plain_lift (Name.validate_unrefused name)).bind fun name => ?_
  refine (plain_propagates _).bind fun propagate => ?_
  refine (plain_write (createAsset_unrefused hierarchy name _ propagate)).bind fun made => ?_
  exact (plain_deferUnless propagate hierarchy).bind fun _ =>
    (Plain.announce hcalls _ _ _).bind fun _ => plain_pure made.1

theorem plain_deleteAsset (hcalls : calls) (id : AssetId) :
    Plain calls (deleteAsset id : Action σ Unit) := by
  have hread : ∀ s : Store, Unrefused (do return (← s.requireAsset id, s.nodesOfAsset id)) :=
    fun s => (s.requireAsset_unrefused id).bind fun _ => unrefused_ok _
  refine (plain_read hread).bind fun found => (Plain.announce hcalls _ _ _).bind fun _ => ?_
  refine (plain_view fun _ _ => rfl).bind fun options => ?_
  refine (plain_write (removeAsset_unrefused found.1.hierarchy id _)).bind fun removed => ?_
  exact (plain_deferUnless _ _).bind fun _ => Plain.announce hcalls _ _ _

theorem plain_attach (hcalls : calls) (node : NodeId) (assets : List AssetId) :
    Plain calls (attach node assets : Action σ Outcome) := by
  rw [attach]
  by_cases hnone : assets.eraseDups.isEmpty = true
  · rw [if_pos hnone]
    exact plain_pure _
  · rw [if_neg hnone]
    refine (plain_propagates _).bind fun propagate => ?_
    refine (plain_write (attachAll_unrefused node _ propagate)).bind fun made => ?_
    exact (plain_deferUnless propagate _).bind fun _ =>
      (Plain.announce hcalls _ _ _).bind fun _ => plain_pure made.2

theorem plain_attachToNodes (hcalls : calls) (asset : AssetId) (nodes : List NodeId) :
    Plain calls (attachToNodes asset nodes : Action σ Outcome) := by
  rw [attachToNodes]
  by_cases hnone : nodes.eraseDups.isEmpty = true
  · rw [if_pos hnone]
    exact plain_pure _
  · rw [if_neg hnone]
    refine (plain_propagates _).bind fun propagate => ?_
    refine (plain_write (attachToAll_unrefused asset _ propagate)).bind fun made => ?_
    exact (plain_deferUnless propagate _).bind fun _ =>
      (Plain.announce hcalls _ _ _).bind fun _ => plain_pure made.2

/-- What an operation that has detached rows does in the end. -/
theorem plain_report (hcalls : calls) (propagate : Bool) (hierarchy : HierarchyId)
    (outcome : Outcome) :
    Plain calls (do
      Action.deferUnless propagate hierarchy
      Action.announce .afterRemove hierarchy outcome.changes
      Action.announce .afterAdd hierarchy outcome.rehomed
      return outcome : Action σ Outcome) :=
  (plain_deferUnless propagate hierarchy).bind fun _ => (Plain.announce hcalls _ _ _).bind fun _ =>
    (Plain.announce hcalls _ _ _).bind fun _ => plain_pure outcome

theorem plain_detach (hcalls : calls) (node : NodeId) (assets : List AssetId) :
    Plain calls (detach node assets : Action σ Outcome) := by
  have hread : ∀ s : Store, Unrefused (do
      return ((← s.requireNode node).hierarchy, assets.eraseDups.filter (s.isAttached · node))) :=
    fun s => (s.requireNode_unrefused node).bind fun _ => unrefused_ok _
  rw [detach]
  by_cases hnone : assets.eraseDups.isEmpty = true
  · rw [if_pos hnone]
    exact plain_pure _
  · rw [if_neg hnone]
    refine (plain_read hread).bind fun found => (Plain.announce hcalls _ _ _).bind fun _ => ?_
    refine (plain_propagates _).bind fun propagate => ?_
    exact (plain_write (detachAll_unrefused found.1 node _ propagate)).bind fun outcome =>
      plain_report hcalls propagate found.1 outcome

theorem plain_detachFromNodes (hcalls : calls) (asset : AssetId) (nodes : List NodeId) :
    Plain calls (detachFromNodes asset nodes : Action σ Outcome) := by
  have hread : ∀ s : Store, Unrefused (do
      return ((← s.requireAsset asset).hierarchy, s.nodesOfAsset asset)) :=
    fun s => (s.requireAsset_unrefused asset).bind fun _ => unrefused_ok _
  rw [detachFromNodes]
  by_cases hnone : nodes.eraseDups.isEmpty = true
  · rw [if_pos hnone]
    exact plain_pure _
  · rw [if_neg hnone]
    refine (plain_read hread).bind fun found => (Plain.announce hcalls _ _ _).bind fun _ => ?_
    refine (plain_propagates _).bind fun propagate => ?_
    exact (plain_write (detachFromAll_unrefused found.1 asset _ propagate)).bind fun outcome =>
      plain_report hcalls propagate found.1 outcome

theorem plain_moveObserved (hcalls : calls) (hierarchy : HierarchyId) (target : NodeId)
    (assets : List AssetId) (observed : List Attachment) :
    Plain calls (moveObserved hierarchy target assets observed : Action σ Reassignment) := by
  rw [moveObserved_eq]
  refine (plain_read fun _ => unrefused_ok _).bind fun snapshot => ?_
  by_cases hsame : snapshot = observed
  · rw [if_pos hsame]
    refine (Plain.announce hcalls _ _ _).bind fun _ => (plain_propagates _).bind fun propagate => ?_
    refine (plain_write (move_unrefused hierarchy target assets observed propagate)).bind
      fun added => ?_
    refine (Plain.announce hcalls _ _ _).bind fun _ => (Plain.announce hcalls _ _ _).bind fun _ => ?_
    exact (plain_deferUnless propagate hierarchy).bind fun _ => plain_pure _
  · rw [if_neg hsame]
    exact plain_lift (unrefused_error rfl)

theorem plain_check (hierarchy : HierarchyId) :
    Plain calls (reconcile hierarchy .checkOnly : Action σ Report) :=
  ((plain_read fun s => s.requireHierarchy_unrefused hierarchy).map _).bind fun _ =>
    plain_read fun s => (reconcile_unrefused hierarchy .checkOnly s).map _

theorem plain_childrenOf (id : NodeId) : Plain calls (childrenOf id : Action σ (List Node)) :=
  plain_read fun s => (s.requireNode_unrefused id).bind fun _ => s.children_unrefused _ _

end Tree

/-! ## The lease of each request -/

namespace Request

/-- What a request checks before it asks for a lease, and the hierarchy whose lease it then asks
for, if any. -/
def lease? : Request → Store → Except Error (Option HierarchyId)
  | createChild id _ | deleteNode id => fun s => do
    let host ← (·.hierarchy) <$> s.requireNode id
    return some host
  | getOrCreateChild id value => fun s => do
    let _ ← Name.validate value
    let host ← (·.hierarchy) <$> s.requireNode id
    return some host
  | createPath host _ => fun _ => .ok (some host)
  | reassign batch target => fun s => do
    let host ← (·.hierarchy) <$> s.requireNode target
    if batch.eraseDups.isEmpty then return none
    let _ ← Tree.rowsToMove batch.eraseDups host s
    return some host
  | reconcile host => fun s => do
    discard (s.requireHierarchy host)
    return some host
  | _ => fun _ => .ok none

end Request

namespace Tree
variable {calls : Prop}

theorem host_unrefused (id : NodeId) (s : Store) :
    Unrefused ((·.hierarchy) <$> s.requireNode id) := (s.requireNode_unrefused id).map _

theorem leasing_createChild (parent : NodeId) (value : Option String) :
    Leasing calls (Request.lease? (.createChild parent value))
      (createChild parent value : Action σ Node) := by
  rw [createChild, hierarchyOf_eq]
  refine .read (host_unrefused parent) fun host => .view (·.newNodeName) fun preset => ?_
  exact .held host (plain_write (createChild_unrefused host parent value preset))

theorem leasing_getOrCreateChild (parent : NodeId) (value : String) :
    Leasing calls (Request.lease? (.getOrCreateChild parent value))
      (getOrCreateChild parent value : Action σ (Node × Bool)) := by
  have hchange : ∀ value, Transaction.Unrefused (do
      getOrInsertChild (← (← get).requireNode parent) value) := fun value =>
    Transaction.unrefused_get fun s =>
      (Transaction.unrefused_lift (s.requireNode_unrefused parent)).bind fun node =>
        getOrInsertChild_unrefused node value
  rw [getOrCreateChild, hierarchyOf_eq]
  exact .read (fun _ => Name.validate_unrefused value) fun value =>
    .read (host_unrefused parent) fun host => .held host (plain_write (hchange value))

theorem leasing_createPath (hierarchy : HierarchyId) (path : String) :
    Leasing calls (Request.lease? (.createPath hierarchy path))
      (createPath hierarchy path : Action σ Node) :=
  .held hierarchy (plain_write (createPath_unrefused hierarchy path))

theorem leasing_deleteNode (id : NodeId) :
    Leasing calls (Request.lease? (.deleteNode id)) (deleteNode id : Action σ Unit) := by
  rw [deleteNode, hierarchyOf_eq]
  exact .read (host_unrefused id) fun host => .held host (plain_write (removeNode_unrefused host id))

theorem leasing_reassign (hcalls : calls) (batch : List AssetId) (target : NodeId) :
    Leasing calls (Request.lease? (.reassign batch target))
      (reassign batch target : Action σ Reassignment) := by
  have hrows : ∀ host (s : Store), Unrefused (rowsToMove batch.eraseDups host s) := fun host s =>
    (s.ensureAssetsIn_unrefused host _).bind fun _ => unrefused_ok _
  rw [reassign, hierarchyOf_eq]
  by_cases hnone : batch.eraseDups.isEmpty = true
  · simp only [if_pos hnone, Request.lease?]
    exact .read (host_unrefused target) fun host => .free (plain_pure _)
  · simp only [if_neg hnone, Request.lease?]
    exact .read (host_unrefused target) fun host => .read (hrows host) fun observed =>
      .held host (plain_moveObserved hcalls host target _ observed)

theorem leasing_reconcile (hierarchy : HierarchyId) :
    Leasing calls (Request.lease? (.reconcile hierarchy))
      (reconcile hierarchy .repair : Action σ Report) := by
  have hdiscard : (discard (Action.read (·.requireHierarchy hierarchy)) : Action σ PUnit) =
      Action.read fun s => discard (s.requireHierarchy hierarchy) := map_read _ _
  rw [reconcile, hdiscard]
  exact .read (fun s => (s.requireHierarchy_unrefused hierarchy).map _) fun _ =>
    .held hierarchy (plain_write (reconcile_unrefused hierarchy .repair))

end Tree

namespace Request
variable {calls : Prop} {env : Surroundings σ} {w : World σ} {request : Request}

/-- The requests that look at leases, or run jobs of which each asks for one. -/
def isApart : Request → Bool
  | flush | locked | overview => true
  | _ => false

/-- The requests that call observers under a lease. -/
def isMove : Request → Bool
  | reassign _ _ => true
  | _ => false

/-- Every other request asks for at most one lease, after its checks. -/
theorem leasing (hapart : request.isApart = false) (hcalls : request.isMove = true → calls) :
    Leasing calls request.lease? (request.run : Action σ Answer) := by
  have hask : ∀ {α : Type} (f : α → Answer) {question : Store → Except Error α},
      (∀ s, Unrefused (question s)) →
        Leasing calls (fun _ => .ok none) (f <$> read question : Action σ Answer) :=
    fun f _ h => .free ((plain_read h).map f)
  have hview : ∀ question : Tree → Answer,
      (∀ (tree : Tree) (leases : Leases), question { tree with leases } = question tree) →
        Leasing calls (fun _ => .ok none) (view question : Action σ Answer) :=
    fun _ h => .free (plain_view h)
  cases request with
  | createHierarchy name => exact .free ((Tree.plain_createHierarchy name).map _)
  | createChild parent value => exact (Tree.leasing_createChild parent value).map _
  | getOrCreateChild parent value =>
    rw [run_getOrCreateChild]
    exact (Tree.leasing_getOrCreateChild parent value).map _
  | createPath host path => exact (Tree.leasing_createPath host path).map _
  | deleteNode id => exact (Tree.leasing_deleteNode id).map _
  | createAsset host name places => exact .free ((Tree.plain_createAsset trivial host name places).map _)
  | deleteAsset id => exact .free ((Tree.plain_deleteAsset trivial id).map _)
  | attach id batch => exact .free ((Tree.plain_attach trivial id batch).map _)
  | detach id batch => exact .free ((Tree.plain_detach trivial id batch).map _)
  | attachToNodes id places => exact .free ((Tree.plain_attachToNodes trivial id places).map _)
  | detachFromNodes id places => exact .free ((Tree.plain_detachFromNodes trivial id places).map _)
  | reassign batch target => exact (Tree.leasing_reassign (hcalls rfl) batch target).map _
  | reconcile host => exact (Tree.leasing_reconcile host).map _
  | check host => exact .free ((Tree.plain_check host).map _)
  | children id => exact .free ((Tree.plain_childrenOf id).map _)
  | schedule host => exact .free ((plain_schedule host).map _)
  | root host => exact hask _ fun s => s.requireRoot_unrefused host
  | node id => exact hask _ fun s => s.node?_unrefused id
  | nodeByKey key host => exact hask _ fun s => s.nodeByKey?_unrefused host key
  | nodes host => exact hask _ fun s => s.nodesOf_unrefused host
  | subtreeCount id => exact hask _ fun s => s.subtreeCount_unrefused id
  | nodeAssetIds id => exact hask _ fun s => s.assetIdsOf_unrefused id
  | assetsUnder ids => exact hask _ fun s => s.assetsUnder_unrefused ids
  | computedCounts host => exact hask _ fun s => s.computedCounts_unrefused host
  | hierarchy | hierarchies | asset | assetNodes | directAssets | pending | queue | options =>
    rw [run]
    exact hview _ fun _ _ => rfl
  | flush | locked | overview => cases hapart

end Request

/-! ## Jobs -/

/-- The world after a change of the queue. -/
def World.queued (w : World σ) (change : Queue → Queue) : World σ :=
  { w with tree := { w.tree with queue := change w.tree.queue } }

namespace Tree
variable {env : Surroundings σ} {jobs : List HierarchyId}

theorem runJobs_eq_ok (jobs : List HierarchyId) (w : World σ) :
    (runJobs jobs env w).1 = .ok () := by
  induction jobs generalizing w with
  | nil => rfl
  | cons first rest ih =>
    rw [runJobs_cons]
    exact ih _

theorem runJobs_leases (henv : env.Returning) (jobs : List HierarchyId) (w : World σ) :
    (runJobs jobs env w).2.tree.leases = w.tree.leases := by
  induction jobs generalizing w with
  | nil => rfl
  | cons first rest ih =>
    rw [runJobs_cons, ih]
    exact (@leasing_reconcile σ False first).leases henv w

theorem runJobs_leased (hear : Notice → σ → σ) {w : World σ} {leases : Leases}
    (hfree : ∀ host ∈ jobs, host ∉ w.tree.leases.held ∧ host ∉ leases.held) :
    runJobs jobs (Surroundings.listening hear) (w.leased leases) =
      ((runJobs jobs (Surroundings.listening hear) w).1,
        (runJobs jobs (Surroundings.listening hear) w).2.leased leases) := by
  induction jobs generalizing w with
  | nil => rfl
  | cons first rest ih =>
    have hfirst := @leasing_reconcile σ False first
    have hkept := hfirst.leases (Surroundings.returning_listening hear) w
    have hrun := hfirst.leased hear (w := w) fun host hask => by
      obtain ⟨_, -, hhost⟩ := Inventory.bind_eq_ok.1 hask
      cases hhost
      exact hfree first List.mem_cons_self
    rw [runJobs_cons, runJobs_cons, hrun]
    refine ih (w := (reconcile first .repair (Surroundings.listening hear) w).2.finished _)
      fun host hhost => ?_
    show host ∉ (reconcile first .repair (Surroundings.listening hear) w).2.tree.leases.held ∧ _
    rw [hkept]
    exact hfree host (List.mem_cons_of_mem _ hhost)

/-- A flush runs all that waits as jobs. -/
theorem flush_run (env : Surroundings σ) (w : World σ) :
    flush env w = (.ok (),
      (runJobs ((w.tree.queue.hasten 0).takeDue 0).running env
        (w.queued fun q => (q.hasten 0).takeDue 0)).2.queued Queue.retire) := by
  let v := w.queued fun q => (q.hasten 0).takeDue 0
  have hjobs : runJobs v.tree.queue.running env v =
      (.ok (), (runJobs v.tree.queue.running env v).2) :=
    Prod.ext (runJobs_eq_ok _ _) rfl
  have hfirst : updateQueue (fun q => (q.hasten 0).takeDue 0) env w = (.ok (), v) := rfl
  have hview : view (·.queue.running) env v = (.ok v.tree.queue.running, v) := rfl
  exact (bind_of_ok hfirst).trans ((bind_of_ok hview).trans (bind_of_ok hjobs))

end Tree

namespace Request
variable {env : Surroundings σ} {w : World σ} {request : Request}

/-- The request needs the lease of the hierarchy, itself or for a job that it runs. -/
def Needs (request : Request) (tree : Tree) (host : HierarchyId) : Prop :=
  request.lease? tree.store = .ok (some host) ∨ request = .flush ∧ host ∈ tree.queue.jobs

theorem overview_unrefused (tree : Tree) : Unrefused tree.overview :=
  (unrefused_mapM (fun _ => (tree.store.nodesOf_unrefused _).bind fun _ => unrefused_ok _) _).bind
    fun _ => unrefused_ok _

/-- Any request is one of those, or asks for at most one lease. -/
theorem apart_or_leasing (request : Request) :
    request = .flush ∨ request = .locked ∨ request = .overview ∨
      Leasing (request.isMove = true) request.lease? (request.run : Action σ Answer) := by
  cases request with
  | flush => exact Or.inl rfl
  | locked => exact Or.inr (Or.inl rfl)
  | overview => exact Or.inr (Or.inr (Or.inl rfl))
  | _ => exact Or.inr (Or.inr (Or.inr (leasing rfl id)))

theorem run_flush (env : Surroundings σ) (w : World σ) :
    flush.run env w = (.ok .done,
      (Tree.runJobs ((w.tree.queue.hasten 0).takeDue 0).running env
        (w.queued fun q => (q.hasten 0).takeDue 0)).2.queued Queue.retire) := by
  rw [run, map_run, Tree.flush_run]
  rfl

/-- No request keeps a lease, or takes one away. -/
theorem run_leases (henv : env.Returning) (request : Request) (w : World σ) :
    (request.run env w).2.tree.leases = w.tree.leases := by
  rcases @apart_or_leasing σ request with rfl | rfl | rfl | hleasing
  · rw [run_flush]
    exact Tree.runJobs_leases henv _ _
  · rfl
  · rfl
  · exact hleasing.leases henv w

/-- No request is refused but for the lease that it asks for, and only if that is held. -/
theorem run_refused (henv : env.Returning) {e : Error}
    (h : (request.run env w).1 = .error e) (he : e.isRefusal = true) :
    ∃ host, request.lease? w.tree.store = .ok (some host) ∧ host ∈ w.tree.leases.held ∧
      (e = .lockTimeout host ∨ e = .waitsForever host) := by
  rcases @apart_or_leasing σ request with rfl | rfl | rfl | hleasing
  · rw [run_flush] at h
    cases h
  · cases h
  · have hoverview : Answer.overview <$> w.tree.overview = .error e := h
    rw [(overview_unrefused w.tree).map _ e hoverview] at he
    cases he
  · exact hleasing.refused henv h he

section Listening
variable {hear : Notice → σ → σ} {host : HierarchyId}

/-- Checks that fail stop a request. -/
theorem run_of_error {e : Error} (hask : request.lease? w.tree.store = .error e) :
    request.run env w = (.error e, w) := by
  rcases @apart_or_leasing σ request with rfl | rfl | rfl | hleasing
  · cases hask
  · cases hask
  · cases hask
  · exact hleasing.of_error hask

/-- A lease that is held stops a request that asks for it. -/
theorem run_of_held (hbound : w.tree.options.lockTimeout.isSome = true)
    (hask : request.lease? w.tree.store = .ok (some host)) (hheld : host ∈ w.tree.leases.held) :
    request.run (Surroundings.listening hear) w = (.error (.lockTimeout host), w) := by
  rcases @apart_or_leasing σ request with rfl | rfl | rfl | hleasing
  · cases hask
  · cases hask
  · cases hask
  · rw [hleasing.of_held (Surroundings.returning_listening hear) hask hheld]
    show (Except.error (if w.tree.options.lockTimeout.isSome then _ else _), w) = _
    rw [if_pos hbound]

/-- A request that does not look at leases cannot tell those that it does not need. -/
theorem run_leased (hlocked : request ≠ .locked) (hoverview : request ≠ .overview)
    {leases : Leases}
    (hfree : ∀ host, request.Needs w.tree host → host ∉ w.tree.leases.held ∧ host ∉ leases.held) :
    request.run (Surroundings.listening hear) (w.leased leases) =
      ((request.run (Surroundings.listening hear) w).1,
        (request.run (Surroundings.listening hear) w).2.leased leases) := by
  rcases @apart_or_leasing σ request with rfl | rfl | rfl | hleasing
  · rw [run_flush, run_flush]
    let v := w.queued fun q => (q.hasten 0).takeDue 0
    have hjobs : Tree.runJobs v.tree.queue.running _ (v.leased leases) = _ :=
      Tree.runJobs_leased hear fun host hhost =>
        hfree host (Or.inr ⟨rfl, (Queue.running_hasten _).1 hhost⟩)
    exact congrArg (fun r => (Except.ok Answer.done, r.2.queued Queue.retire)) hjobs
  · exact absurd rfl hlocked
  · exact absurd rfl hoverview
  · exact hleasing.leased hear fun host hask => hfree host (Or.inl hask)

end Listening

/-- Operations and the leases that others hold, where the wait for a lease is bounded and observers
only listen. The same leases are held afterwards. A request ends in a timeout exactly if its checks
pass and the lease that it then asks for is held, and it has done nothing by then; if the checks
fail, their error is the answer. Where no lease that it needs is held, a request that does not look
at leases does what it does on a tree without any. -/
theorem lock_discipline (hear : Notice → σ → σ) (request : Request) (w : World σ)
    (hbound : w.tree.options.lockTimeout.isSome = true) :
    (request.run (Surroundings.listening hear) w).2.tree.leases = w.tree.leases ∧
      (∀ host, (request.run (Surroundings.listening hear) w).1 = .error (.lockTimeout host) ↔
        request.lease? w.tree.store = .ok (some host) ∧ host ∈ w.tree.leases.held) ∧
      (∀ host, (request.run (Surroundings.listening hear) w).1 = .error (.lockTimeout host) →
        (request.run (Surroundings.listening hear) w).2 = w) ∧
      (∀ e, request.lease? w.tree.store = .error e →
        request.run (Surroundings.listening hear) w = (.error e, w)) ∧
      (request ≠ .locked → request ≠ .overview →
        (∀ host, request.Needs w.tree host → host ∉ w.tree.leases.held) →
          request.run (Surroundings.listening hear) w =
            ((request.run (Surroundings.listening hear) (w.leased {})).1,
              (request.run (Surroundings.listening hear) (w.leased {})).2.leased w.tree.leases)) := by
  have henv := Surroundings.returning_listening hear
  have hrefused : ∀ host, (request.run (Surroundings.listening hear) w).1 =
      .error (.lockTimeout host) →
        request.lease? w.tree.store = .ok (some host) ∧ host ∈ w.tree.leases.held := by
    intro host hresult
    obtain ⟨asked, hask, hheld, he | he⟩ := run_refused henv hresult rfl
    · cases he
      exact ⟨hask, hheld⟩
    · cases he
  refine ⟨run_leases henv request w, fun host => ⟨hrefused host, fun ⟨hask, hheld⟩ => ?_⟩,
    fun host hresult => ?_, fun e => run_of_error, fun hlocked hoverview hfree => ?_⟩
  · rw [run_of_held hbound hask hheld]
  · obtain ⟨hask, hheld⟩ := hrefused host hresult
    rw [run_of_held hbound hask hheld]
  · exact run_leased (w := w.leased {}) hlocked hoverview fun host hneeds =>
      ⟨List.not_mem_nil, hfree host hneeds⟩

/-- A tree whose hierarchy somebody holds the lease of. -/
def held : Tree :=
  { ({ options := { lockTimeout := some 40 } } : Tree).after library with leases := ⟨[1]⟩ }

theorem lock_discipline_held :
    ((createChild 1 (some "Globes")).run (Surroundings.listening fun n log => log ++ [n])
      ⟨held, ([] : List Notice)⟩).1 = .error (.lockTimeout 1) ∧
    ((createChild 7 none).run (Surroundings.listening fun n log => log ++ [n])
      ⟨held, ([] : List Notice)⟩).1 = .error (.notFound .node) := by
  have hchild := lock_discipline (fun n log => log ++ [n]) (createChild 1 (some "Globes"))
    ⟨held, ([] : List Notice)⟩ (by decide +kernel)
  have hnone := lock_discipline (fun n log => log ++ [n]) (createChild 7 none)
    ⟨held, ([] : List Notice)⟩ (by decide +kernel)
  obtain ⟨-, hrefused, -⟩ := hchild
  obtain ⟨-, -, -, hchecks, -⟩ := hnone
  refine ⟨(hrefused 1).2 ⟨?_, List.mem_singleton_self 1⟩, ?_⟩
  · decide +kernel
  · rw [hchecks (.notFound .node) (by decide +kernel)]

end Request
end Inventory
