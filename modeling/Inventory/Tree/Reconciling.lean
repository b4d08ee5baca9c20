import Inventory.Reconcile
import Inventory.Tree.Basic

/-! Reconciling an open tree, at once or through the queue, and what happens to hierarchies that
still wait when a tree is closed or opened. -/
namespace Inventory
set_option autoImplicit false

namespace Tree

variable {σ : Type}

/-- Reconciles a hierarchy; a repair holds its lease. -/
def reconcile (hierarchy : HierarchyId) (mode : Mode) : Action σ Report := do
  discard (Action.read (·.requireHierarchy hierarchy))
  match mode with
  | .repair => Action.holding hierarchy (Action.write (Store.reconcile hierarchy .repair))
  | .checkOnly => Action.read fun s => (·.1) <$> Store.reconcile hierarchy .checkOnly s

/-- Runs the jobs that the worker has taken and notes how each ended. -/
def runJobs : List HierarchyId → Action σ Unit
  | [] => pure ()
  | hierarchy :: rest => fun env w =>
    let (result, w) := reconcile hierarchy .repair env w
    let failed := match result with
      | .ok _ => false
      | .error _ => true
    runJobs rest env { w with tree := { w.tree with queue := w.tree.queue.finish failed } }

def updateQueue (change : Queue → Queue) : Action σ Unit := fun _ w =>
  (.ok (), { w with tree := { w.tree with queue := change w.tree.queue } })

def flush : Action σ Unit := do
  updateQueue fun q => (q.hasten 0).takeDue 0
  runJobs (← Action.view (·.queue.running))
  updateQueue Queue.retire

/-- Repairs one hierarchy after another up to the first failure. -/
def repairAll : List HierarchyId → Action σ Unit
  | [] => pure ()
  | hierarchy :: rest => do
    discard (reconcile hierarchy .repair)
    repairAll rest

/-- Repairs one hierarchy after another, whether or not others fail. -/
def tryRepairAll : List HierarchyId → Action σ Unit
  | [] => pure ()
  | hierarchy :: rest => fun env w =>
    let (_, w) := reconcile hierarchy .repair env w
    tryRepairAll rest env w

/-- Opens a store; hierarchies that are still marked are repaired first. When that fails the tree
stays closed, and what was repaired stays so. -/
def openStore (store : Store) (options : Options) : Except Error Tree × Store :=
  let w : World Unit := ⟨{ options, store }, ()⟩
  match repairAll store.pending Surroundings.quiet w with
  | (.ok (), w) => (.ok w.tree, w.tree.store)
  | (.error e, w) => (.error e, w.tree.store)

/-- Closes a tree; the hierarchies that wait in its queue are repaired on the way, as far as their
leases are free. -/
def close (tree : Tree) : Store :=
  let (waiting, queue) := tree.queue.takePending
  (tryRepairAll waiting Surroundings.quiet (World.mk { tree with queue } ())).2.tree.store

end Tree
end Inventory
