import Inventory.Store.Basic

/-! The queue of reconciliations that have been asked for. A request for a hierarchy that is
already pending is merged into it. A worker is started when there is something to do; it takes all
requests that are due, runs them in ascending order, and leaves when nothing is pending. -/
namespace Inventory
set_option autoImplicit false

structure QueueStats where
  requested : Nat := 0
  /-- Requests merged into a pending one. -/
  coalesced : Nat := 0
  runs : Nat := 0
  failures : Nat := 0
  deriving DecidableEq

/-- A hierarchy that waits for its reconciliation, and the time at which that is due. -/
structure Job where
  hierarchy : HierarchyId
  due : Nat
  deriving DecidableEq

structure Queue where
  waiting : List Job := []
  /-- Hierarchies that the worker has taken and not finished. -/
  running : List HierarchyId := []
  workerActive : Bool := false
  stats : QueueStats := {}
  deriving DecidableEq

namespace Queue

/-- The hierarchies that wait, ascending. -/
def pending (q : Queue) : List HierarchyId := sortIds (q.waiting.map (·.hierarchy))

def isPending (q : Queue) (hierarchy : HierarchyId) : Bool :=
  q.waiting.any (·.hierarchy == hierarchy)

/-- Asks for a reconciliation that is due at a given time, and says whether none was pending. -/
def schedule (q : Queue) (hierarchy : HierarchyId) (due : Nat) : Bool × Queue :=
  let stats := { q.stats with requested := q.stats.requested + 1 }
  if q.isPending hierarchy then
    (false, { q with stats := { stats with coalesced := stats.coalesced + 1 } })
  else
    (true, { q with waiting := q.waiting ++ [⟨hierarchy, due⟩], workerActive := true, stats })

/-- Makes all that waits due now. -/
def hasten (q : Queue) (now : Nat) : Queue :=
  if q.waiting.isEmpty then q
  else { q with waiting := q.waiting.map ({ · with due := now }), workerActive := true }

/-- The worker takes what is due, ascending. -/
def takeDue (q : Queue) (now : Nat) : Queue :=
  { q with
    waiting := q.waiting.filter (now < ·.due)
    running := q.running ++ sortIds ((q.waiting.filter (·.due ≤ now)).map (·.hierarchy)) }

/-- The worker is through with the first of the jobs it has taken. -/
def finish (q : Queue) (failed : Bool) : Queue :=
  { q with
    running := q.running.tail
    stats := { q.stats with
      runs := q.stats.runs + 1
      failures := q.stats.failures + if failed then 1 else 0 } }

/-- The worker leaves when nothing is pending. -/
def retire (q : Queue) : Queue :=
  if q.waiting.isEmpty then { q with workerActive := false } else q

/-- Hands out all that waits without running it. -/
def takePending (q : Queue) : List HierarchyId × Queue := (q.pending, { q with waiting := [] })

end Queue
end Inventory
