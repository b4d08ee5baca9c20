import Inventory.Error

/-! Leases on hierarchies. Changes of a tree's structure hold the lease of their hierarchy, and no
hierarchy has two leases at a time. -/
namespace Inventory
set_option autoImplicit false

/-- The hierarchies whose lease somebody holds, ascending. -/
structure Leases where
  held : List HierarchyId := []
  deriving DecidableEq

namespace Leases

def isHeld (leases : Leases) (hierarchy : HierarchyId) : Bool := leases.held.contains hierarchy

/-- Adds an id to an ascending list. -/
def insertId (id : HierarchyId) : List HierarchyId → List HierarchyId
  | [] => [id]
  | first :: rest => if id ≤ first then id :: first :: rest else first :: insertId id rest

def grant (leases : Leases) (hierarchy : HierarchyId) : Leases :=
  ⟨insertId hierarchy leases.held⟩

/-- Takes a free lease. With a bound on the wait for a lease that is held, the wait ends in a
timeout; without one it never ends. -/
def acquire (leases : Leases) (hierarchy : HierarchyId) (timeout : Option Nat) :
    Except Error Leases :=
  if leases.isHeld hierarchy then
    .error (if timeout.isSome then .lockTimeout hierarchy else .waitsForever hierarchy)
  else .ok (leases.grant hierarchy)

/-- Takes the lease if it is free right now. -/
def tryAcquire (leases : Leases) (hierarchy : HierarchyId) : Option Leases :=
  if leases.isHeld hierarchy then none else some (leases.grant hierarchy)

def release (leases : Leases) (hierarchy : HierarchyId) : Leases :=
  ⟨leases.held.filter (· != hierarchy)⟩

/-- A request to the leases themselves. -/
inductive Request where
  | acquire (hierarchy : HierarchyId) (timeout : Option Nat)
  | tryAcquire (hierarchy : HierarchyId)
  | release (hierarchy : HierarchyId)
  | isHeld (hierarchy : HierarchyId)
  | snapshot
  deriving DecidableEq

inductive Answer where
  | granted (hierarchy : HierarchyId)
  | flag (value : Bool)
  | held (hierarchies : List HierarchyId)
  deriving DecidableEq

/-- Answers a request; `release` says whether there was a lease to give back. -/
def run (leases : Leases) : Request → Except Error (Answer × Leases)
  | .acquire hierarchy timeout => do
    return (.granted hierarchy, ← leases.acquire hierarchy timeout)
  | .tryAcquire hierarchy =>
    match leases.tryAcquire hierarchy with
    | some leases => .ok (.flag true, leases)
    | none => .ok (.flag false, leases)
  | .release hierarchy => .ok (.flag (leases.isHeld hierarchy), leases.release hierarchy)
  | .isHeld hierarchy => .ok (.flag (leases.isHeld hierarchy), leases)
  | .snapshot => .ok (.held leases.held, leases)

end Leases
end Inventory
