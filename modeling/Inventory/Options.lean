/-! What an operator may set for a tree. -/
namespace Inventory
set_option autoImplicit false

/-- Times are in milliseconds. -/
structure Options where
  /-- Larger batches leave the amounts for a reconciliation. -/
  batchLimit : Nat := 1000
  /-- How long requests for the reconciliation of one hierarchy are merged. -/
  coalesceWindow : Nat := 5000
  /-- The longest wait for a lease; without it the wait has no end. -/
  lockTimeout : Option Nat := none
  /-- The longest wait for a database that another process writes. -/
  busyTimeout : Nat := 5000
  /-- Children without a name are called this, and a number. -/
  newNodeName : String := "New node"
  deriving DecidableEq

/-- A batch is small enough for its amounts to be adjusted at once. -/
def Options.propagates (options : Options) (batch : Nat) : Bool := batch ≤ options.batchLimit

end Inventory
