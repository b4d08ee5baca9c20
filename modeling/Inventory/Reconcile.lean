import Inventory.Attaching

/-! Reconciliation: every amount of a hierarchy is computed anew from the attachments and compared
with the cached one. Repair writes the computed amounts, attaches assets without a node to the
root, and removes the mark of the hierarchy; a mere check reports the same and writes nothing. -/
namespace Inventory
set_option autoImplicit false

inductive Mode where
  | repair | checkOnly
  deriving DecidableEq

inductive Severity where
  /-- Something was amiss and has been put right. -/
  | warning
  /-- A problem of structure that no repair solves. -/
  | error
  deriving DecidableEq

structure Finding where
  severity : Severity
  message : String
  deriving DecidableEq

/-- A node whose cached amount is not the computed one. -/
structure Drift where
  key : Key
  cached : Int
  computed : Int
  deriving DecidableEq

structure Report where
  hierarchy : HierarchyId
  mode : Mode
  /-- Nothing was amiss. -/
  clean : Bool
  nodesChecked : Nat
  assetsChecked : Nat
  drift : List Drift
  /-- Assets that were attached to no node. -/
  orphans : List AssetId
  findings : List Finding
  deriving DecidableEq

namespace Mode

def name : Mode → String
  | repair => "repair"
  | checkOnly => "check_only"

end Mode

namespace Severity

def name : Severity → String
  | warning => "warning"
  | error => "error"

end Severity

namespace Report

/-- A report lists at most this many findings. -/
def maxFindings : Nat := 32

/-- A hierarchy has one root. -/
def rootFindings : List Node → List Finding
  | [_] => []
  | [] => [⟨.error, "hierarchy has no root node"⟩]
  | roots => [⟨.error, s!"hierarchy has {roots.length} root nodes"⟩]

/-- Every other node has its parent among the nodes. -/
def parentFindings (nodes : List Node) : List Finding :=
  let keys := nodes.map (·.key)
  nodes.filterMap fun node =>
    match node.key.parent? with
    | none => none
    | some parent =>
      if keys.contains parent then none
      else some ⟨.error, s!"node {node.key.text} has no parent {parent.text}"⟩

/-- What is said about assets without a node. -/
def orphanFindings (mode : Mode) (roots : List Node) (orphans : List AssetId) : List Finding :=
  if orphans.isEmpty then []
  else
    match mode, roots with
    | .repair, [root] =>
      [⟨.warning, s!"attached {orphans.length} orphan assets to root {root.key.text}"⟩]
    | _, _ => [⟨.error, s!"{orphans.length} assets have no node"⟩]

end Report

namespace Store

def computedAmount (totals : Totals) (node : Node) : Int := (totals.count? node.key).getD 0

/-- The nodes whose cached amounts differ from the computed ones. -/
def drifted (totals : Totals) (nodes : List Node) : List Node :=
  nodes.filter fun node => node.amount ≠ computedAmount totals node

/-- Compares the cached amounts of a hierarchy with the computed ones, and repairs them if asked. -/
def reconcile (hierarchy : HierarchyId) (mode : Mode) : Transaction Report := do
  let s ← get
  let nodes ← s.nodesOf hierarchy
  let roots := nodes.filter (·.key.isRoot)
  let orphans := s.orphans hierarchy
  if let (.repair, [root]) := (mode, roots) then
    discard (addToNode root orphans false)
  let s ← get
  let totals := aggregate (nodes.map (·.key)) (← s.keyedAssets (s.rowsOf hierarchy)) false
  let wrong := drifted totals nodes
  if mode = .repair then
    set ((wrong.foldl (fun s node => s.setAmount node.id (computedAmount totals node)) s).unmark
      hierarchy)
  let drift := wrong.map fun node => Drift.mk node.key node.amount (computedAmount totals node)
  let findings := (Report.rootFindings roots ++ Report.parentFindings nodes ++
    Report.orphanFindings mode roots orphans).take Report.maxFindings
  return {
    hierarchy, mode, drift, orphans, findings
    clean := drift.isEmpty && orphans.isEmpty && findings.isEmpty
    nodesChecked := nodes.length
    assetsChecked := (s.assetsOf hierarchy).length }

end Store
end Inventory
