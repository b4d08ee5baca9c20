import Inventory.CommandLine.Usage
import Inventory.Json
import Inventory.Tree.Reassigning
import Inventory.Tree.Reconciling

/-! The result of a command and its two written forms: lines of text, or a document. -/
namespace Inventory.CommandLine
set_option autoImplicit false

inductive Output where
  | made (hierarchy : Hierarchy) (root : Node)
  | node (node : Node)
  | asset (asset : Asset)
  | attached (outcome : Outcome)
  | detached (outcome : Outcome)
  | moved (moved : Reassignment)
  /-- The cached amount of a node beside the computed one. -/
  | count (node : NodeId) (key : Key) (cached : Int) (computed : Nat)
  | reconciled (report : Report)
  | nodes (nodes : List Node)
  deriving DecidableEq

namespace Output

/-! ## Text -/

def outcomeLines (verb : String) (outcome : Outcome) : List String :=
  [s!"{verb} {outcome.rowsChanged} rows"] ++
  (outcome.rehomed.map fun change => s!"  asset {change.asset} moved to root") ++
  if outcome.deferred then ["  counts deferred to reconciliation"] else []

def findingLine (finding : Finding) : String :=
  match finding.severity with
  | .warning => s!"  [Warning] {finding.message}"
  | .error => s!"  [Error] {finding.message}"

def reportLines (report : Report) : List String :=
  let verdict := if report.clean then "clean" else "drift found"
  [s!"hierarchy {report.hierarchy}: {report.nodesChecked} nodes, {report.assetsChecked} assets, " ++
    verdict] ++
  (report.drift.map fun d => s!"  {d.key.text} cached={d.cached} computed={d.computed}") ++
  (report.orphans.map fun asset => s!"  orphan asset {asset}") ++
  report.findings.map findingLine

/-- A node of a printed tree, indented by its depth. -/
def treeLine (node : Node) : String :=
  String.ofList (List.replicate (2 * (node.key.depth - 1)) ' ') ++
    s!"{node.value} [{node.key.text}] {node.amount}"

def lines : Output → List String
  | made hierarchy root => [s!"hierarchy {hierarchy.id} root {root.key.text} ({root.id})"]
  | node n => [s!"{n.id} {n.key.text} {n.fullValue}"]
  | asset a => [s!"asset {a.id} {a.name}"]
  | attached outcome => outcomeLines "attached" outcome
  | detached outcome => outcomeLines "detached" outcome
  | moved m =>
    [s!"moved {m.moved.length} assets to node {m.target} (removed {m.rowsRemoved} rows, " ++
      s!"added {m.rowsAdded})"]
  | count _ key cached computed => [s!"{key.text} cached={cached} computed={computed}"]
  | reconciled report => reportLines report
  | nodes ns => ns.map treeLine

/-! ## Documents -/

open Json (integer boolean string array object)

def natural (n : Nat) : Json := integer n

def ids (list : List Int) : Json := array (list.map integer)

def nodeDocument (node : Node) : Json := object [
  ("id", integer node.id), ("hierarchy_id", integer node.hierarchy), ("key", string node.key.text),
  ("value", string node.value), ("full_value", string node.fullValue),
  ("assets_amount", integer node.amount)]

def changeDocument (change : Change) : Json :=
  object [("asset_id", integer change.asset), ("node_ids", ids change.nodes)]

def outcomeDocument (outcome : Outcome) : Json := object [
  ("changes", array (outcome.changes.map changeDocument)),
  ("rehomed", array (outcome.rehomed.map changeDocument)),
  ("nodes_updated", natural outcome.nodesUpdated), ("deferred", boolean outcome.deferred)]

def reassignmentDocument (moved : Reassignment) : Json := object [
  ("target", integer moved.target), ("moved", ids moved.moved),
  ("rows_removed", natural moved.rowsRemoved), ("rows_added", natural moved.rowsAdded),
  ("nodes_updated", natural moved.nodesUpdated), ("deferred", boolean moved.deferred)]

def driftDocument (drift : Drift) : Json := object [
  ("key", string drift.key.text), ("cached", integer drift.cached),
  ("computed", integer drift.computed)]

def findingDocument (finding : Finding) : Json :=
  object [("severity", string finding.severity.name), ("message", string finding.message)]

/-- The time that a reconciliation takes is not measured. -/
def reportDocument (report : Report) : Json := object [
  ("hierarchy", integer report.hierarchy), ("mode", string report.mode.name),
  ("clean", boolean report.clean), ("nodes_checked", natural report.nodesChecked),
  ("assets_checked", natural report.assetsChecked),
  ("drift", array (report.drift.map driftDocument)), ("orphans", ids report.orphans),
  ("findings", array (report.findings.map findingDocument)), ("elapsed_ms", integer 0)]

def document : Output → Json
  | made hierarchy root =>
    object [("hierarchy", integer hierarchy.id), ("root", nodeDocument root)]
  | node n => nodeDocument n
  | asset a =>
    object [("id", integer a.id), ("hierarchy_id", integer a.hierarchy), ("name", string a.name)]
  | attached outcome => outcomeDocument outcome
  | detached outcome => outcomeDocument outcome
  | moved m => reassignmentDocument m
  | count id key cached computed => object [
      ("node", integer id), ("key", string key.text), ("cached", integer cached),
      ("computed", natural computed)]
  | reconciled report => reportDocument report
  | nodes ns => array (ns.map nodeDocument)

/-- Commands that write even where there turns out to be nothing to change. -/
def writesAnyway : Output → Bool
  | detached _ | moved _ => true
  | attached outcome => outcome.deferred
  | reconciled report => report.mode == .repair
  | _ => false

/-- What is printed; every line is ended. -/
def render (format : Format) (output : Output) : String :=
  match format with
  | .text => String.join (output.lines.map (· ++ "\n"))
  | .json => output.document.pretty 0 ++ "\n"

end Output
end Inventory.CommandLine
