import Inventory.Store.Basic
import Inventory.Text.Framed

/-! A store as the text of a file: its rows one after another, each with the name of its table in
front. The empty text is the empty store. -/
namespace Inventory
set_option autoImplicit false

namespace Store

/-- The rows of all tables. -/
def snapshotRows (s : Store) : List (List String) :=
  (s.hierarchies.map fun h => ["hierarchy", toString h.id, h.name]) ++
  (s.nodes.map fun n => ["node", toString n.id, toString n.hierarchy, n.key, n.parentKey, n.value,
    n.fullValue, toString n.amount]) ++
  (s.assets.map fun a => ["asset", toString a.id, toString a.hierarchy, a.name]) ++
  (s.attachments.map fun a => ["attachment", toString a.1, toString a.2]) ++
  s.marked.map fun h => ["marked", toString h]

/-- Puts a row in front of those of its table. -/
def addRow? (row : List String) (s : Store) : Option Store :=
  match row with
  | ["hierarchy", id, name] => do
    return { s with hierarchies := ⟨← id.toInt?, name⟩ :: s.hierarchies }
  | ["node", id, hierarchy, key, parentKey, value, fullValue, amount] => do
    let row : NodeRow :=
      ⟨← id.toInt?, ← hierarchy.toInt?, key, parentKey, value, fullValue, ← amount.toInt?⟩
    return { s with nodes := row :: s.nodes }
  | ["asset", id, hierarchy, name] => do
    return { s with assets := ⟨← id.toInt?, ← hierarchy.toInt?, name⟩ :: s.assets }
  | ["attachment", asset, node] => do
    return { s with attachments := (← asset.toInt?, ← node.toInt?) :: s.attachments }
  | ["marked", id] => do return { s with marked := (← id.toInt?) :: s.marked }
  | _ => none

/-- The text of a file that holds a store. -/
def snapshot (s : Store) : String :=
  String.ofList <| Text.framedAll <|
    s.snapshotRows.map fun row => Text.framedAll (row.map String.toList)

/-- The store that the text of a file holds. -/
def ofSnapshot? (text : String) : Option Store := do
  let rows ← (← Text.unframeAll? text.toList).mapM Text.unframeAll?
  rows.foldrM (fun row s => addRow? (row.map String.ofList) s) {}

end Store
end Inventory
