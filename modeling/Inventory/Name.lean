import Inventory.Error
import Inventory.Key.Allocation
import Inventory.Text.Blank

/-! Names of hierarchies, nodes and assets. A name is stored without blanks at its ends; it is not
empty then and has no slash. Children that are given no name get a preset one with a number. -/
namespace Inventory.Name
set_option autoImplicit false

/-- The name that is stored for a given text. -/
def validate (text : String) : Except Error String :=
  let name := Text.trim text.toList
  if name.isEmpty then .error .blankName
  else if name.contains '/' then .error (.slashInName (String.ofList name))
  else .ok (String.ofList name)

/-- The names along a path: what is left of its parts between slashes after trimming, empty parts
left out. -/
def parts (path : String) : List String :=
  (((Text.fields '/' path.toList).map Text.trim).filter (!·.isEmpty)).map String.ofList

/-- The number of a sibling that has a preset name: what follows the preset text and a space. A plus
sign before it is allowed. -/
def presetNumber? (preset name : String) : Option Nat :=
  let lead := preset.toList ++ [' ']
  if lead.isPrefixOf name.toList then Text.readUnsigned? (name.toList.drop lead.length) else none

/-- The number after the largest among siblings with preset names. -/
def presetNumber (text : String) (siblings : List String) : Nat :=
  Key.nextNumber (siblings.filterMap (presetNumber? text))

/-- The preset text with the next number. -/
def preset (text : String) (siblings : List String) : String :=
  s!"{text} {presetNumber text siblings}"

end Inventory.Name
