/-! The two ways in which attachments change. -/
namespace Inventory
set_option autoImplicit false

/-- An asset is attached to a node or detached from it. -/
inductive Edit where
  | add | remove
  deriving DecidableEq

namespace Edit

/-- What one asset adds to the amounts of the nodes that begin or cease to see it. -/
def sign : Edit → Int
  | add => 1
  | remove => -1

def name : Edit → String
  | add => "add"
  | remove => "remove"

def ofName? : String → Option Edit
  | "add" => some .add
  | "remove" => some .remove
  | _ => none

end Edit
end Inventory
