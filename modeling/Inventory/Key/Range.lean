import Inventory.Key.Basic

/-! Subtrees as ranges of text. The character after the colon is the semicolon, and no digit comes
between them, so the texts of the strict descendants of a key are exactly those from the key and a
colon up to the key and a semicolon. -/
namespace Inventory.Key
set_option autoImplicit false

/-- The least text of the strict descendants of a key. -/
def rangeStart (key : Key) : String := key.text ++ ":"

/-- The least text beyond the strict descendants of a key. -/
def rangeEnd (key : Key) : String := key.text ++ ";"

/-- The text lies in the range of the strict descendants of a key. -/
def rangeContains (key : Key) (text : String) : Bool :=
  decide (key.rangeStart ≤ text) && decide (text < key.rangeEnd)

/-- The text is that of the key or lies in the range of its strict descendants. -/
def subtreeContains (key : Key) (text : String) : Bool :=
  text == key.text || key.rangeContains text

end Inventory.Key
