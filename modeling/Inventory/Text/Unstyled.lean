/-! Text for readers that are no terminals: without control characters other than blanks, and
without the sequences that move a terminal's cursor, set its colours or its title. A sequence opens
with an escape character, and an unfinished one takes all that follows. -/
namespace Inventory.Text
set_option autoImplicit false

/-- Where a reader is among the sequences for a terminal. -/
inductive Sequence where
  | none
  /-- Behind the escape character. -/
  | opened
  /-- In a short sequence that has yet to see its last character. -/
  | short
  /-- In the parameters of a control sequence. -/
  | control
  /-- In a text for the terminal's window, which a bell ends. -/
  | message
  /-- In a text for a device. -/
  | device
  deriving DecidableEq

/-- The control characters that lay out text. -/
def isLayout (c : Char) : Bool := c == '\t' || c == '\n' || c == '\x0c' || c == '\r'

/-- What a character opens directly behind an escape character. -/
def Sequence.opening (c : Char) : Sequence :=
  if c = '[' then .control
  else if c = ']' then .message
  else if c = 'P' ∨ c = 'X' ∨ c = '^' ∨ c = '_' then .device
  else if 0x30 ≤ c.toNat then .none
  else .short

/-- Where the reader is behind a character, and whether the character is kept. -/
def Sequence.step (sequence : Sequence) (c : Char) : Sequence × Bool :=
  if c = '\x1b' then (.opened, false)
  else if c = '\x18' ∨ c = '\x1a' then (.none, false)
  else
    match sequence with
    | .none => (.none, isLayout c || (0x20 ≤ c.toNat && c.toNat != 0x7f))
    | .message => (if c = '\x07' then .none else .message, false)
    | .device => (.device, false)
    | inside =>
      if isLayout c then (.none, true)
      else if c.toNat < 0x20 || 0x7f ≤ c.toNat then (inside, false)
      else
        match inside with
        | .opened => (.opening c, false)
        | .control => (if 0x40 ≤ c.toNat then .none else .control, false)
        | _ => (if 0x30 ≤ c.toNat then .none else .short, false)

/-- The characters that are kept, behind some place. -/
def unstyledFrom (sequence : Sequence) : List Char → List Char
  | [] => []
  | c :: rest =>
    let (sequence, kept) := sequence.step c
    if kept then c :: unstyledFrom sequence rest else unstyledFrom sequence rest

def unstyled (text : String) : String := String.ofList (unstyledFrom .none text.toList)

end Inventory.Text
