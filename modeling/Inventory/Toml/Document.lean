import Inventory.Toml.Quote

/-! Reading a document: expressions line by line, each a key with its value, the header of a table,
or the header of one more table of an array. Loops are bounded by the length of what they read, and
values by how deep they may nest. -/
namespace Inventory.Toml
set_option autoImplicit false

/-- Reads something from the front of a text, or fails. -/
abbrev Reader (α : Type) := StateT (List Char) Option α

namespace Reader

variable {α : Type}

/-- The next character, which stays where it is. -/
def peek : Reader (Option Char) := fun text => some (text.head?, text)

def char (c : Char) : Reader Unit := fun text => (expect? c text).map ((), ·)

/-- The longest run of characters that satisfy a test. -/
def run (test : Char → Bool) : Reader (List Char) := fun text =>
  some (text.takeWhile test, text.dropWhile test)

/-- Blanks within a line. -/
def blanks : Reader Unit := discard (run fun c => c == ' ' || c == '\t')

/-- Fails unless a condition holds. -/
def check (condition : Bool) : Reader Unit := fun text => if condition then some ((), text) else none

/-- The length of what is left, which bounds how often a loop can go round. -/
def remaining : Reader Nat := fun text => some (text.length, text)

end Reader

open Reader

/-! ## Blanks, comments and line ends -/

def isLineBreak (c : Option Char) : Bool := c == some '\n' || c == some '\r'

def lineBreak : Reader Unit := do
  if (← peek) = some '\r' then char '\r'
  char '\n'

/-- A comment up to the end of its line. -/
def comment : Reader Unit := do
  char '#'
  discard (run isPlain)

/-- What may follow an expression on its line. -/
def lineEnd : Reader Unit := do
  blanks
  if (← peek) = some '#' then comment
  if (← peek).isSome then lineBreak

/-- Blanks, comments and line breaks between the items of an array. -/
def gapLoop : Nat → Reader Unit
  | 0 => blanks
  | bound + 1 => do
    blanks
    let next ← peek
    if next = some '#' then
      comment
      lineBreak
      gapLoop bound
    else if isLineBreak next then
      lineBreak
      gapLoop bound

def gap : Reader Unit := do gapLoop (← remaining)

/-! ## Keys -/

def isKeyChar (c : Char) : Bool := c.isAlphanum || c == '_' || c == '-'

/-- One part of a key, bare or quoted. -/
def keyPart : Reader String := do
  match ← peek with
  | some '"' | some '\'' => String.ofList <$> (lineString? : Reader (List Char))
  | _ =>
    let name ← run isKeyChar
    check !name.isEmpty
    return String.ofList name

def keyLoop : Nat → Reader (List String)
  | 0 => check false *> pure []
  | bound + 1 => do
    blanks
    let part ← keyPart
    blanks
    if (← peek) = some '.' then
      char '.'
      return part :: (← keyLoop bound)
    return [part]

/-- Keys and values nest less deep than this. -/
def maxDepth : Nat := 80

/-- A key of one or more parts between dots. -/
def key : Reader (List String) := do
  let parts ← keyLoop ((← remaining) + 1)
  check (parts.length < maxDepth)
  return parts

/-! ## Values -/

def isScalarChar (c : Char) : Bool :=
  c.isAlphanum || c == '_' || c == '+' || c == '-' || c == '.' || c == ':'

/-- A scalar; a date may be followed by a time after a space. -/
def scalar : Reader Value := do
  let token ← run isScalarChar
  let text : List Char ← get
  match text with
  | ' ' :: c :: _ =>
    if afterDate? token = some [] ∧ c.isDigit then
      char ' '
      let time ← run isScalarChar
      fun text => (scalar? (token ++ ' ' :: time)).map (·, text)
    else fun text => (scalar? token).map (·, text)
  | _ => fun text => (scalar? token).map (·, text)

/-- The items of an array up to its closing bracket. -/
def itemLoop (item : Reader Value) : Nat → Reader (List Value)
  | 0 => check false *> pure []
  | bound + 1 => do
    gap
    if (← peek) = some ']' then
      char ']'
      return []
    let first ← item
    gap
    if (← peek) = some ',' then
      char ','
      return first :: (← itemLoop item bound)
    char ']'
    return [first]

/-- Adds a value at a key of one or more parts. -/
def addAt (path : List String) (value : Value) (entries : Entries) : Option Entries :=
  match path.getLast? with
  | some name => entries.addDotted path.dropLast name value
  | none => none

/-- A key with its value. -/
def pair (value : Reader Value) : Reader (List String × Value) := do
  let path ← key
  char '='
  blanks
  return (path, ← value)

/-- The pairs of an inline table up to its closing brace. -/
def pairLoop (value : Reader Value) (entries : Entries) : Nat → Reader Entries
  | 0 => check false *> pure []
  | bound + 1 => do
    let (path, v) ← pair value
    let entries ← fun text => (addAt path v entries).map (·, text)
    blanks
    if (← peek) = some ',' then
      char ','
      pairLoop value entries bound
    else
      char '\x7d'
      return entries

/-- A value with at most the given number of arrays and inline tables inside one another. -/
def valueWithin : Nat → Reader Value
  | 0 => do
    match ← peek with
    | some '"' | some '\'' => (.string <| String.ofList ·) <$> (string? : Reader (List Char))
    | _ => scalar
  | depth + 1 => do
    match ← peek with
    | some '"' | some '\'' => (.string <| String.ofList ·) <$> (string? : Reader (List Char))
    | some '[' => do
      char '['
      return .array (← itemLoop (valueWithin depth) (← remaining))
    | some '\x7b' => do
      char '\x7b'
      blanks
      if (← peek) = some '\x7d' then
        char '\x7d'
        return .table .inline []
      return .table .inline (← pairLoop (valueWithin depth) [] (← remaining))
    | _ => scalar

def value : Reader Value := valueWithin (maxDepth - 1)

/-! ## Documents -/

/-- A document so far: the table that is open, and all entries. -/
structure Draft where
  current : List String := []
  entries : Entries := []

/-- Opens a table by the last name of a path, within the table of the others. -/
def Draft.openBy (change : String → Entries → Option Entries) (path : List String) (draft : Draft) :
    Option Draft := do
  let name ← path.getLast?
  return { current := path, entries := ← Entries.within path.dropLast (change name) draft.entries }

def header (draft : Draft) : Reader Draft := do
  char '['
  if (← peek) = some '[' then
    char '['
    let path ← key
    char ']'
    char ']'
    lineEnd
    fun text => (draft.openBy Entries.openElement path).map (·, text)
  else
    let path ← key
    char ']'
    lineEnd
    fun text => (draft.openBy Entries.openTable path).map (·, text)

def expression (draft : Draft) : Reader Draft := do
  let next ← peek
  if next = some '#' then
    comment
    lineEnd
    return draft
  else if isLineBreak next then
    lineBreak
    return draft
  else if next = some '[' then header draft
  else
    let (path, v) ← pair value
    lineEnd
    fun text => do
      return ({ draft with entries := ← Entries.within draft.current (addAt path v) draft.entries },
        text)

def documentLoop (draft : Draft) : Nat → Reader Draft
  | 0 => do
    check (← peek).isNone
    return draft
  | bound + 1 => do
    blanks
    if (← peek).isNone then return draft
    documentLoop (← expression draft) bound

/-- The entries of a document. A byte order mark before it is passed over. -/
def parse? (text : String) : Option Entries := do
  let chars := match text.toList with
    | '\ufeff' :: rest => rest
    | chars => chars
  let (draft, rest) ← documentLoop {} chars.length chars
  if rest.isEmpty then return draft.entries else none

end Inventory.Toml
