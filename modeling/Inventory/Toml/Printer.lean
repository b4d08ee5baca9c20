import Inventory.Toml.Quote

/-! Writing strings. The plainest kind of quotes that can hold a text is chosen: basic, literal,
basic in three quotes, literal in three quotes, and only then a basic string with escapes. A tab is
escaped wherever escapes are known. -/
namespace Inventory.Toml
set_option autoImplicit false

/-- The length of the longest run of a character, the current one being of a given length. -/
def longestRun (c : Char) (current : Nat) : List Char → Nat
  | [] => current
  | d :: rest => if d = c then longestRun c (current + 1) rest else max current (longestRun c 0 rest)

/-- Control characters that cannot stand in any string as they are. -/
def needsEscape (c : Char) : Bool := (c.toNat < 0x20 && c != '\t' && c != '\n') || c.toNat == 0x7f

inductive Quotes where
  | basic | literal | basicLines | literalLines
  deriving DecidableEq

namespace Quotes

/-- The plainest quotes for a text. -/
def choose (text : List Char) : Quotes :=
  let controls := text.any needsEscape
  let lines := text.contains '\n'
  let escapes := controls || text.contains '\\'
  if !escapes && longestRun '"' 0 text == 0 && !lines then basic
  else if !controls && longestRun '\'' 0 text == 0 && !lines then literal
  else if !escapes && longestRun '"' 0 text ≤ 2 then basicLines
  else if !controls && longestRun '\'' 0 text ≤ 2 then literalLines
  else if lines then basicLines
  else basic

end Quotes

/-- The upper-case hexadecimal digits of a small number, at least four. -/
def hexEscape (n : Nat) : List Char :=
  let digits := (Nat.toDigits 16 n).map Char.toUpper
  List.replicate (4 - digits.length) '0' ++ digits

/-- A character that is no double quote, in a basic string of one or of several lines. -/
def writeChar (lines : Bool) (c : Char) : List Char :=
  if c = '\x08' then ['\\', 'b']
  else if c = '\t' then ['\\', 't']
  else if c = '\n' then (if lines then ['\n'] else ['\\', 'n'])
  else if c = '\x0c' then ['\\', 'f']
  else if c = '\r' then ['\\', 'r']
  else if c = '\\' then ['\\', '\\']
  else if needsEscape c then ['\\', 'u'] ++ hexEscape c.toNat
  else [c]

/-- The inside of a basic string, behind a number of double quotes. Two of them may stand side by
side where the string has several lines. -/
def writeBasic (lines : Bool) (quotes : Nat) : List Char → List Char
  | [] => []
  | c :: rest =>
    if c = '"' then
      if quotes < (if lines then 2 else 0) then '"' :: writeBasic lines (quotes + 1) rest
      else '\\' :: '"' :: writeBasic lines 0 rest
    else writeChar lines c ++ writeBasic lines 0 rest

/-- What follows three opening quotes: a line break of its own where the text has several lines, so
that its first line starts a line, and nothing otherwise. -/
def opening (text : List Char) : List Char := if text.contains '\n' then ['\n'] else []

def writeString (text : List Char) : List Char :=
  match Quotes.choose text with
  | .basic => ['"'] ++ writeBasic false 0 text ++ ['"']
  | .literal => ['\''] ++ text ++ ['\'']
  | .basicLines => ['"', '"', '"'] ++ opening text ++ writeBasic true 0 text ++ ['"', '"', '"']
  | .literalLines => ['\'', '\'', '\''] ++ opening text ++ text ++ ['\'', '\'', '\'']

end Inventory.Toml
