import Inventory.Text.Alphanumeric
import Inventory.Text.Blank
import Inventory.Text.Fields
import Inventory.Text.Numeral
import Inventory.Text.Pattern

/-! Log filters: directives between commas. A directive is a level, or a target such as `app::store`
with the name of a span and its fields behind it, as in `app[request{id=7}]`, and then a level
behind an equals sign. A target or the part in brackets may be missing. -/
namespace Inventory.CommandLine
set_option autoImplicit false

inductive FilterFault where
  /-- A directive has another shape. -/
  | directive
  /-- There is no level behind an equals sign. -/
  | level
  /-- The value of a field is no pattern. -/
  | field (fault : Text.Pattern.Fault)
  /-- A part of a directive would begin or end inside a character. -/
  | torn
  deriving DecidableEq

/-- What is said about a fault. A directive that would be torn ends the program instead. -/
def FilterFault.message : FilterFault → String
  | directive | torn => "invalid filter directive"
  | level =>
    "error parsing level filter: expected one of \"off\", \"error\", \"warn\", \"info\", " ++
      "\"debug\", \"trace\", or a number 0-5"
  | field .malformed => "invalid field filter: error building NFA"
  | field .wordBoundary =>
    "invalid field filter: unsupported regex feature for DFAs: cannot build DFAs for regexes " ++
      "with Unicode word boundaries; switch to ASCII word boundaries, or heuristically enable " ++
      "Unicode word boundaries or use a different regex engine"

namespace LogFilter

/-! ## Places in a directive -/

/-- What follows a number of bytes, unless that is inside a character. -/
def skipBytes? (n : Nat) : List Char → Option (List Char)
  | [] => if n = 0 then some [] else none
  | c :: rest =>
    if n = 0 then some (c :: rest)
    else if c.utf8Size ≤ n then skipBytes? (n - c.utf8Size) rest
    else none

/-- A number of bytes of a text, unless they end inside a character. -/
def takeBytes? (n : Nat) : List Char → Option (List Char)
  | [] => if n = 0 then some [] else none
  | c :: rest =>
    if n = 0 then some []
    else if c.utf8Size ≤ n then (takeBytes? (n - c.utf8Size) rest).map (c :: ·)
    else none

/-- The part of a text between two places, given in bytes. -/
def cut (text : List Char) (start stop : Nat) : Except FilterFault (List Char) :=
  match (skipBytes? start text).bind (takeBytes? (stop - start)) with
  | some part => .ok part
  | none => .error .torn

/-! ## Directives -/

/-- The names of the levels; a number up to five stands for one too. -/
def levels : List String := ["off", "error", "warn", "info", "debug", "trace"]

/-- Whether a text names a level, in letters of either case. Without a text there is no limit. -/
def isLevel (text : List Char) : Bool :=
  text.isEmpty || levels.contains (String.ofList (text.map Char.toLower)) ||
    (Text.readUnsigned? text).any (· ≤ 5)

/-- Whether a text is empty or the exponent of a number. -/
def isExponent : List Char → Bool
  | [] => true
  | e :: text =>
    let digits := if text.head? = some '-' ∨ text.head? = some '+' then text.drop 1 else text
    e.toLower == 'e' && !digits.isEmpty && digits.all Char.isDigit

/-- Whether a text is a number with a plus sign; other numbers are patterns as well. -/
def isPlusNumber : List Char → Bool
  | '+' :: text =>
    let mantissa := text.takeWhile fun c => c.isDigit || c == '.'
    ["inf", "infinity", "nan"].contains (String.ofList (text.map Char.toLower)) ||
      mantissa.any Char.isDigit && mantissa.count '.' ≤ 1 &&
        isExponent (text.drop mantissa.length)
  | _ => false

/-- A field is a name, or a name and a value between its first two equals signs. The value is a
number or a pattern. -/
def checkField (field : List Char) : Except FilterFault Unit :=
  match Text.fields '=' field with
  | _ :: value :: _ =>
    if isPlusNumber value then .ok () else (Text.Pattern.check value).mapError .field
  | _ => .ok ()

/-- Characters that a target may start with. -/
def startsTarget (c : Char) : Bool :=
  c == '-' || c == ':' || c == '_' || Text.isAlphanumeric c

/-- Where a reader is in a directive, with the offset at which a part that is taken began. -/
inductive Place where
  | start
  /-- In a level that stands alone, or in a target. -/
  | target
  | span (start : Nat)
  | field (start : Nat)
  /-- Behind the fields. -/
  | closed
  /-- Behind the span. -/
  | done
  | level (start : Nat)
  deriving DecidableEq

/-- The place behind a character. Offsets are counted without the blanks before the directive, but
parts are taken from the directive with these blanks. -/
def step (directive : List Char) (place : Place) (offset : Nat) (c : Char) :
    Except FilterFault Place :=
  match place with
  | .start =>
    if c = '[' then .ok (.span (offset + 1))
    else if startsTarget c then .ok .target
    else .error .directive
  | .target =>
    if c = '=' then (fun _ => .level (offset + 1)) <$> cut directive 0 offset
    else if c = '[' then (fun _ => .span (offset + 1)) <$> cut directive 0 offset
    else .ok .target
  | .span start =>
    if c = ']' then (fun _ => .done) <$> cut directive start offset
    else if c = '\x7b' then (fun _ => .field (offset + 1)) <$> cut directive start offset
    else .ok (.span start)
  | .field start => do
    if c = '\x7d' then
      let field ← cut directive start offset
      if field.isEmpty then throw .directive
      checkField field
      return .closed
    return .field start
  | .closed => if c = ']' then .ok .done else .error .directive
  | .done =>
    if c = '=' then .ok (.level (offset + 1))
    else if c = '[' then .ok (.span (offset + 1))
    else .error .directive
  | .level start => .ok (.level start)

/-- The place behind the last character. -/
def scan (directive : List Char) (place : Place) (offset : Nat) :
    List Char → Except FilterFault Place
  | [] => .ok place
  | c :: rest => do scan directive (← step directive place offset c) (offset + c.utf8Size) rest

/-- Whether a directive may end in a place. -/
def finish (directive : List Char) : Place → Except FilterFault Unit
  | .target | .done => .ok ()
  | .level start => do
    let size := (directive.map Char.utf8Size).foldr (· + ·) 0
    if isLevel (← cut directive start size) then return ()
    throw .level
  | _ => .error .directive

def checkDirective (directive : List Char) : Except FilterFault Unit := do
  finish directive (← scan directive .start 0 (Text.trim directive))

end LogFilter

/-- Finds the first fault of a log filter. Nothing has to stand between two commas. -/
def checkLogFilter (filter : String) : Except FilterFault Unit :=
  ((Text.fields ',' filter.toList).filter (!·.isEmpty)).forM LogFilter.checkDirective

end Inventory.CommandLine
