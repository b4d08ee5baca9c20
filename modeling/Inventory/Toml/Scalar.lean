import Inventory.Text.Numeral
import Inventory.Toml.Value

/-! Numbers, booleans, dates and times. A scalar is recognised from the whole run of characters
that it is made of. -/
namespace Inventory.Toml
set_option autoImplicit false

/-! ## Digits -/

def isHexDigit (c : Char) : Bool := c.isDigit || ('a' ≤ c && c ≤ 'f') || ('A' ≤ c && c ≤ 'F')

/-- The value of a digit in bases up to sixteen. -/
def digitValue (c : Char) : Nat :=
  if c.isDigit then c.toNat - 48
  else if 'a' ≤ c then c.toNat - 87
  else c.toNat - 55

/-- One or more digits, with single underscores between them. -/
def isDigitRun (digit : Char → Bool) : List Char → Bool
  | [] => false
  | [c] => digit c
  | c :: '_' :: rest => digit c && isDigitRun digit rest
  | c :: rest => digit c && isDigitRun digit rest

def runValue (base : Nat) (run : List Char) : Nat :=
  (run.filter (· ≠ '_')).foldl (fun n c => base * n + digitValue c) 0

/-- A sign and what follows it. -/
def splitSign : List Char → Int × List Char
  | '-' :: rest => (-1, rest)
  | '+' :: rest => (1, rest)
  | rest => (1, rest)

/-! ## Integers -/

def isDecimal (run : List Char) : Bool :=
  isDigitRun Char.isDigit run && (run.head? != some '0' || run.length == 1)

def integer? (token : List Char) : Option Int :=
  match token with
  | '0' :: 'x' :: run => if isDigitRun isHexDigit run then Text.signed? (runValue 16 run) else none
  | '0' :: 'o' :: run =>
    if isDigitRun (fun c => '0' ≤ c && c ≤ '7') run then Text.signed? (runValue 8 run) else none
  | '0' :: 'b' :: run =>
    if isDigitRun (fun c => c == '0' || c == '1') run then Text.signed? (runValue 2 run) else none
  | _ =>
    let (sign, run) := splitSign token
    if isDecimal run then Text.signed? (sign * runValue 10 run) else none

/-! ## Floats -/

def isRunChar (c : Char) : Bool := c.isDigit || c == '_'

/-- The parts of a float after its sign: digits before and after the point, and the exponent. -/
def floatParts? (token : List Char) : Option (List Char × List Char × Int) := do
  let whole := token.takeWhile isRunChar
  guard (isDecimal whole)
  let rest := token.drop whole.length
  let (places, rest) ← match rest with
    | '.' :: rest =>
      let places := rest.takeWhile isRunChar
      guard (isDigitRun Char.isDigit places)
      pure (places, rest.drop places.length)
    | _ => pure ([], rest)
  match rest with
  | [] => do
    guard (!places.isEmpty)
    return (whole, places, 0)
  | e :: rest => do
    guard (e = 'e' ∨ e = 'E')
    let (sign, run) := splitSign rest
    guard (isDigitRun Char.isDigit run)
    return (whole, places, sign * runValue 10 run)

/-- The least number that rounds to infinity as a binary number of 64 bits. -/
def firstInfinite : Nat := Nat.pow 2 1024 - Nat.pow 2 970

/-- The decimal number rounds to infinity as a binary number of 64 bits. -/
def overflows (whole places : List Char) (exponent : Int) : Bool :=
  let digits := (whole ++ places).filter (· ≠ '_')
  let mantissa := runValue 10 digits
  let scale := exponent - (places.filter (· ≠ '_')).length
  if mantissa = 0 then false
  else
    let size := (Text.numeral mantissa).length + scale
    if size > 310 then true
    else if size < 300 then false
    else if scale < 0 then firstInfinite * Nat.pow 10 scale.natAbs ≤ mantissa
    else firstInfinite ≤ mantissa * Nat.pow 10 scale.toNat

def isFloat (token : List Char) : Bool :=
  let (sign, rest) := splitSign token
  rest == ['i', 'n', 'f'] || rest == ['n', 'a', 'n'] ||
    match floatParts? rest with
    | none => false
    | some (whole, places, exponent) => sign == -1 || !overflows whole places exponent

/-! ## Dates and times -/

/-- A number of the given count of digits, and the rest. -/
def fixedDigits? (count : Nat) (text : List Char) : Option (Nat × List Char) :=
  let run := text.take count
  if run.length = count ∧ run.all Char.isDigit then some (runValue 10 run, text.drop count) else none

/-- A number of the given count of digits within bounds, and the rest. -/
def bounded? (count low high : Nat) (text : List Char) : Option (Nat × List Char) :=
  (fixedDigits? count text).filter fun r => low ≤ r.1 && r.1 ≤ high

def expect? (c : Char) : List Char → Option (List Char)
  | d :: rest => if c = d then some rest else none
  | [] => none

def isLeapYear (year : Nat) : Bool := year % 4 == 0 && (year % 100 != 0 || year % 400 == 0)

def daysIn (year month : Nat) : Nat :=
  if month = 2 then (if isLeapYear year then 29 else 28)
  else if [4, 6, 9, 11].contains month then 30
  else 31

def afterDate? (text : List Char) : Option (List Char) := do
  let (year, text) ← fixedDigits? 4 text
  let (month, text) ← bounded? 2 1 12 (← expect? '-' text)
  let (_, text) ← bounded? 2 1 (daysIn year month) (← expect? '-' text)
  return text

def afterMinutes? (text : List Char) : Option (List Char) := do
  let (_, text) ← bounded? 2 0 23 text
  let (_, text) ← bounded? 2 0 59 (← expect? ':' text)
  return text

def afterTime? (text : List Char) : Option (List Char) := do
  let (_, text) ← bounded? 2 0 60 (← expect? ':' (← afterMinutes? text))
  match text with
  | '.' :: rest => do
    let fraction := rest.takeWhile Char.isDigit
    guard (!fraction.isEmpty)
    return rest.drop fraction.length
  | _ => return text

/-- The text is nothing or the distance to universal time. -/
def isOffset : List Char → Bool
  | [] | ['Z'] | ['z'] => true
  | '+' :: rest | '-' :: rest => afterMinutes? rest == some []
  | _ => false

/-- A time of day, with or without an offset. -/
def isTimeWithOffset (text : List Char) : Bool :=
  match afterTime? text with
  | some rest => isOffset rest
  | none => false

/-- A date, a time, or both with or without an offset. -/
def isDatetime (token : List Char) : Bool :=
  afterTime? token == some [] ||
    match afterDate? token with
    | some [] => true
    | some (c :: rest) => (c == 'T' || c == 't' || c == ' ') && isTimeWithOffset rest
    | none => false

/-! ## Scalars -/

def scalar? (token : List Char) : Option Value :=
  if token = ['t', 'r', 'u', 'e'] then some (.boolean true)
  else if token = ['f', 'a', 'l', 's', 'e'] then some (.boolean false)
  else if isDatetime token then some (.datetime (String.ofList token))
  else if isFloat token then some (.float (String.ofList token))
  else (integer? token).map .integer

end Inventory.Toml
