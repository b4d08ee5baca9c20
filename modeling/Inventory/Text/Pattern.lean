import Inventory.Text.Alphanumeric
import Inventory.Text.Numeral

/-! Which texts are patterns for matching other texts: characters, classes in brackets, groups in
parentheses, alternatives, and marks behind a part for its repetition. Only whether a text is a
pattern is decided here. Bounded repetition in braces does not occur, since a brace ends the text
that may be a pattern. -/
namespace Inventory.Text.Pattern
set_option autoImplicit false

inductive Fault where
  | malformed
  /-- It asks for the boundary of a word, which is not known when single characters are matched. -/
  | wordBoundary
  deriving DecidableEq

/-! ## Single parts -/

/-- What a part without parts of its own matches. -/
inductive Atom where
  | character (c : Char)
  | set
  | edge
  | wordEdge
  deriving DecidableEq

/-- A character by a fixed number of hexadecimal digits. -/
def byNumber? (digits : Nat) (text : List Char) : Option (Atom × List Char) :=
  match readHex? (text.take digits) with
  | some n =>
    if digits ≤ text.length ∧ n.isValidChar then some (.character (Char.ofNat n), text.drop digits)
    else none
  | none => none

/-- The part that begins with a backslash, behind that backslash. -/
def escaped? : List Char → Option (Atom × List Char)
  | [] => none
  | 'x' :: rest => byNumber? 2 rest
  | 'u' :: rest => byNumber? 4 rest
  | 'U' :: rest => byNumber? 8 rest
  | c :: rest =>
    if c = 'p' ∨ c = 'P' then
      match rest with
      | [] => none
      | general :: rest =>
        if "CLMNPSZ".contains general.toUpper then some (.set, rest) else none
    else if "dswDSW".contains c then some (.set, rest)
    else if c = 'A' ∨ c = 'z' then some (.edge, rest)
    else if "bB<>".contains c then some (.wordEdge, rest)
    else
      match c with
      | 'a' => some (.character '\x07', rest)
      | 't' => some (.character '\t', rest)
      | 'n' => some (.character '\n', rest)
      | 'v' => some (.character '\x0b', rest)
      | 'f' => some (.character '\x0c', rest)
      | 'r' => some (.character '\r', rest)
      | c => if c.toNat < 128 ∧ !c.isAlphanum then some (.character c, rest) else none

/-! ## Classes -/

/-- One character or escaped part of a class. -/
def classAtom? : List Char → Option (Atom × List Char)
  | [] => none
  | '\\' :: rest => escaped? rest
  | c :: rest => some (.character c, rest)

/-- One item of a class: a part, or the range between two characters. -/
def classItem? (text : List Char) : Option (List Char) := do
  let (first, rest) ← classAtom? text
  match rest with
  | '-' :: next :: _ =>
    if next = ']' ∨ next = '-' then
      guard (first ≠ .edge ∧ first ≠ .wordEdge)
      return rest
    else
      match first, ← classAtom? (rest.drop 1) with
      | .character low, (.character high, rest) =>
        guard (low ≤ high)
        return rest
      | _, _ => none
  | rest =>
    guard (first ≠ .edge ∧ first ≠ .wordEdge)
    return rest

/-- Sets of characters that are named inside a class. -/
def setNames : List String :=
  ["alnum", "alpha", "ascii", "blank", "cntrl", "digit", "graph", "lower", "print", "punct", "space",
    "upper", "word", "xdigit"]

/-- The rest behind a named set, behind its opening bracket. -/
def namedSet? : List Char → Option (List Char)
  | ':' :: rest =>
    let rest := if rest.head? = some '^' then rest.drop 1 else rest
    let behind := rest.dropWhile (· ≠ ':')
    if setNames.contains (String.ofList (rest.takeWhile (· ≠ ':'))) ∧ behind.take 2 = [':', ']'] then
      some (behind.drop 2)
    else none
  | _ => none

/-- What follows the start of a class. Dashes, or else a closing bracket, stand for themselves
there. -/
def openClass (text : List Char) : List Char :=
  let inside := if text.head? = some '^' then text.drop 1 else text
  match inside with
  | '-' :: rest => rest.dropWhile (· = '-')
  | ']' :: rest => rest
  | inside => inside

/-- The rest behind a class that is open to some depth. -/
def closeClass? : Nat → Nat → List Char → Option (List Char)
  | 0, _, _ => none
  | _ + 1, _, [] => none
  | fuel + 1, depth, '[' :: rest =>
    match namedSet? rest with
    | some rest => closeClass? fuel depth rest
    | none => closeClass? fuel (depth + 1) (openClass rest)
  | fuel + 1, depth, ']' :: rest =>
    if depth ≤ 1 then some rest else closeClass? fuel (depth - 1) rest
  | fuel + 1, depth, '&' :: '&' :: rest => closeClass? fuel depth rest
  | fuel + 1, depth, '-' :: '-' :: rest => closeClass? fuel depth rest
  | fuel + 1, depth, '~' :: '~' :: rest => closeClass? fuel depth rest
  | fuel + 1, depth, text => (classItem? text).bind (closeClass? fuel depth)

/-! ## Groups -/

/-- Whether a text can name a group. -/
def isGroupName : List Char → Bool
  | [] => false
  | first :: rest =>
    let plain (c : Char) : Bool := c == '_' || isAlphanumeric c
    (plain first && !first.isDigit) &&
      rest.all fun c => plain c || c == '.' || c == '[' || c == ']'

/-- Whether letters may be switched on and, behind a dash, off. Each may come once. -/
def areFlags (flags : List Char) : Bool :=
  flags.all ("imsUuRx-".contains ·) && flags.eraseDups == flags && flags.getLast? != some '-'

/-- What opens with a parenthesis and a question mark, behind both: whether it is a group, and the
rest. Otherwise it switches flags for what follows. -/
def special? (text : List Char) : Option (Bool × List Char) :=
  let named (rest : List Char) : Option (Bool × List Char) :=
    let behind := rest.dropWhile (· ≠ '>')
    if isGroupName (rest.takeWhile (· ≠ '>')) ∧ behind ≠ [] then some (true, behind.drop 1) else none
  match text with
  | '<' :: rest => named rest
  | 'P' :: '<' :: rest => named rest
  | text =>
    let flags := text.takeWhile fun c => c ≠ ':' ∧ c ≠ ')'
    match text.drop flags.length with
    | ':' :: rest => if areFlags flags then some (true, rest) else none
    | ')' :: rest => if areFlags flags ∧ flags ≠ [] then some (false, rest) else none
    | _ => none

/-! ## Whole patterns -/

/-- Reads the rest of a pattern inside a number of groups, behind something that can be repeated or
not, and tells whether a boundary of words is asked for in it. -/
def read? : Nat → Nat → Bool → List Char → Option Bool
  | 0, _, _, _ => none
  | _ + 1, depth, _, [] => if depth = 0 then some false else none
  | fuel + 1, depth, _, '(' :: '?' :: rest =>
    match special? rest with
    | some (group, rest) => read? fuel (if group then depth + 1 else depth) false rest
    | none => none
  | fuel + 1, depth, _, '(' :: rest => read? fuel (depth + 1) false rest
  | fuel + 1, depth, _, ')' :: rest => if depth = 0 then none else read? fuel (depth - 1) true rest
  | fuel + 1, depth, _, '|' :: rest => read? fuel depth false rest
  | fuel + 1, depth, _, '[' :: rest =>
    (closeClass? (rest.length + 1) 1 (openClass rest)).bind (read? fuel depth true)
  | fuel + 1, depth, _, '\\' :: rest =>
    match escaped? rest with
    | some (atom, rest) => (read? fuel depth true rest).map (atom == .wordEdge || ·)
    | none => none
  | fuel + 1, depth, repeatable, c :: rest =>
    if c = '\x7b' then none
    else if c = '*' ∨ c = '+' ∨ c = '?' then
      if repeatable then read? fuel depth true rest else none
    else read? fuel depth true rest

/-- Finds what is wrong with a pattern. -/
def check (text : List Char) : Except Fault Unit :=
  match read? (text.length + 1) 0 false text with
  | none => .error .malformed
  | some true => .error .wordBoundary
  | some false => .ok ()

end Inventory.Text.Pattern
