import Inventory.Toml.Scalar

/-! Quoted text. Basic strings stand between double quotes and know escapes; literal strings stand
between single quotes and do not. Three quotes make either kind span lines, without the line break
that directly follows the opening quotes. -/
namespace Inventory.Toml
set_option autoImplicit false

/-- Tabs and everything that is no control character. -/
def isPlain (c : Char) : Bool := c == '\t' || (0x20 ≤ c.toNat && c.toNat != 0x7f)

/-- The characters that have an escape of one letter. -/
def shortEscape? : Char → Option Char
  | 'b' => some '\x08'
  | 't' => some '\t'
  | 'n' => some '\n'
  | 'f' => some '\x0c'
  | 'r' => some '\r'
  | '"' => some '"'
  | '\\' => some '\\'
  | _ => none

/-- The character with a code point given in hexadecimal digits. -/
def codePoint? (digits : List Char) : Option Char :=
  let n := runValue 16 digits
  if digits.all isHexDigit ∧ n.isValidChar then some (Char.ofNat n) else none

abbrev Read := Option (List Char × List Char)

/-- Puts a character in front of the text that is read. -/
def Read.cons (c : Char) (read : Read) : Read := read.map fun r => (c :: r.1, r.2)

/-! ## One line -/

def basicBody : List Char → Read
  | [] => none
  | '"' :: rest => some ([], rest)
  | '\\' :: 'u' :: a :: b :: c :: d :: rest => do
    Read.cons (← codePoint? [a, b, c, d]) (basicBody rest)
  | '\\' :: 'U' :: a :: b :: c :: d :: e :: f :: g :: h :: rest => do
    Read.cons (← codePoint? [a, b, c, d, e, f, g, h]) (basicBody rest)
  | '\\' :: c :: rest => do Read.cons (← shortEscape? c) (basicBody rest)
  | c :: rest => if isPlain c && c != '\\' then Read.cons c (basicBody rest) else none

def literalBody : List Char → Read
  | [] => none
  | '\'' :: rest => some ([], rest)
  | c :: rest => if isPlain c then Read.cons c (literalBody rest) else none

/-! ## Several lines -/

/-- Whether the reader is behind a backslash that folds lines. -/
inductive Fold where
  | no
  /-- Only blanks have come since the backslash; a line break must follow. -/
  | begun
  | folding
  deriving DecidableEq

/-- The rest of a basic string of several lines. -/
def basicLines (fold : Fold) : List Char → Read
  | [] => none
  | '\r' :: '\n' :: rest =>
    if fold = .no then Read.cons '\n' (basicLines .no rest) else basicLines .folding rest
  | '\n' :: rest =>
    if fold = .no then Read.cons '\n' (basicLines .no rest) else basicLines .folding rest
  | ' ' :: rest => if fold = .no then Read.cons ' ' (basicLines .no rest) else basicLines fold rest
  | '\t' :: rest =>
    if fold = .no then Read.cons '\t' (basicLines .no rest) else basicLines fold rest
  | '"' :: '"' :: '"' :: '"' :: '"' :: rest =>
    if fold = .begun then none else some (['"', '"'], rest)
  | '"' :: '"' :: '"' :: '"' :: rest => if fold = .begun then none else some (['"'], rest)
  | '"' :: '"' :: '"' :: rest => if fold = .begun then none else some ([], rest)
  | '\\' :: 'u' :: a :: b :: c :: d :: rest => do
    guard (fold ≠ .begun)
    Read.cons (← codePoint? [a, b, c, d]) (basicLines .no rest)
  | '\\' :: 'U' :: a :: b :: c :: d :: e :: f :: g :: h :: rest => do
    guard (fold ≠ .begun)
    Read.cons (← codePoint? [a, b, c, d, e, f, g, h]) (basicLines .no rest)
  | '\\' :: '\r' :: '\n' :: rest => if fold = .begun then none else basicLines .folding rest
  | '\\' :: c :: rest =>
    if fold = .begun then none
    else if c = '\n' then basicLines .folding rest
    else if c = ' ' ∨ c = '\t' then basicLines .begun rest
    else do Read.cons (← shortEscape? c) (basicLines .no rest)
  | c :: rest =>
    if isPlain c && c != '\\' && fold != .begun then Read.cons c (basicLines .no rest) else none

/-- The rest of a literal string of several lines. -/
def literalLines : List Char → Read
  | [] => none
  | '\r' :: '\n' :: rest => Read.cons '\n' (literalLines rest)
  | '\'' :: '\'' :: '\'' :: '\'' :: '\'' :: rest => some (['\'', '\''], rest)
  | '\'' :: '\'' :: '\'' :: '\'' :: rest => some (['\''], rest)
  | '\'' :: '\'' :: '\'' :: rest => some ([], rest)
  | c :: rest => if isPlain c || c == '\n' then Read.cons c (literalLines rest) else none

/-- A text without a line break at its start. -/
def skipLineBreak : List Char → List Char
  | '\r' :: '\n' :: rest => rest
  | '\n' :: rest => rest
  | rest => rest

/-! ## Strings -/

/-- A string of one line; keys may be quoted in this way. -/
def lineString? : List Char → Read
  | '"' :: rest => basicBody rest
  | '\'' :: rest => literalBody rest
  | _ => none

def string? : List Char → Read
  | '"' :: '"' :: '"' :: rest => basicLines .no (skipLineBreak rest)
  | '\'' :: '\'' :: '\'' :: rest => literalLines (skipLineBreak rest)
  | rest => lineString? rest

end Inventory.Toml
