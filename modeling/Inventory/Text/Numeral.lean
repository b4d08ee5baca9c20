/-! Decimal numerals. A number is written without leading zeros; reading accepts any number of
them, and nothing but ASCII digits. -/
namespace Inventory.Text
set_option autoImplicit false

/-- The digits of a number, most significant first. -/
def numeral (n : Nat) : List Char := Nat.toDigits 10 n

/-- The number that a run of one or more ASCII digits stands for. -/
def readNumeral? (text : List Char) : Option Nat :=
  if text ≠ [] ∧ text.all Char.isDigit then some (Nat.ofDigitChars 10 text 0) else none

/-- The largest number of 64 bits. -/
def maxWord : Nat := 18446744073709551615

/-- The least number of 64 bits with a sign. -/
def minSigned : Int := -9223372036854775808

/-- The largest number of 64 bits with a sign. -/
def maxSigned : Int := 9223372036854775807

/-- A number, if it fits into 64 bits with a sign. -/
def signed? (n : Int) : Option Int := if minSigned ≤ n ∧ n ≤ maxSigned then some n else none

/-- As `readNumeral?`, for numbers of at most 64 bits. -/
def readWord? (text : List Char) : Option Nat :=
  (readNumeral? text).filter (· ≤ maxWord)

/-- As `readWord?`, with a plus sign allowed before the digits. -/
def readUnsigned? : List Char → Option Nat
  | '+' :: digits => readWord? digits
  | digits => readWord? digits

/-- The value of a hexadecimal digit, in either case. -/
def hexDigit? (c : Char) : Option Nat :=
  if c.isDigit then some (c.toNat - '0'.toNat)
  else if 'a' ≤ c ∧ c ≤ 'f' then some (c.toNat - 'a'.toNat + 10)
  else if 'A' ≤ c ∧ c ≤ 'F' then some (c.toNat - 'A'.toNat + 10)
  else none

def readHex? (text : List Char) : Option Nat :=
  text.foldlM (fun n c => (hexDigit? c).map (16 * n + ·)) 0

theorem numeral_ne_nil (n : Nat) : numeral n ≠ [] := Nat.toDigits_ne_nil

theorem isDigit_of_mem_numeral {n : Nat} {c : Char} (h : c ∈ numeral n) : c.isDigit = true :=
  Nat.isDigit_of_mem_toDigits (by decide) (by decide) h

theorem readNumeral?_numeral (n : Nat) : readNumeral? (numeral n) = some n := by
  have h : (numeral n).all Char.isDigit = true :=
    List.all_eq_true.2 fun _ hc => isDigit_of_mem_numeral hc
  rw [readNumeral?, if_pos ⟨numeral_ne_nil n, h⟩]
  exact congrArg some Nat.ofDigitChars_ten_toDigits

theorem readWord?_numeral {n : Nat} (h : n ≤ maxWord) : readWord? (numeral n) = some n := by
  simp [readWord?, readNumeral?_numeral, h]

end Inventory.Text
