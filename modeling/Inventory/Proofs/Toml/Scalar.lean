import Inventory.Proofs.Text.Numeral
import Inventory.Toml.Scalar
import Mathlib.Data.List.TakeWhile
import Mathlib.Data.Option.Basic

/-! # Numbers that are written and read

The numeral of a number is a scalar of its own: it is no date, because that needs a hyphen or a colon,
and no float, because that needs a point or an exponent. So it is read as an integer, as far as integers
reach, and an integer that is read never lies beyond. -/
namespace Inventory.Toml
set_option autoImplicit false
variable {run : List Char}

/-! ## Dates and times -/

theorem expect?_eq_none {c : Char} {text : List Char} (h : c ∉ text) : expect? c text = none := by
  cases text with
  | nil => rfl
  | cons d rest =>
    rw [List.mem_cons, not_or] at h
    rw [expect?, if_neg h.1]

theorem bounded?_eq_some {count low high n : Nat} {text rest : List Char}
    (h : bounded? count low high text = some (n, rest)) : rest = text.drop count := by
  rw [bounded?, Option.filter_eq_some_iff, fixedDigits?] at h
  split_ifs at h with hrun
  · simpa using (Prod.mk.inj (Option.some.inj h.1)).2.symm
  · simp at h

theorem afterMinutes?_eq_none (h : ':' ∉ run) : afterMinutes? run = none := by
  unfold afterMinutes?
  cases hhours : bounded? 2 0 23 run with
  | none => rfl
  | some hours =>
    obtain ⟨n, rest⟩ := hours
    have hrest : ':' ∉ rest := fun hmem => h (List.mem_of_mem_drop (bounded?_eq_some hhours ▸ hmem))
    simp [expect?_eq_none hrest]

theorem afterTime?_eq_none (h : ':' ∉ run) : afterTime? run = none := by
  simp [afterTime?, afterMinutes?_eq_none h]

theorem afterDate?_eq_none (h : '-' ∉ run) : afterDate? run = none := by
  unfold afterDate? fixedDigits?
  dsimp only
  split_ifs
  · simp [expect?_eq_none fun hmem => h (List.mem_of_mem_drop hmem)]
  · rfl

/-! ## Runs of digits -/

theorem isDatetime_digits (hdigits : ∀ c ∈ run, c.isDigit = true) : isDatetime run = false := by
  have hcolon : ':' ∉ run := Text.not_mem_of_digits hdigits (by decide)
  have hhyphen : '-' ∉ run := Text.not_mem_of_digits hdigits (by decide)
  simp [isDatetime, afterTime?_eq_none hcolon, afterDate?_eq_none hhyphen]

theorem splitSign_digits (hdigits : ∀ c ∈ run, c.isDigit = true) : splitSign run = (1, run) := by
  have hminus : '-' ∉ run := Text.not_mem_of_digits hdigits (by decide)
  have hplus : '+' ∉ run := Text.not_mem_of_digits hdigits (by decide)
  unfold splitSign
  split <;> simp_all

theorem isFloat_digits (hdigits : ∀ c ∈ run, c.isDigit = true) : isFloat run = false := by
  have hwhole : run.takeWhile isRunChar = run := by
    rw [List.takeWhile_eq_self_iff]
    intro c hc
    simp [isRunChar, hdigits c hc]
  have hparts : floatParts? run = none := by
    unfold floatParts?
    dsimp only
    rw [hwhole, List.drop_length]
    cases isDecimal run <;> rfl
  have hletters : run ≠ ['i', 'n', 'f'] ∧ run ≠ ['n', 'a', 'n'] := by
    constructor <;> rintro rfl <;> exact absurd (hdigits 'n' (by simp)) (by decide)
  simp [isFloat, splitSign_digits hdigits, hparts, hletters]

theorem isDigitRun_digits (hne : run ≠ []) (hdigits : ∀ c ∈ run, c.isDigit = true) :
    isDigitRun Char.isDigit run = true := by
  induction run with
  | nil => exact absurd rfl hne
  | cons c rest ih =>
    rw [List.forall_mem_cons] at hdigits
    cases rest with
    | nil => exact hdigits.1
    | cons d more =>
      have hd : d ≠ '_' := Text.ne_of_isDigit (hdigits.2 d List.mem_cons_self) (by decide)
      rw [isDigitRun]
      · simpa [hdigits.1] using ih (List.cons_ne_nil _ _) hdigits.2
      all_goals simp [hd]

theorem runValue_digits (hdigits : ∀ c ∈ run, c.isDigit = true) :
    runValue 10 run = Nat.ofDigitChars 10 run 0 := by
  have hall : run.filter (· ≠ '_') = run := by
    rw [List.filter_eq_self]
    exact fun c hc => decide_eq_true (Text.ne_of_isDigit (hdigits c hc) (by decide))
  rw [runValue, hall]
  apply List.foldl_ext
  intro n c hc
  rw [digitValue, if_pos (hdigits c hc)]
  rfl

theorem integer?_digits (hdigits : ∀ c ∈ run, c.isDigit = true) (hdecimal : isDecimal run = true) :
    integer? run = Text.signed? (runValue 10 run) := by
  unfold integer?
  split
  · exact absurd (hdigits 'x' (by simp)) (by decide)
  · exact absurd (hdigits 'o' (by simp)) (by decide)
  · exact absurd (hdigits 'b' (by simp)) (by decide)
  · rw [splitSign_digits hdigits]
    simp [hdecimal]

/-! ## Numerals -/

theorem isDecimal_numeral (n : Nat) : isDecimal (Text.numeral n) = true := by
  have hrun := isDigitRun_digits (Text.numeral_ne_nil n) fun _ => Text.isDigit_of_mem_numeral
  rw [isDecimal, hrun, Bool.true_and]
  by_cases hzero : (Text.numeral n).head? = some '0'
  · rw [Text.numeral_of_head? hzero]
    rfl
  · simp [hzero]

/-- A number that fits into 64 bits with a sign is read from its numeral. -/
theorem scalar?_numeral {n : Nat} (h : (n : Int) ≤ Text.maxSigned) :
    scalar? (Text.numeral n) = some (.integer n) := by
  have hdigits : ∀ c ∈ Text.numeral n, c.isDigit = true := fun _ => Text.isDigit_of_mem_numeral
  have hwords : Text.numeral n ≠ ['t', 'r', 'u', 'e'] ∧ Text.numeral n ≠ ['f', 'a', 'l', 's', 'e'] := by
    constructor <;> intro heq <;> exact absurd (hdigits 'e' (by simp [heq])) (by decide)
  have hfits : Text.signed? n = some (n : Int) := by
    have hmin : Text.minSigned ≤ 0 := by decide
    rw [Text.signed?, if_pos ⟨by omega, h⟩]
  rw [scalar?, if_neg hwords.1, if_neg hwords.2, isDatetime_digits hdigits, isFloat_digits hdigits,
    integer?_digits hdigits (isDecimal_numeral n), runValue_digits hdigits, Text.numeral,
    Nat.ofDigitChars_ten_toDigits, hfits]
  rfl

end Inventory.Toml
