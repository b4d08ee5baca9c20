import Inventory.Text.Numeral
import Mathlib.Data.List.Basic

/-! # Numerals

A number is told from its numeral, which is made of digits alone and has no zeros in front. -/
namespace Inventory.Text
set_option autoImplicit false

theorem ne_of_isDigit {c d : Char} (h : c.isDigit = true) (hd : d.isDigit = false) : c ≠ d := by
  rintro rfl
  simp [h] at hd

theorem not_mem_of_digits {run : List Char} (hdigits : ∀ c ∈ run, c.isDigit = true) {d : Char}
    (hd : d.isDigit = false) : d ∉ run := fun hmem => ne_of_isDigit (hdigits d hmem) hd rfl

theorem not_mem_numeral (n : Nat) {d : Char} (hd : d.isDigit = false) : d ∉ numeral n :=
  not_mem_of_digits (fun _ => isDigit_of_mem_numeral) hd

theorem numeral_injective : Function.Injective numeral := by
  intro m n h
  have hm := readNumeral?_numeral m
  rw [h, readNumeral?_numeral] at hm
  exact (Option.some.inj hm).symm

/-- A number is written without leading zeros. -/
theorem numeral_of_head? {n : Nat} (h : (numeral n).head? = some '0') : numeral n = ['0'] := by
  induction n using Nat.strongRecOn with
  | ind n ih =>
    rw [numeral, Nat.toDigits_eq_if (by decide)] at h ⊢
    by_cases hn : n < 10
    · rw [if_pos hn] at h ⊢
      rw [List.head?_cons, Option.some.injEq] at h
      rw [h]
    · -- the first digit is that of the tenth part, and this is not zero
      rw [if_neg hn, List.head?_append_of_ne_nil _ Nat.toDigits_ne_nil] at h
      have hzero : numeral (n / 10) = numeral 0 := ih (n / 10) (by omega) h
      have := numeral_injective hzero
      omega

end Inventory.Text
