import Inventory.Text.Numeral

/-! Words written one after another, each behind its length and a colon, so that they may hold any
characters. Reading gives back what was written. -/
namespace Inventory.Text
set_option autoImplicit false

/-- A word behind its length. -/
def framed (word : List Char) : List Char := numeral word.length ++ ':' :: word

def framedAll (words : List (List Char)) : List Char := words.flatMap framed

/-- The first word of a text, and what follows it. -/
def unframe? (text : List Char) : Option (List Char × List Char) :=
  match text.dropWhile Char.isDigit with
  | ':' :: rest =>
    match readNumeral? (text.takeWhile Char.isDigit) with
    | some n => if n ≤ rest.length then some (rest.take n, rest.drop n) else none
    | none => none
  | _ => none

theorem length_of_unframe? {text word rest : List Char} (h : unframe? text = some (word, rest)) :
    rest.length < text.length := by
  unfold unframe? at h
  split at h
  · rename_i after hdrop
    have hlen : after.length + 1 ≤ text.length := by
      have := (List.dropWhile_suffix (l := text) Char.isDigit).length_le
      rwa [hdrop, List.length_cons] at this
    split at h
    · split at h
      · obtain ⟨-, rfl⟩ := Prod.mk.inj (Option.some.inj h)
        rw [List.length_drop]
        omega
      · simp at h
    · simp at h
  · simp at h

def unframeAll? (text : List Char) : Option (List (List Char)) :=
  if text = [] then some []
  else
    match h : unframe? text with
    | some (word, rest) =>
      have := length_of_unframe? h
      (unframeAll? rest).map (word :: ·)
    | none => none
  termination_by text.length

theorem unframe?_framed (word rest : List Char) :
    unframe? (framed word ++ rest) = some (word, rest) := by
  have hdigits : ∀ c ∈ numeral word.length, c.isDigit = true := fun _ hc =>
    isDigit_of_mem_numeral hc
  have htake : (framed word ++ rest).takeWhile Char.isDigit = numeral word.length := by
    rw [framed, List.append_assoc, List.takeWhile_append_of_pos hdigits]
    simp
  have hdrop : (framed word ++ rest).dropWhile Char.isDigit = ':' :: (word ++ rest) := by
    rw [framed, List.append_assoc, List.dropWhile_append_of_pos hdigits]
    simp
  rw [unframe?, hdrop, htake]
  simp [readNumeral?_numeral]

theorem framed_ne_nil (word : List Char) : framed word ≠ [] := by simp [framed]

theorem unframeAll?_framedAll (words : List (List Char)) :
    unframeAll? (framedAll words) = some words := by
  induction words with
  | nil => simp [framedAll, unframeAll?]
  | cons word more ih =>
    have hcons : framedAll (word :: more) = framed word ++ framedAll more := by simp [framedAll]
    rw [hcons, unframeAll?, if_neg (by simp [framed_ne_nil])]
    split
    · rename_i hread
      rw [unframe?_framed] at hread
      obtain ⟨rfl, rfl⟩ := Prod.mk.inj (Option.some.inj hread)
      rw [ih]
      rfl
    · rename_i hread
      rw [unframe?_framed] at hread
      simp at hread

end Inventory.Text
