import Inventory.Toml.Printer
import Mathlib.Data.Option.Basic
import Mathlib.Tactic.Common

/-! # Strings that are written and read

A string may be written in four kinds of quotes. Whichever is chosen, the reader takes off the text
that was written and stops behind the closing quotes, provided that no further quote follows them.
A character is read back from what stands for it, so the text comes back by induction on it; a run of
quotes inside three quotes is read together with what follows the run. -/
namespace Inventory.Toml
set_option autoImplicit false

theorem Read.cons_some (c : Char) (text rest : List Char) :
    Read.cons c (some (text, rest)) = some (c :: text, rest) := rfl

/-! ## Characters -/

theorem exists_hexEscape {c : Char} (h : needsEscape c = true) :
    ∃ a b d e, hexEscape c.toNat = [a, b, d, e] ∧ codePoint? [a, b, d, e] = some c := by
  have hsmall : c.toNat < 128 := by
    unfold needsEscape at h
    simp at h
    omega
  have hall : ∀ n < 128, (hexEscape n).length = 4 ∧ codePoint? (hexEscape n) = some (Char.ofNat n) := by
    decide +kernel
  obtain ⟨hlength, hread⟩ := hall c.toNat hsmall
  obtain ⟨a, b, d, e, heq⟩ : ∃ a b d e, hexEscape c.toNat = [a, b, d, e] := by
    match hexEscape c.toNat, hlength with
    | [a, b, d, e], _ => exact ⟨a, b, d, e, rfl⟩
  rw [heq, Char.ofNat_toNat] at hread
  exact ⟨a, b, d, e, heq, hread⟩

theorem isPlain_of_not_needsEscape {c : Char} (h : needsEscape c = false) (hn : c ≠ '\n') :
    isPlain c = true := by
  unfold needsEscape at h
  unfold isPlain
  simp at h ⊢
  by_cases ht : c = '\t'
  · exact Or.inl ht
  · right
    constructor
    · by_contra hlt
      exact hn (h.1 (by omega) ht)
    · exact h.2

/-- The ways in which a character stands in a basic string: as itself, as an escape of one letter, as
its code point, or as a line break in a string that may have several lines. -/
inductive Stands (lines : Bool) (c : Char) : List Char → Prop
  | itself : isPlain c = true → c ≠ '\\' → Stands lines c [c]
  | letter {e : Char} : shortEscape? e = some c → Stands lines c ['\\', e]
  | code {a b d e : Char} : codePoint? [a, b, d, e] = some c → Stands lines c ['\\', 'u', a, b, d, e]
  | line : lines = true → c = '\n' → Stands lines c ['\n']

theorem stands_writeChar (lines : Bool) (c : Char) : Stands lines c (writeChar lines c) := by
  unfold writeChar
  split_ifs with hb ht hn hlines hf hr hs hcode
  · exact .letter (hb ▸ rfl)
  · exact .letter (ht ▸ rfl)
  · exact .line hlines hn
  · exact .letter (hn ▸ rfl)
  · exact .letter (hf ▸ rfl)
  · exact .letter (hr ▸ rfl)
  · exact .letter (by rw [hs]; rfl)
  · obtain ⟨a, b, d, e, heq, hread⟩ := exists_hexEscape hcode
    rw [heq]
    exact .code hread
  · exact .itself (isPlain_of_not_needsEscape (by simpa using hcode) hn) hs

theorem ne_of_shortEscape? {e c : Char} (h : shortEscape? e = some c) :
    e ≠ 'u' ∧ e ≠ 'U' ∧ e ≠ '\r' ∧ e ≠ '\n' ∧ e ≠ ' ' ∧ e ≠ '\t' := by
  refine ⟨?_, ?_, ?_, ?_, ?_, ?_⟩ <;> rintro rfl <;> simp [shortEscape?] at h

theorem Stands.exists_head {lines : Bool} {c : Char} {chars : List Char} (h : Stands lines c chars)
    (hq : c ≠ '"') :
    ∃ d more, chars = d :: more ∧ d ≠ '"' ∧ d ≠ '\r' ∧ (c ≠ '\n' → d ≠ '\n') := by
  cases h with
  | itself hplain hb =>
    refine ⟨c, [], rfl, hq, ?_, id⟩
    rintro rfl
    exact absurd hplain (by decide)
  | letter => exact ⟨'\\', _, rfl, by decide, by decide, fun _ => by decide⟩
  | code => exact ⟨'\\', _, rfl, by decide, by decide, fun _ => by decide⟩
  | line _ hn => exact ⟨'\n', [], rfl, by decide, by decide, fun hne => absurd hn hne⟩

/-! ## One line -/

theorem basicBody_plain {c : Char} (h : isPlain c = true) (hq : c ≠ '"') (hb : c ≠ '\\')
    (rest : List Char) : basicBody (c :: rest) = Read.cons c (basicBody rest) := by
  rw [basicBody]
  · simp [h, hb]
  all_goals simp_all

theorem basicBody_stands {c : Char} (hq : c ≠ '"') {chars : List Char} (h : Stands false c chars)
    (rest : List Char) : basicBody (chars ++ rest) = Read.cons c (basicBody rest) := by
  cases h with
  | itself hplain hb => exact basicBody_plain hplain hq hb rest
  | letter hletter =>
    obtain ⟨hu, hU, -⟩ := ne_of_shortEscape? hletter
    simp [basicBody, hu, hU, hletter]
  | code hcode => simp [basicBody, hcode]
  | line hlines => exact absurd hlines Bool.false_ne_true

theorem basicBody_quote (rest : List Char) :
    basicBody ('\\' :: '"' :: rest) = Read.cons '"' (basicBody rest) := by
  simp [basicBody, shortEscape?]

theorem basicBody_writeBasic (text rest : List Char) :
    basicBody (writeBasic false 0 text ++ '"' :: rest) = some (text, rest) := by
  induction text with
  | nil => rfl
  | cons c more ih =>
    by_cases hq : c = '"'
    · subst hq
      simp [writeBasic, basicBody_quote, ih, Read.cons_some]
    · simp only [writeBasic, if_neg hq, List.append_assoc]
      rw [basicBody_stands hq (stands_writeChar false c), ih, Read.cons_some]

theorem literalBody_append {text : List Char} (hplain : ∀ c ∈ text, isPlain c = true)
    (hq : '\'' ∉ text) (rest : List Char) :
    literalBody (text ++ '\'' :: rest) = some (text, rest) := by
  induction text with
  | nil => rfl
  | cons c more ih =>
    simp only [List.mem_cons, not_or, forall_eq_or_imp] at hq hplain
    rw [List.cons_append, literalBody]
    · rw [if_pos hplain.1, ih hplain.2 hq.2, Read.cons_some]
    · exact fun heq => hq.1 heq.symm

/-! ## Several lines -/

theorem basicLines_stands {c : Char} (hq : c ≠ '"') {chars : List Char} (h : Stands true c chars)
    (rest : List Char) : basicLines .no (chars ++ rest) = Read.cons c (basicLines .no rest) := by
  cases h with
  | itself hplain hb =>
    by_cases hs : c = ' '
    · subst hs
      simp [basicLines]
    by_cases ht : c = '\t'
    · subst ht
      simp [basicLines]
    have hr : c ≠ '\r' := by
      rintro rfl
      exact absurd hplain (by decide)
    have hn : c ≠ '\n' := by
      rintro rfl
      exact absurd hplain (by decide)
    simp [basicLines, hq, hb, hr, hplain]
  | letter hletter =>
    obtain ⟨hu, hU, hr, hn, hs, ht⟩ := ne_of_shortEscape? hletter
    simp [basicLines, hu, hU, hr, hn, hs, ht, hletter]
  | code hcode => simp [basicLines, hcode]
  | line hlines hn =>
    subst hn
    simp [basicLines]

theorem basicLines_quote (rest : List Char) :
    basicLines .no ('\\' :: '"' :: rest) = Read.cons '"' (basicLines .no rest) := by
  simp [basicLines, shortEscape?]

/-- A double quote that does not end the string is read as itself. -/
theorem basicLines_run {text : List Char} (h : ∀ rest, text ≠ '"' :: '"' :: rest) :
    basicLines .no ('"' :: text) = Read.cons '"' (basicLines .no text) := by
  rw [basicLines]
  · rfl
  all_goals simp [h]

/-- Up to two double quotes may stand before the closing ones. -/
theorem basicLines_closing {quotes : Nat} (h : quotes ≤ 2) {rest : List Char}
    (hrest : ∀ more, rest ≠ '"' :: more) :
    basicLines .no (List.replicate quotes '"' ++ ['"', '"', '"'] ++ rest) =
      some (List.replicate quotes '"', rest) := by
  obtain rfl | rfl | rfl : quotes = 0 ∨ quotes = 1 ∨ quotes = 2 := by omega
  all_goals simp [basicLines, hrest, List.replicate]

theorem basicLines_replicate {quotes : Nat} (h : quotes ≤ 2) {text : List Char}
    (htext : ∀ more, text ≠ '"' :: more) :
    basicLines .no (List.replicate quotes '"' ++ text) =
      (basicLines .no text).map fun r => (List.replicate quotes '"' ++ r.1, r.2) := by
  obtain rfl | rfl | rfl : quotes = 0 ∨ quotes = 1 ∨ quotes = 2 := by omega
  all_goals simp [List.replicate, basicLines_run, htext, Read.cons, Function.comp_def]

/-- The quotes in front are those that have been written one after the other so far. -/
theorem basicLines_writeBasic (quotes : Nat) (h : quotes ≤ 2) (text : List Char) {rest : List Char}
    (hrest : ∀ more, rest ≠ '"' :: more) :
    basicLines .no (List.replicate quotes '"' ++ (writeBasic true quotes text ++ ('"' :: '"' :: '"' :: rest))) =
      some (List.replicate quotes '"' ++ text, rest) := by
  induction text generalizing quotes with
  | nil => simpa [writeBasic] using basicLines_closing h hrest
  | cons c more ih =>
    by_cases hq : c = '"'
    · subst hq
      by_cases hlast : quotes < 2
      · have hmore := ih (quotes + 1) (by omega)
        simpa [writeBasic, hlast, List.replicate_succ'] using hmore
      · have hmore := ih 0 (by omega)
        rw [List.replicate_zero, List.nil_append] at hmore
        simp only [writeBasic, if_pos, if_neg hlast, List.cons_append]
        rw [basicLines_replicate h (by simp), basicLines_quote, hmore]
        rfl
    · have hmore := ih 0 (by omega)
      rw [List.replicate_zero, List.nil_append] at hmore
      have hstands := stands_writeChar true c
      simp only [writeBasic, if_neg hq, List.append_assoc]
      obtain ⟨d, others, heq, hd, -⟩ := hstands.exists_head hq
      rw [basicLines_replicate h (by simp [heq, hd]), basicLines_stands hq hstands, hmore]
      rfl

/-! ## Several lines without escapes -/

theorem literalLines_plain {c : Char} (h : isPlain c = true ∨ c = '\n') (hq : c ≠ '\'') (rest : List Char) :
    literalLines (c :: rest) = Read.cons c (literalLines rest) := by
  have hr : c ≠ '\r' := by
    rintro rfl
    exact absurd h (by decide)
  rw [literalLines]
  · rw [if_pos (by simpa using h)]
  all_goals simp [hq, hr]

/-- A single quote that does not end the string is read as itself. -/
theorem literalLines_run {text : List Char} (h : ∀ rest, text ≠ '\'' :: '\'' :: rest) :
    literalLines ('\'' :: text) = Read.cons '\'' (literalLines text) := by
  rw [literalLines]
  · rfl
  all_goals simp [h]

theorem literalLines_closing {quotes : Nat} (h : quotes ≤ 2) {rest : List Char}
    (hrest : ∀ more, rest ≠ '\'' :: more) :
    literalLines (List.replicate quotes '\'' ++ ['\'', '\'', '\''] ++ rest) =
      some (List.replicate quotes '\'', rest) := by
  obtain rfl | rfl | rfl : quotes = 0 ∨ quotes = 1 ∨ quotes = 2 := by omega
  all_goals simp [literalLines, hrest, List.replicate]

theorem literalLines_replicate {quotes : Nat} (h : quotes ≤ 2) {text : List Char}
    (htext : ∀ more, text ≠ '\'' :: more) :
    literalLines (List.replicate quotes '\'' ++ text) =
      (literalLines text).map fun r => (List.replicate quotes '\'' ++ r.1, r.2) := by
  obtain rfl | rfl | rfl : quotes = 0 ∨ quotes = 1 ∨ quotes = 2 := by omega
  all_goals simp [List.replicate, literalLines_run, htext, Read.cons, Function.comp_def]

theorem le_longestRun (c : Char) (current : Nat) (text : List Char) :
    current ≤ longestRun c current text := by
  induction text generalizing current with
  | nil => exact Nat.le_refl current
  | cons d rest ih =>
    unfold longestRun
    split_ifs
    · have := ih (current + 1)
      omega
    · exact Nat.le_max_left ..

theorem literalLines_append {quotes : Nat} {text : List Char} (hrun : longestRun '\'' quotes text ≤ 2)
    (hplain : ∀ c ∈ text, isPlain c = true ∨ c = '\n') {rest : List Char}
    (hrest : ∀ more, rest ≠ '\'' :: more) :
    literalLines (List.replicate quotes '\'' ++ (text ++ ('\'' :: '\'' :: '\'' :: rest))) =
      some (List.replicate quotes '\'' ++ text, rest) := by
  have h : quotes ≤ 2 := Nat.le_trans (le_longestRun ..) hrun
  induction text generalizing quotes with
  | nil => simpa using literalLines_closing h hrest
  | cons c more ih =>
    rw [List.forall_mem_cons] at hplain
    by_cases hq : c = '\''
    · subst hq
      rw [longestRun, if_pos rfl] at hrun
      have hmore := ih hrun hplain.2 (Nat.le_trans (le_longestRun ..) hrun)
      simpa [List.replicate_succ'] using hmore
    · rw [longestRun, if_neg hq] at hrun
      have hmore := ih (Nat.le_trans (Nat.le_max_right ..) hrun) hplain.2 (by omega)
      rw [List.replicate_zero, List.nil_append] at hmore
      rw [List.cons_append, literalLines_replicate h (by simp [hq]), literalLines_plain hplain.1 hq, hmore]
      rfl

/-! ## Strings -/

theorem not_mem_of_longestRun {c : Char} {current : Nat} {text : List Char}
    (h : longestRun c current text = 0) : c ∉ text := by
  induction text generalizing current with
  | nil => exact List.not_mem_nil
  | cons d rest ih =>
    unfold longestRun at h
    split_ifs at h with hd
    · have := le_longestRun c (current + 1) rest
      omega
    · have hrest : c ∉ rest := ih (show longestRun c 0 rest = 0 by omega)
      simp [Ne.symm hd, hrest]

theorem skipLineBreak_of_ne {text : List Char} (hr : ∀ more, text ≠ '\r' :: more)
    (hn : ∀ more, text ≠ '\n' :: more) : skipLineBreak text = text := by
  unfold skipLineBreak
  split <;> simp_all

/-- The line break that follows the opening quotes is no part of the text. -/
theorem skipLineBreak_opening {text body : List Char} (hr : ∀ more, body ≠ '\r' :: more)
    (hn : '\n' ∉ text → ∀ more, body ≠ '\n' :: more) : skipLineBreak (opening text ++ body) = body := by
  unfold opening
  by_cases hlines : '\n' ∈ text
  · simp [hlines, skipLineBreak]
  · simpa [hlines] using skipLineBreak_of_ne hr (hn hlines)

theorem choose_literal {text : List Char} (h : Quotes.choose text = .literal) :
    text ≠ [] ∧ (∀ c ∈ text, isPlain c = true) ∧ '\'' ∉ text := by
  unfold Quotes.choose at h
  dsimp only at h
  split_ifs at h with hbasic hliteral
  simp only [Bool.and_eq_true, Bool.not_eq_true', beq_iff_eq, List.any_eq_false,
    Bool.not_eq_true] at hliteral
  obtain ⟨⟨hcontrols, hrun⟩, hlines⟩ := hliteral
  refine ⟨?_, fun c hc => isPlain_of_not_needsEscape (hcontrols c hc) ?_, not_mem_of_longestRun hrun⟩
  · rintro rfl
    exact hbasic (by decide)
  · rintro rfl
    simp_all

theorem choose_literalLines {text : List Char} (h : Quotes.choose text = .literalLines) :
    (∀ c ∈ text, isPlain c = true ∨ c = '\n') ∧ longestRun '\'' 0 text ≤ 2 := by
  unfold Quotes.choose at h
  dsimp only at h
  split_ifs at h with hbasic hliteral hbasicLines hliteralLines
  simp only [Bool.and_eq_true, Bool.not_eq_true', decide_eq_true_iff, List.any_eq_false,
    Bool.not_eq_true] at hliteralLines
  refine ⟨fun c hc => ?_, hliteralLines.2⟩
  by_cases hn : c = '\n'
  · exact Or.inr hn
  · exact Or.inl (isPlain_of_not_needsEscape (hliteralLines.1 c hc) hn)

theorem string?_quote {body : List Char} (h : ∀ more, body ≠ '"' :: '"' :: more) :
    string? ('"' :: body) = basicBody body := by
  rw [string?]
  · rfl
  all_goals simp [h]

theorem string?_apostrophe {body : List Char} (h : ∀ more, body ≠ '\'' :: '\'' :: more) :
    string? ('\'' :: body) = literalBody body := by
  rw [string?]
  · rfl
  all_goals simp [h]

/-- What is written of a text starts with no line break of its own, and with an escape where the text
starts with a double quote, unless two of them may stand side by side. -/
theorem exists_head_writeBasic (lines : Bool) {text : List Char} (hne : text ≠ []) :
    ∃ d more, writeBasic lines 0 text = d :: more ∧ d ≠ '\r' ∧ ('\n' ∉ text → d ≠ '\n') ∧
      (lines = false → d ≠ '"') := by
  obtain ⟨c, rest, rfl⟩ := List.exists_cons_of_ne_nil hne
  by_cases hq : c = '"'
  · subst hq
    cases lines with
    | true => exact ⟨'"', _, rfl, by decide, fun _ => by decide, fun h => nomatch h⟩
    | false => exact ⟨'\\', _, rfl, by decide, fun _ => by decide, fun _ => by decide⟩
  · obtain ⟨d, more, heq, hquote, hr, hn⟩ := (stands_writeChar lines c).exists_head hq
    refine ⟨d, more ++ writeBasic lines 0 rest, ?_, hr, fun hmem => hn ?_, fun _ => hquote⟩
    · rw [writeBasic, if_neg hq, heq, List.cons_append]
    · rintro rfl
      exact hmem List.mem_cons_self

/-- What is written of a text in quotes is read as the text, up to a rest without quotes in front. -/
theorem string?_writeString (text : List Char) {rest : List Char} (hquote : ∀ more, rest ≠ '"' :: more)
    (hapostrophe : ∀ more, rest ≠ '\'' :: more) :
    string? (writeString text ++ rest) = some (text, rest) := by
  unfold writeString
  cases h : Quotes.choose text with
  | basic =>
    simp only [List.append_assoc, List.cons_append, List.nil_append]
    rw [string?_quote, basicBody_writeBasic]
    intro more
    by_cases hne : text = []
    · simp [hne, writeBasic, hquote]
    · obtain ⟨d, others, heq, -, -, hd⟩ := exists_head_writeBasic false hne
      simp [heq, hd rfl]
  | literal =>
    obtain ⟨hne, hplain, hmem⟩ := choose_literal h
    simp only [List.append_assoc, List.cons_append, List.nil_append]
    rw [string?_apostrophe, literalBody_append hplain hmem]
    intro more
    obtain ⟨c, others, rfl⟩ := List.exists_cons_of_ne_nil hne
    have hc : c ≠ '\'' := fun heq => hmem (heq ▸ List.mem_cons_self)
    simp [hc]
  | basicLines =>
    simp only [List.append_assoc, List.cons_append, List.nil_append]
    rw [string?, skipLineBreak_opening]
    · exact basicLines_writeBasic 0 (Nat.zero_le 2) text hquote
    all_goals
      by_cases hne : text = []
      · simp [hne, writeBasic]
      · obtain ⟨d, others, heq, hr, hn, -⟩ := exists_head_writeBasic true hne
        simp +contextual [heq, hr, hn]
  | literalLines =>
    obtain ⟨hplain, hrun⟩ := choose_literalLines h
    simp only [List.append_assoc, List.cons_append, List.nil_append]
    rw [string?, skipLineBreak_opening]
    · exact literalLines_append hrun hplain hapostrophe
    · rintro more heq
      cases text with
      | nil => simp at heq
      | cons c others =>
        obtain rfl : c = '\r' := by simpa using congrArg List.head? heq
        exact absurd (hplain _ List.mem_cons_self) (by decide)
    · rintro hn more heq
      cases text with
      | nil => simp at heq
      | cons c others =>
        obtain rfl : c = '\n' := by simpa using congrArg List.head? heq
        exact hn List.mem_cons_self

end Inventory.Toml
