import Inventory.Error
import Inventory.Proofs.Key.Text
import Mathlib.Data.List.Forall2
import Mathlib.Data.List.Induction
import Mathlib.Data.Nat.Digits.Defs

/-! # The format of keys

A text is read as a key where it is one or more runs of digits between colons and each run stands,
by the places of its digits, for a number of 64 bits; leading zeros are allowed. Writing a key puts
in none, and whatever way a key has come about, reading its text gives the key back. So keys may be
compared by their texts as well as by their segments. -/
namespace Inventory
set_option autoImplicit false

/-! ## Runs of digits -/

namespace Text

/-- The number that digits stand for by their places. -/
def placeValue (run : List Char) : Nat :=
  Nat.ofDigits 10 (run.reverse.map fun c => c.toNat - '0'.toNat)

/-- The run is a numeral, perhaps with leading zeros, of a number of 64 bits. -/
structure IsWord (run : List Char) (n : Nat) : Prop where
  nonempty : run ≠ []
  digits : ∀ c ∈ run, '0' ≤ c ∧ c ≤ '9'
  value : placeValue run = n
  fits : n ≤ maxWord

theorem ofDigitChars_eq_placeValue (run : List Char) :
    Nat.ofDigitChars 10 run 0 = placeValue run := by
  induction run using List.reverseRecOn with
  | nil => rfl
  | append_singleton run c ih =>
    have hplaces : placeValue (run ++ [c]) = (c.toNat - '0'.toNat) + 10 * placeValue run := by
      simp only [placeValue, List.reverse_append, List.reverse_singleton, List.singleton_append,
        List.map_cons, Nat.ofDigits_cons]
    rw [Nat.ofDigitChars_append, ih, hplaces, Nat.ofDigitChars_cons, Nat.ofDigitChars_nil]
    omega

theorem isDigit_iff {c : Char} : c.isDigit = true ↔ '0' ≤ c ∧ c ≤ '9' := by
  rw [Char.isDigit, Bool.and_eq_true, decide_eq_true_iff, decide_eq_true_iff]
  exact Iff.rfl

theorem readWord?_eq_some_iff {run : List Char} {n : Nat} : readWord? run = some n ↔ IsWord run n := by
  rw [readWord?, Option.filter_eq_some_iff, decide_eq_true_iff, readNumeral?]
  by_cases h : run ≠ [] ∧ run.all Char.isDigit
  · rw [if_pos h, Option.some.injEq, ofDigitChars_eq_placeValue]
    have hdigits : ∀ c ∈ run, '0' ≤ c ∧ c ≤ '9' := fun c hc =>
      isDigit_iff.1 (List.all_eq_true.1 h.2 c hc)
    exact ⟨fun hn => ⟨h.1, hdigits, hn.1, hn.2⟩, fun hn => ⟨hn.value, hn.fits⟩⟩
  · rw [if_neg h]
    constructor
    · rintro ⟨hn, -⟩
      cases hn
    · intro hn
      have hdigits : run.all Char.isDigit = true :=
        List.all_eq_true.2 fun c hc => isDigit_iff.2 (hn.digits c hc)
      exact absurd ⟨hn.nonempty, hdigits⟩ h

theorem colon_not_mem_of_words {runs : List (List Char)} {numbers : List Nat}
    (h : List.Forall₂ IsWord runs numbers) : ∀ run ∈ runs, ':' ∉ run := by
  induction h with
  | nil => simp
  | cons hword _ ih =>
    rw [List.forall_mem_cons]
    exact ⟨fun hin => absurd (hword.digits ':' hin) (by decide), ih⟩

theorem mapM_readWord?_eq_some_iff {runs : List (List Char)} {numbers : List Nat} :
    runs.mapM readWord? = some numbers ↔ List.Forall₂ IsWord runs numbers := by
  induction runs generalizing numbers with
  | nil => cases numbers <;> simp
  | cons run rest ih =>
    rw [List.mapM_cons, Option.bind_eq_bind, Option.bind_eq_some_iff]
    constructor
    · rintro ⟨n, hn, h⟩
      rw [Option.bind_eq_bind, Option.bind_eq_some_iff] at h
      obtain ⟨more, hmore, h⟩ := h
      cases h
      exact .cons (readWord?_eq_some_iff.1 hn) (ih.1 hmore)
    · rintro (_ | ⟨hn, hmore⟩)
      rw [← ih] at hmore
      exact ⟨_, readWord?_eq_some_iff.2 hn, by rw [hmore]; rfl⟩

end Text

namespace Key

/-! ## Reading -/

/-- The text is one or more numerals between colons, of these numbers in order. -/
def Spells (text : String) (numbers : List Nat) : Prop :=
  ∃ runs : List (List Char), runs ≠ [] ∧ text.toList = Text.joined ':' runs ∧
    List.Forall₂ Text.IsWord runs numbers

theorem ofSegments?_eq_some_iff {numbers : List Nat} {key : Key} :
    ofSegments? numbers = some key ↔ key.segments = numbers := by
  cases numbers with
  | nil => simp [ofSegments?, segments]
  | cons n rest =>
    rw [ofSegments?, Option.some.injEq]
    constructor
    · rintro rfl
      rfl
    · intro h
      exact segments_injective h.symm

theorem ofText?_eq_some_iff {text : String} {key : Key} :
    ofText? text = some key ↔ Spells text key.segments := by
  rw [ofText?, Option.bind_eq_some_iff]
  constructor
  · rintro ⟨numbers, hnumbers, hkey⟩
    rw [ofSegments?_eq_some_iff] at hkey
    refine ⟨Text.fields ':' text.toList, Text.fields_ne_nil _ _, (Text.joined_fields _ _).symm, ?_⟩
    rw [hkey]
    exact Text.mapM_readWord?_eq_some_iff.1 hnumbers
  · rintro ⟨runs, hne, htext, hruns⟩
    refine ⟨key.segments, ?_, ofSegments?_eq_some_iff.2 rfl⟩
    rw [htext, Text.fields_joined hne (Text.colon_not_mem_of_words hruns)]
    exact Text.mapM_readWord?_eq_some_iff.2 hruns

theorem parse_eq_ok_iff {text : String} {key : Key} :
    parse text = .ok key ↔ Spells text key.segments := by
  rw [← ofText?_eq_some_iff, parse]
  cases ofText? text with
  | none => simp
  | some found => simp

theorem parse_eq_error {text : String} (h : ∀ key : Key, ¬Spells text key.segments) :
    parse text = .error (.invalidKey text) := by
  rw [parse]
  cases hread : ofText? text with
  | none => rfl
  | some key => exact absurd (ofText?_eq_some_iff.1 hread) (h key)

/-! ## Keys as they come about -/

/-- Keys are read, made from the number of a root, or derived from other keys; all numbers that are
given have 64 bits. -/
inductive Obtained : Key → Prop
  | parse {text : String} {key : Key} (h : Key.parse text = .ok key) : Obtained key
  | ofRoot {n : Nat} (h : n ≤ Text.maxWord) : Obtained (Key.ofRoot n)
  | child {key : Key} {n : Nat} (h : Obtained key) (hn : n ≤ Text.maxWord) : Obtained (key.child n)
  | parent {key above : Key} (h : Obtained key) (habove : key.parent? = some above) : Obtained above
  | rootKey {key : Key} (h : Obtained key) : Obtained key.rootKey

theorem Spells.bounded {text : String} {key : Key} (h : Spells text key.segments) : key.Bounded := by
  obtain ⟨runs, -, -, hruns⟩ := h
  rw [Bounded]
  generalize key.segments = numbers at hruns
  induction hruns with
  | nil => simp
  | cons hword _ ih =>
    rw [List.forall_mem_cons]
    exact ⟨hword.fits, ih⟩

theorem Obtained.bounded {key : Key} (h : Obtained key) : key.Bounded := by
  induction h with
  | parse h => exact (parse_eq_ok_iff.1 h).bounded
  | ofRoot h =>
    intro segment hsegment
    rw [List.mem_singleton.1 hsegment]
    exact h
  | child _ hn ih => exact ih.child hn
  | parent _ habove ih =>
    obtain ⟨last, rfl⟩ := eq_child_of_parent? habove
    intro segment hsegment
    refine ih segment ?_
    rw [segments_child]
    exact List.mem_append_left _ hsegment
  | rootKey _ ih =>
    intro segment hsegment
    rw [List.mem_singleton.1 hsegment]
    exact ih _ List.mem_cons_self

/-! ## Writing -/

theorem parse_text {key : Key} (h : key.Bounded) : parse key.text = .ok key := by
  obtain ⟨read, hread⟩ := ofText?_text_isSome.2 h
  rw [parse, hread, eq_of_ofText?_text hread]

/-- A run of digits begins with a zero only if it is the zero. -/
def Unpadded (text : String) : Prop :=
  ∀ run ∈ Text.fields ':' text.toList, run.head? = some '0' → run = ['0']

theorem unpadded_text (key : Key) : Unpadded key.text := by
  intro run hrun hzero
  rw [fields_text] at hrun
  obtain ⟨n, -, rfl⟩ := List.mem_map.1 hrun
  exact Text.numeral_of_head? hzero

/-- Reading and writing of keys are inverse to each other: a text is read just where it spells a key,
and is named in the error otherwise; any key that can come about is read back from its text, which
has no superfluous zeros, and is told by its text from other keys. -/
theorem parse_exact :
    (∀ (text : String) (key : Key), parse text = .ok key ↔ Spells text key.segments) ∧
    (∀ text : String, (∀ key : Key, ¬Spells text key.segments) →
      parse text = .error (.invalidKey text)) ∧
    (∀ key : Key, Obtained key → parse key.text = .ok key ∧ Unpadded key.text) ∧
    ∀ key other : Key, key.segments = other.segments ↔ key.text = other.text := by
  refine ⟨fun text key => parse_eq_ok_iff, fun text h => parse_eq_error h, ?_, ?_⟩
  · exact fun key h => ⟨parse_text h.bounded, unpadded_text key⟩
  · intro key other
    rw [text_inj, segments_injective.eq_iff]

/-- Zeros in front are read and not written, so that a text with and one without them are one key; a
number that is one too large is refused. -/
theorem parse_exact_zeros :
    Spells "007:0" [7, 0] ∧ parse ((ofRoot 7).child 0).text = .ok ⟨7, [0]⟩ ∧ Unpadded "7:0" ∧
      (⟨7, [0]⟩ : Key).text = ((ofRoot 7).child 0).text ∧
      parse "7:18446744073709551616" = .error (.invalidKey "7:18446744073709551616") := by
  obtain ⟨hparse, herror, hback, hsame⟩ := parse_exact
  have hread : parse "007:0" = .ok ⟨7, [0]⟩ := by decide +kernel
  have hmade : Obtained ((ofRoot 7).child 0) := .child (.ofRoot (by decide)) (by decide)
  have hlarge : ∀ key : Key, ¬Spells "7:18446744073709551616" key.segments := by
    intro key hspells
    have hfails : (parse "7:18446744073709551616").toOption = none := by decide +kernel
    rw [(hparse _ key).2 hspells] at hfails
    cases hfails
  have htext : (⟨7, [0]⟩ : Key).text = "7:0" := by decide +kernel
  obtain ⟨-, hunpadded⟩ := hback _ (.parse hread)
  exact ⟨(hparse _ _).1 hread, (hback _ hmade).1, htext ▸ hunpadded,
    (hsame _ _).1 rfl, herror _ hlarge⟩

end Key
end Inventory
