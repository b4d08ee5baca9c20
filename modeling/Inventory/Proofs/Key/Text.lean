import Inventory.Key.Range
import Inventory.Proofs.Key.Order
import Inventory.Proofs.Text.Numeral

/-! # The text of a key

A key is determined by its text, and reading the text of a key gives that key or nothing. The text
range that stands for a subtree holds the texts of exactly the keys of that subtree. -/
namespace Inventory.Key
set_option autoImplicit false

/-! ## Fields -/

theorem joined_cons_cons (part next : List Char) (others : List (List Char)) :
    Text.joined ':' (part :: next :: others) = part ++ ':' :: Text.joined ':' (next :: others) := rfl

theorem fields_joined_append {parts : List (List Char)} (hne : parts ≠ [])
    (h : ∀ part ∈ parts, ':' ∉ part) (rest : List Char) :
    Text.fields ':' (Text.joined ':' parts ++ ':' :: rest) = parts ++ Text.fields ':' rest := by
  induction parts with
  | nil => exact absurd rfl hne
  | cons part more ih =>
    cases more with
    | nil => exact Text.fields_append (h part (by simp)) rest
    | cons next others =>
      have hmore : ∀ p ∈ next :: others, ':' ∉ p := fun p hp => h p (List.mem_cons_of_mem _ hp)
      rw [joined_cons_cons, List.append_assoc, List.cons_append, Text.fields_append (h part (by simp)),
        ih (List.cons_ne_nil _ _) hmore, ← List.cons_append]

theorem mem_joined {sep c : Char} {parts : List (List Char)} (h : c ∈ Text.joined sep parts) :
    c = sep ∨ ∃ part ∈ parts, c ∈ part := by
  induction parts with
  | nil => cases h
  | cons part more ih =>
    cases more with
    | nil => exact Or.inr ⟨part, List.mem_cons_self, h⟩
    | cons next others =>
      rcases List.mem_append.1 h with hpart | hrest
      · exact Or.inr ⟨part, List.mem_cons_self, hpart⟩
      · rcases List.mem_cons.1 hrest with rfl | hmore
        · exact Or.inl rfl
        · exact (ih hmore).imp_right fun ⟨other, hother, hin⟩ =>
            ⟨other, List.mem_cons_of_mem _ hother, hin⟩

theorem numerals_ne_nil (key : Key) : key.segments.map Text.numeral ≠ [] := by
  simp [segments]

theorem colon_not_mem_numerals (key : Key) :
    ∀ part ∈ key.segments.map Text.numeral, ':' ∉ part := by
  intro part h
  obtain ⟨n, -, rfl⟩ := List.mem_map.1 h
  exact Text.not_mem_numeral n (by decide)

theorem toList_text (key : Key) : key.text.toList = key.chars := String.toList_ofList

theorem isDigit_or_colon (key : Key) {c : Char} (h : c ∈ key.text.toList) :
    c.isDigit = true ∨ c = ':' := by
  rw [toList_text, chars] at h
  rcases mem_joined h with hcolon | ⟨part, hpart, hin⟩
  · exact Or.inr hcolon
  · obtain ⟨n, -, rfl⟩ := List.mem_map.1 hpart
    exact Or.inl (Text.isDigit_of_mem_numeral hin)

theorem fields_text (key : Key) :
    Text.fields ':' key.text.toList = key.segments.map Text.numeral := by
  rw [toList_text, chars, Text.fields_joined key.numerals_ne_nil key.colon_not_mem_numerals]

/-! ## Reading what is written -/

theorem text_injective : Function.Injective text := by
  intro a b h
  have hf := congrArg (fun t => Text.fields ':' t.toList) h
  simp only [fields_text] at hf
  exact segments_injective (List.map_injective_iff.2 Text.numeral_injective hf)

theorem text_inj {a b : Key} : a.text = b.text ↔ a = b := text_injective.eq_iff

theorem readWord?_numeral_eq_some {m n : Nat} (h : Text.readWord? (Text.numeral m) = some n) : n = m := by
  rw [Text.readWord?, Text.readNumeral?_numeral, Option.filter_eq_some_iff] at h
  exact (Option.some.inj h.1).symm

theorem mapM_readWord?_numeral {ns ms : List Nat}
    (h : (ns.map Text.numeral).mapM Text.readWord? = some ms) : ms = ns := by
  induction ns generalizing ms with
  | nil => simpa using h.symm
  | cons n rest ih =>
    rw [List.map_cons, List.mapM_cons, Option.bind_eq_bind, Option.bind_eq_some_iff] at h
    obtain ⟨m, hm, h⟩ := h
    rw [Option.bind_eq_bind, Option.bind_eq_some_iff] at h
    obtain ⟨tail, htail, h⟩ := h
    obtain rfl : m :: tail = ms := Option.some.inj h
    rw [readWord?_numeral_eq_some hm, ih htail]

/-- Reading the text of a key gives no other key. -/
theorem eq_of_ofText?_text {key read : Key} (h : ofText? key.text = some read) : read = key := by
  rw [ofText?, fields_text, Option.bind_eq_some_iff] at h
  obtain ⟨ns, hns, h⟩ := h
  rw [mapM_readWord?_numeral hns] at h
  exact (Option.some.inj h).symm

theorem readWord?_numeral_isSome {n : Nat} :
    (∃ read, Text.readWord? (Text.numeral n) = some read) ↔ n ≤ Text.maxWord := by
  constructor
  · rintro ⟨read, h⟩
    rw [Text.readWord?, Text.readNumeral?_numeral, Option.filter_eq_some_iff] at h
    rw [Option.some.inj h.1]
    exact of_decide_eq_true h.2
  · exact fun h => ⟨n, Text.readWord?_numeral h⟩

theorem mapM_readWord?_isSome {ns : List Nat} :
    (∃ read, (ns.map Text.numeral).mapM Text.readWord? = some read) ↔ ∀ n ∈ ns, n ≤ Text.maxWord := by
  induction ns with
  | nil => simp
  | cons n rest ih =>
    rw [List.map_cons, List.mapM_cons, List.forall_mem_cons, ← ih, ← readWord?_numeral_isSome]
    constructor
    · rintro ⟨read, h⟩
      rw [Option.bind_eq_bind, Option.bind_eq_some_iff] at h
      obtain ⟨m, hm, h⟩ := h
      rw [Option.bind_eq_bind, Option.bind_eq_some_iff] at h
      obtain ⟨tail, htail, -⟩ := h
      exact ⟨⟨m, hm⟩, ⟨tail, htail⟩⟩
    · rintro ⟨⟨m, hm⟩, ⟨tail, htail⟩⟩
      refine ⟨m :: tail, ?_⟩
      rw [hm, htail]
      rfl

/-- The text of a key can be read if all its numbers fit in 64 bits. -/
theorem ofText?_text_isSome {key : Key} :
    (∃ read, ofText? key.text = some read) ↔ key.Bounded := by
  rw [Bounded, ← mapM_readWord?_isSome]
  constructor
  · rintro ⟨read, h⟩
    rw [ofText?, fields_text, Option.bind_eq_some_iff] at h
    obtain ⟨ns, hns, -⟩ := h
    exact ⟨ns, hns⟩
  · rintro ⟨ns, hns⟩
    refine ⟨key, ?_⟩
    rw [ofText?, fields_text, hns, mapM_readWord?_numeral hns]
    rfl

theorem Bounded.child {key : Key} (h : key.Bounded) {n : Nat} (hn : n ≤ Text.maxWord) :
    (key.child n).Bounded := by
  intro segment hsegment
  rw [segments_child, List.mem_append, List.mem_singleton] at hsegment
  rcases hsegment with hin | rfl
  · exact h segment hin
  · exact hn

theorem text_ne_empty (key : Key) : key.text ≠ "" := by
  intro h
  have hf := fields_text key
  rw [h] at hf
  have hn : ([] : List Char) = Text.numeral key.root := by
    simpa [Text.fields, segments] using congrArg List.head? hf
  exact Text.numeral_ne_nil _ hn.symm

theorem parentText_eq_empty {key : Key} : key.parentText = "" ↔ key.parent? = none := by
  cases h : key.parent? with
  | none => simp [parentText, h]
  | some parent => simp [parentText, h, text_ne_empty]

theorem parentText_of_parent? {key parent : Key} (h : key.parent? = some parent) :
    key.parentText = parent.text := by
  simp [parentText, h]

theorem parentText_eq_text {key parent : Key} : key.parentText = parent.text ↔ key.parent? = some parent := by
  cases h : key.parent? with
  | none => simp [parentText, h, (text_ne_empty parent).symm]
  | some p => simp [parentText, h, text_inj]

/-! ## Subtrees as ranges of text -/

/-- The lists from `l` and one character up to `l` and the next are those that begin with `l` and
the first. -/
theorem between_iff_prefix (l : List Char) (text : List Char) :
    (¬text < l ++ [':'] ∧ text < l ++ [';']) ↔ l ++ [':'] <+: text := by
  induction l generalizing text with
  | nil =>
    cases text with
    | nil => simp
    | cons c rest =>
      have hc : (¬c < ':' ∧ c < ';') ↔ ':' = c := by
        constructor
        · rintro ⟨h1, h2⟩
          have h1 : ¬c.val < ':'.val := h1
          have h2 : c.val < ';'.val := h2
          rw [UInt32.lt_iff_toNat_lt] at h1 h2
          have e1 : ':'.val.toNat = 58 := rfl
          have e2 : ';'.val.toNat = 59 := rfl
          exact (Char.ext (UInt32.toNat_inj.1 (by omega))).symm
        · rintro rfl
          decide
      simp only [List.nil_append, List.cons_lt_cons_iff, List.not_lt_nil, and_false, or_false,
        List.cons_prefix_cons, List.nil_prefix, and_true]
      exact hc
  | cons a l ih =>
    cases text with
    | nil => simp
    | cons c rest =>
      simp only [List.cons_append, List.cons_lt_cons_iff, List.cons_prefix_cons, ← ih rest]
      constructor
      · rintro ⟨h1, h2⟩
        rw [not_or, not_and] at h1
        rcases h2 with h2 | ⟨rfl, h2⟩
        · exact absurd h2 h1.1
        · exact ⟨rfl, h1.2 rfl, h2⟩
      · rintro ⟨rfl, h1, h2⟩
        exact ⟨by simp [h1], Or.inr ⟨rfl, h2⟩⟩

theorem rangeContains_iff {key : Key} {text : String} :
    key.rangeContains text = true ↔ key.chars ++ [':'] <+: text.toList := by
  have hstart : key.rangeStart.toList = key.chars ++ [':'] := by
    rw [rangeStart, String.toList_append, toList_text]; rfl
  have hend : key.rangeEnd.toList = key.chars ++ [';'] := by
    rw [rangeEnd, String.toList_append, toList_text]; rfl
  rw [rangeContains, Bool.and_eq_true, decide_eq_true_iff, decide_eq_true_iff, ← between_iff_prefix,
    ← hstart, ← hend]
  exact Iff.rfl

theorem joined_append {parts more : List (List Char)} (hp : parts ≠ []) (hm : more ≠ []) :
    Text.joined ':' (parts ++ more) = Text.joined ':' parts ++ ':' :: Text.joined ':' more := by
  induction parts with
  | nil => exact absurd rfl hp
  | cons part rest ih =>
    cases rest with
    | nil =>
      obtain ⟨next, others, rfl⟩ := List.exists_cons_of_ne_nil hm
      simp [Text.joined]
    | cons next others =>
      rw [List.cons_append, List.cons_append, joined_cons_cons, ← List.cons_append,
        ih (List.cons_ne_nil _ _), joined_cons_cons, List.append_assoc, List.cons_append]

theorem chars_prefix_iff {key above : Key} :
    above.chars ++ [':'] <+: key.chars ↔ key.isDescendantOrSelf above = true ∧ key ≠ above := by
  rw [isDescendantOrSelf_iff]
  constructor
  · rintro ⟨rest, h⟩
    have hf := fields_text key
    rw [toList_text, ← h, List.append_assoc, List.singleton_append, chars,
      fields_joined_append above.numerals_ne_nil above.colon_not_mem_numerals] at hf
    have hp : above.segments.map Text.numeral <+: key.segments.map Text.numeral := ⟨_, hf⟩
    refine ⟨(List.prefix_map_iff_of_injective Text.numeral_injective).1 hp, ?_⟩
    rintro rfl
    exact Text.fields_ne_nil _ _ (List.append_right_eq_self.1 hf)
  · rintro ⟨⟨more, h⟩, hne⟩
    have hm : more ≠ [] := by
      rintro rfl
      exact hne (segments_injective (by rw [← h, List.append_nil]))
    refine ⟨Text.joined ':' (more.map Text.numeral), ?_⟩
    rw [chars, chars, ← h, List.map_append,
      joined_append above.numerals_ne_nil (by simpa using hm), List.append_assoc, List.singleton_append]

/-- The text range of a subtree selects the texts of exactly its keys. -/
theorem subtreeContains_text {key above : Key} :
    above.subtreeContains key.text = true ↔ key.isDescendantOrSelf above = true := by
  rw [subtreeContains, Bool.or_eq_true, beq_iff_eq, text_inj, rangeContains_iff, toList_text,
    chars_prefix_iff]
  constructor
  · rintro (rfl | h)
    · exact descendant_refl _
    · exact h.1
  · intro h
    by_cases hk : key = above
    · exact Or.inl hk
    · exact Or.inr ⟨h, hk⟩

/-- One key lies in the subtree of another exactly where the fields of its text begin with those
of the other's. -/
theorem fields_prefix_iff {key above : Key} :
    Text.fields ':' above.text.toList <+: Text.fields ':' key.text.toList ↔
      key.isDescendantOrSelf above = true := by
  rw [fields_text, fields_text, isDescendantOrSelf_iff,
    List.prefix_map_iff_of_injective Text.numeral_injective]

end Inventory.Key
