import Inventory.Key.Basic
import Mathlib.Data.List.Lex
import Mathlib.Tactic.Common

/-! # The order of keys and their ancestry

Keys are ordered by their segments, so that a key comes before everything below it and a subtree is
an unbroken run. The ancestors of a key are the keys that its segments begin with; of two ancestors
of one key, one lies below the other. -/
namespace Inventory.Key
set_option autoImplicit false

/-! ## Segments -/

theorem segments_injective : Function.Injective segments := by
  rintro ⟨r, p⟩ ⟨r', p'⟩ h
  simp only [segments, List.cons.injEq] at h
  rw [h.1, h.2]

/-! ## Ancestry -/

theorem isDescendantOrSelf_iff {key above : Key} :
    key.isDescendantOrSelf above = true ↔ above.segments <+: key.segments := List.isPrefixOf_iff_prefix

theorem descendant_refl (key : Key) : key.isDescendantOrSelf key = true :=
  isDescendantOrSelf_iff.2 (List.prefix_refl _)

theorem descendant_trans {a b c : Key} (hab : a.isDescendantOrSelf b = true)
    (hbc : b.isDescendantOrSelf c = true) : a.isDescendantOrSelf c = true :=
  isDescendantOrSelf_iff.2 ((isDescendantOrSelf_iff.1 hbc).trans (isDescendantOrSelf_iff.1 hab))

theorem descendant_antisymm {a b : Key} (hab : a.isDescendantOrSelf b = true)
    (hba : b.isDescendantOrSelf a = true) : a = b := by
  have h1 := isDescendantOrSelf_iff.1 hab
  have h2 := isDescendantOrSelf_iff.1 hba
  exact segments_injective (h2.eq_of_length (le_antisymm h2.length_le h1.length_le))

/-- Of two keys above one key, one lies below the other. -/
theorem descendant_total {key a b : Key} (ha : key.isDescendantOrSelf a = true)
    (hb : key.isDescendantOrSelf b = true) :
    a.isDescendantOrSelf b = true ∨ b.isDescendantOrSelf a = true := by
  rw [isDescendantOrSelf_iff, isDescendantOrSelf_iff] at *
  exact (List.prefix_or_prefix_of_prefix ha hb).symm

theorem length_segments_lt {key above : Key} (h : key.isDescendantOrSelf above = true)
    (hne : key ≠ above) : above.segments.length < key.segments.length := by
  have hp := isDescendantOrSelf_iff.1 h
  refine lt_of_le_of_ne hp.length_le ?_
  intro hlen
  exact hne (segments_injective (hp.eq_of_length hlen)).symm

theorem isStrictDescendant_iff {key above : Key} :
    key.isStrictDescendant above = true ↔ key.isDescendantOrSelf above = true ∧ key ≠ above := by
  rw [isStrictDescendant, Bool.and_eq_true, decide_eq_true_iff]
  constructor
  · rintro ⟨hlt, h⟩
    refine ⟨h, ?_⟩
    rintro rfl
    exact lt_irrefl _ hlt
  · rintro ⟨h, hne⟩
    exact ⟨length_segments_lt h hne, h⟩

/-! ## Lines of ancestors -/

theorem mem_properPrefixes {α : Type} {p l : List α} :
    p ∈ properPrefixes l ↔ p <+: l ∧ p ≠ l := by
  induction l generalizing p with
  | nil => simp [properPrefixes]
  | cons a rest ih =>
    rw [properPrefixes, List.mem_cons, List.mem_map]
    constructor
    · rintro (rfl | ⟨q, hq, rfl⟩)
      · exact ⟨List.nil_prefix, by simp⟩
      · obtain ⟨hp, hne⟩ := ih.1 hq
        exact ⟨List.cons_prefix_cons.2 ⟨rfl, hp⟩, by simpa using hne⟩
    · rintro ⟨hp, hne⟩
      cases p with
      | nil => exact Or.inl rfl
      | cons b q =>
        obtain ⟨rfl, hq⟩ := List.cons_prefix_cons.1 hp
        exact Or.inr ⟨q, ih.2 ⟨hq, by simpa using hne⟩, rfl⟩

theorem mem_ancestors {key above : Key} :
    above ∈ key.ancestors ↔ key.isDescendantOrSelf above = true ∧ key ≠ above := by
  obtain ⟨r, p⟩ := key
  obtain ⟨r', p'⟩ := above
  rw [isDescendantOrSelf_iff]
  simp only [ancestors, List.mem_map, mem_properPrefixes, segments, List.cons_prefix_cons, mk.injEq,
    ne_eq, not_and]
  constructor
  · rintro ⟨q, ⟨hq, hne⟩, rfl, rfl⟩
    exact ⟨⟨rfl, hq⟩, fun _ h => hne h.symm⟩
  · rintro ⟨⟨rfl, hq⟩, hne⟩
    exact ⟨p', ⟨hq, fun h => hne rfl h.symm⟩, rfl, rfl⟩

theorem mem_lineage_iff {key above : Key} {includeSelf : Bool} {direction : Direction} :
    above ∈ key.lineage includeSelf direction ↔
      key.isDescendantOrSelf above = true ∧ (above = key → includeSelf = true) := by
  have h : above ∈ key.ancestors ++ (if includeSelf then [key] else []) ↔
      key.isDescendantOrSelf above = true ∧ (above = key → includeSelf = true) := by
    rw [List.mem_append, mem_ancestors]
    by_cases hself : above = key
    · subst hself
      simp [descendant_refl]
    · have hnot : above ∉ if includeSelf then [key] else [] := by
        cases includeSelf <;> simp [hself]
      simp [hnot, hself, Ne.symm hself]
  cases direction with
  | upward => rw [lineage, List.mem_reverse]; exact h
  | downward => exact h

theorem mem_lineage {key above : Key} {direction : Direction} :
    above ∈ key.lineage true direction ↔ key.isDescendantOrSelf above = true := by
  rw [mem_lineage_iff]
  exact and_iff_left fun _ => rfl

theorem mem_lineage_false {key above : Key} :
    above ∈ key.lineage false .upward ↔ key.isDescendantOrSelf above = true ∧ key ≠ above := by
  rw [mem_lineage_iff, ne_comm]
  exact and_congr_right fun _ => ⟨fun h heq => Bool.false_ne_true (h heq), fun h heq => absurd heq h⟩

theorem pairwise_properPrefixes {α : Type} (l : List α) :
    (properPrefixes l).Pairwise (fun p q => p <+: q ∧ p ≠ q) := by
  induction l with
  | nil => exact List.Pairwise.nil
  | cons a rest ih =>
    rw [properPrefixes, List.pairwise_cons, List.pairwise_map]
    refine ⟨?_, ih.imp ?_⟩
    · intro p hp
      obtain ⟨q, -, rfl⟩ := List.mem_map.1 hp
      exact ⟨List.nil_prefix, by simp⟩
    · rintro p q ⟨hp, hne⟩
      exact ⟨List.cons_prefix_cons.2 ⟨rfl, hp⟩, by simpa using hne⟩

theorem pairwise_ancestors (key : Key) :
    key.ancestors.Pairwise (fun a b => b.isDescendantOrSelf a = true ∧ b ≠ a) := by
  rw [ancestors, List.pairwise_map]
  refine (pairwise_properPrefixes key.path).imp ?_
  rintro p q ⟨hp, hne⟩
  refine ⟨isDescendantOrSelf_iff.2 (List.cons_prefix_cons.2 ⟨rfl, hp⟩), ?_⟩
  intro h
  exact hne (congrArg path h).symm

/-- Upward from a key, each key lies strictly below all that come after it. -/
theorem pairwise_lineage (key : Key) (includeSelf : Bool) :
    (key.lineage includeSelf .upward).Pairwise (fun a b => a.isDescendantOrSelf b = true ∧ a ≠ b) := by
  rw [lineage, List.pairwise_reverse, List.pairwise_append]
  refine ⟨key.pairwise_ancestors, ?_, ?_⟩
  · cases includeSelf <;> simp
  · intro a ha b hb
    cases includeSelf with
    | false => simp at hb
    | true =>
      obtain rfl : b = key := by simpa using hb
      exact mem_ancestors.1 ha

/-! ## Parents -/

theorem parent?_eq_none {key : Key} : key.parent? = none ↔ key.path = [] := by
  simp [parent?]

theorem parent?_child (key : Key) (segment : Nat) : (key.child segment).parent? = some key := by
  simp [parent?, child]

theorem segments_child (key : Key) (segment : Nat) :
    (key.child segment).segments = key.segments ++ [segment] := by
  simp [child, segments]

theorem lastSegment_child (key : Key) (n : Nat) : (key.child n).lastSegment = n :=
  List.getLastD_concat

theorem child_ne_self (key : Key) (n : Nat) : key.child n ≠ key := by
  intro h
  have hlength := congrArg (List.length ∘ segments) h
  simp [segments_child] at hlength

/-- A key with a parent is a child of it. -/
theorem eq_child_of_parent? {key parent : Key} (h : key.parent? = some parent) :
    ∃ segment, key = parent.child segment := by
  obtain ⟨r, p⟩ := key
  by_cases hp : p = []
  · simp [parent?, hp] at h
  · simp only [parent?, List.isEmpty_iff, hp, if_false, Option.some.injEq] at h
    subst h
    exact ⟨p.getLast hp, by simp [child, List.dropLast_append_getLast hp]⟩

/-- What is at or below a child is the child's own subtree or lies in that of its parent. -/
theorem descendant_iff_of_parent? {key parent above : Key} (h : key.parent? = some parent) :
    key.isDescendantOrSelf above = true ↔ above = key ∨ parent.isDescendantOrSelf above = true := by
  obtain ⟨segment, rfl⟩ := eq_child_of_parent? h
  rw [isDescendantOrSelf_iff, isDescendantOrSelf_iff, segments_child, List.prefix_concat_iff,
    ← segments_child, segments_injective.eq_iff]

/-- On the way from a key to one strictly below it comes a child of the former. -/
theorem exists_child_above {key above : Key} (h : key.isDescendantOrSelf above = true)
    (hne : key ≠ above) : ∃ segment, key.isDescendantOrSelf (above.child segment) = true := by
  obtain ⟨tail, htail⟩ := isDescendantOrSelf_iff.1 h
  cases tail with
  | nil =>
    rw [List.append_nil] at htail
    exact absurd (segments_injective htail).symm hne
  | cons segment rest =>
    refine ⟨segment, isDescendantOrSelf_iff.2 ⟨rest, ?_⟩⟩
    rw [segments_child, List.append_assoc, List.singleton_append, htail]

/-! ## Order -/

theorem precedes_trans {a b c : Key} (hab : a < b) (hbc : b < c) : a < c := List.lt_trans hab hbc

theorem precedes_irrefl (a : Key) : ¬a < a := List.lt_irrefl a.segments

theorem precedes_asymm {a b : Key} (h : a < b) : ¬b < a := fun h' =>
  precedes_irrefl a (precedes_trans h h')

theorem precedes_trichotomy (a b : Key) : a < b ∨ a = b ∨ b < a := by
  rcases lt_trichotomy a.segments b.segments with h | h | h
  · exact Or.inl h
  · exact Or.inr (Or.inl (segments_injective h))
  · exact Or.inr (Or.inr h)

theorem precedesEq_iff {a b : Key} : a ≤ b ↔ a < b ∨ a = b := by
  constructor
  · intro h
    rcases precedes_trichotomy a b with hlt | heq | hgt
    · exact Or.inl hlt
    · exact Or.inr heq
    · exact absurd hgt h
  · rintro (h | rfl)
    · exact precedes_asymm h
    · exact precedes_irrefl a

theorem not_precedesEq {a b : Key} : ¬a ≤ b ↔ b < a := not_not

theorem precedesEq_total (a b : Key) : a ≤ b ∨ b ≤ a := by
  by_cases h : a ≤ b
  · exact Or.inl h
  · exact Or.inr (precedes_asymm (not_precedesEq.1 h))

theorem precedesEq_antisymm {a b : Key} (hab : a ≤ b) (hba : b ≤ a) : a = b :=
  (precedesEq_iff.1 hab).resolve_left hba

theorem precedesEq_trans {a b c : Key} (hab : a ≤ b) (hbc : b ≤ c) : a ≤ c := by
  intro hca
  rcases precedesEq_iff.1 hab with hlt | rfl
  · exact hbc (precedes_trans hca hlt)
  · exact hbc hca

theorem not_lt_of_extends {l₁ l₂ : List Nat} (h : l₁ <+: l₂) : ¬l₂ < l₁ := by
  induction l₁ generalizing l₂ with
  | nil => exact List.not_lt_nil _
  | cons a rest ih =>
    obtain ⟨b, tail, rfl⟩ : ∃ b tail, l₂ = b :: tail := List.exists_cons_of_ne_nil (by rintro rfl; simp at h)
    obtain ⟨rfl, hrest⟩ := List.cons_prefix_cons.1 h
    rw [List.cons_lt_cons_self]
    exact ih hrest

/-- What lies between a list and one of its extensions begins with the list. -/
theorem prefix_of_between {l₁ l₂ l₃ : List Nat} (h₁ : ¬l₂ < l₁) (h₂ : ¬l₃ < l₂) (h : l₁ <+: l₃) :
    l₁ <+: l₂ := by
  induction l₁ generalizing l₂ l₃ with
  | nil => exact List.nil_prefix
  | cons a rest ih =>
    obtain ⟨c, l₃, rfl⟩ : ∃ c tail, l₃ = c :: tail := List.exists_cons_of_ne_nil (by rintro rfl; simp at h)
    obtain ⟨rfl, hrest⟩ := List.cons_prefix_cons.1 h
    cases l₂ with
    | nil => exact absurd (List.nil_lt_cons _ _) h₁
    | cons b l₂ =>
      rw [List.cons_lt_cons_iff, not_or, not_and] at h₁ h₂
      obtain rfl : a = b := by omega
      exact List.cons_prefix_cons.2 ⟨rfl, ih (h₁.2 rfl) (h₂.2 rfl) hrest⟩

theorem lt_of_descendant {key above : Key} (h : key.isDescendantOrSelf above = true)
    (hne : key ≠ above) : above < key := by
  rcases precedes_trichotomy above key with hlt | heq | hlt
  · exact hlt
  · exact absurd heq.symm hne
  · exact absurd hlt (not_lt_of_extends (isDescendantOrSelf_iff.1 h))

theorem lt_of_lt_of_descendant {key above other : Key} (hlt : other < above)
    (h : key.isDescendantOrSelf above = true) : other < key := by
  by_cases hsame : key = above
  · exact hsame ▸ hlt
  · exact precedes_trans hlt (lt_of_descendant h hsame)

/-- The subtree of a key is an unbroken run in the order of keys. -/
theorem descendant_of_between {a b c : Key} (hab : ¬b < a) (hbc : ¬c < b)
    (h : c.isDescendantOrSelf a = true) : b.isDescendantOrSelf a = true :=
  isDescendantOrSelf_iff.2 (prefix_of_between hab hbc (isDescendantOrSelf_iff.1 h))

/-! ## Sorted lists of keys -/

theorem mem_sort {key : Key} {keys : List Key} : key ∈ sort keys ↔ key ∈ keys := List.mem_mergeSort

theorem pairwise_sort (keys : List Key) : (sort keys).Pairwise (fun a b => ¬b < a) := by
  refine (List.pairwise_mergeSort ?_ ?_ keys).imp of_decide_eq_true
  · intro a b c hab hbc
    exact decide_eq_true (precedesEq_trans (of_decide_eq_true hab) (of_decide_eq_true hbc))
  · intro a b
    rw [Bool.or_eq_true, decide_eq_true_iff, decide_eq_true_iff]
    exact precedesEq_total a b

theorem pairwise_lt_sort {keys : List Key} (h : keys.Nodup) : (sort keys).Pairwise (· < ·) := by
  have hdistinct : (sort keys).Pairwise (· ≠ ·) := (List.mergeSort_perm _ _).nodup_iff.2 h
  refine (hdistinct.and (pairwise_sort keys)).imp fun {a b} hab => ?_
  exact (precedesEq_iff.1 hab.2).resolve_right hab.1

theorem sort_eq_of_perm {keys keys' : List Key} (h : keys.Perm keys') : sort keys = sort keys' := by
  apply List.Perm.eq_of_pairwise (fun a b _ _ => precedesEq_antisymm) (pairwise_sort keys)
    (pairwise_sort keys')
  exact (List.mergeSort_perm _ _).trans (h.trans (List.mergeSort_perm _ _).symm)

end Inventory.Key
