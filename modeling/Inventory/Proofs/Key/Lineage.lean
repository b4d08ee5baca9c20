import Inventory.Proofs.Key.Order
import Mathlib.Data.List.Induction
import Mathlib.Data.List.Nodup

/-! # Lines of ancestors in key order

Going up from a key to its parent, and from there again as long as there is one, passes the keys whose
segments the key begins with, each once and every one shorter and earlier than the one before. Of two
keys the first comes earlier where the second lies below it, or takes the larger number where their
ways part; so the keys between a key and one below it lie all below it. -/
namespace Inventory.Key
set_option autoImplicit false

/-! ## Going up -/

/-- Above a key come its parent, the parent of that, and so on as long as there is one. -/
inductive Climbs : Key → List Key → Prop
  | top {key : Key} (h : key.parent? = none) : Climbs key []
  | up {key parent : Key} {line : List Key} (h : key.parent? = some parent) (hline : Climbs parent line) :
      Climbs key (parent :: line)

theorem properPrefixes_concat {α : Type} (l : List α) (a : α) :
    properPrefixes (l ++ [a]) = properPrefixes l ++ [l] := by
  induction l with
  | nil => rfl
  | cons b rest ih =>
    rw [List.cons_append, properPrefixes, ih, properPrefixes, List.map_append, List.map_singleton,
      List.cons_append]

theorem ancestors_child (key : Key) (n : Nat) : (key.child n).ancestors = key.ancestors ++ [key] := by
  rw [child, ancestors, properPrefixes_concat, List.map_append]
  rfl

theorem lineage_downward (key : Key) (includeSelf : Bool) :
    key.lineage includeSelf .downward = (key.lineage includeSelf .upward).reverse :=
  (List.reverse_reverse _).symm

/-- What comes above a child is its parent and what comes above that. -/
theorem lineage_of_parent? {key parent : Key} (h : key.parent? = some parent) :
    key.lineage false .upward = parent :: parent.lineage false .upward := by
  obtain ⟨n, rfl⟩ := eq_child_of_parent? h
  simp [lineage, ancestors_child]

theorem lineage_of_root {key : Key} (h : key.parent? = none) : key.lineage false .upward = [] := by
  simp [lineage, ancestors, parent?_eq_none.1 h, properPrefixes]

theorem climbs_lineage (key : Key) : Climbs key (key.lineage false .upward) := by
  obtain ⟨root, path⟩ := key
  -- the last number is the one that the first step up takes away
  induction path using List.reverseRecOn with
  | nil =>
    rw [lineage_of_root rfl]
    exact .top rfl
  | append_singleton path n ih =>
    have hparent : (⟨root, path ++ [n]⟩ : Key).parent? = some ⟨root, path⟩ := parent?_child ⟨root, path⟩ n
    rw [lineage_of_parent? hparent]
    exact .up hparent ih

theorem climbs_iff {key : Key} {line : List Key} :
    Climbs key line ↔ line = key.lineage false .upward := by
  constructor
  · intro h
    induction h with
    | top h => exact (lineage_of_root h).symm
    | up h _ ih => rw [lineage_of_parent? h, ih]
  · rintro rfl
    exact climbs_lineage key

/-! ## The order along a line -/

theorem pairwise_lineage_upward (key : Key) (includeSelf : Bool) :
    (key.lineage includeSelf .upward).Pairwise fun a b => b.depth < a.depth ∧ b < a :=
  (key.pairwise_lineage includeSelf).imp fun h =>
    ⟨length_segments_lt h.1 h.2, lt_of_descendant h.1 h.2⟩

theorem pairwise_lineage_downward (key : Key) (includeSelf : Bool) :
    (key.lineage includeSelf .downward).Pairwise fun a b => a.depth < b.depth ∧ a < b := by
  rw [lineage_downward, List.pairwise_reverse]
  exact key.pairwise_lineage_upward includeSelf

theorem nodup_lineage (key : Key) (includeSelf : Bool) (direction : Direction) :
    (key.lineage includeSelf direction).Nodup := by
  have hupward : (key.lineage includeSelf .upward).Nodup :=
    (key.pairwise_lineage includeSelf).imp And.right
  cases direction with
  | upward => exact hupward
  | downward =>
    rw [lineage_downward]
    exact List.nodup_reverse.2 hupward

/-! ## The order of all keys -/

/-- The numbers are the same up to a place where the first list has the smaller one. -/
def Forks (l₁ l₂ : List Nat) : Prop :=
  ∃ trunk m n, m < n ∧ trunk ++ [m] <+: l₁ ∧ trunk ++ [n] <+: l₂

theorem lt_iff_extends_or_forks {l₁ l₂ : List Nat} :
    l₁ < l₂ ↔ (l₁ <+: l₂ ∧ l₁ ≠ l₂) ∨ Forks l₁ l₂ := by
  induction l₁ generalizing l₂ with
  | nil => cases l₂ <;> simp [Forks]
  | cons a rest ih =>
    cases l₂ with
    | nil => simp [Forks]
    | cons b more =>
      rw [List.cons_lt_cons_iff, ih, List.cons_prefix_cons]
      constructor
      · rintro (hlt | ⟨rfl, ⟨hextends, hne⟩ | ⟨trunk, m, n, hmn, hm, hn⟩⟩)
        · exact Or.inr ⟨[], a, b, hlt, by simp, by simp⟩
        · exact Or.inl ⟨⟨rfl, hextends⟩, by simpa using hne⟩
        · exact Or.inr ⟨a :: trunk, m, n, hmn, List.cons_prefix_cons.2 ⟨rfl, hm⟩,
            List.cons_prefix_cons.2 ⟨rfl, hn⟩⟩
      · rintro (⟨⟨rfl, hextends⟩, hne⟩ | ⟨trunk, m, n, hmn, hm, hn⟩)
        · exact Or.inr ⟨rfl, Or.inl ⟨hextends, by simpa using hne⟩⟩
        · -- they part at the first number or after it
          cases trunk with
          | nil =>
            obtain rfl : m = a := (List.cons_prefix_cons.1 hm).1
            obtain rfl : n = b := (List.cons_prefix_cons.1 hn).1
            exact Or.inl hmn
          | cons c trunk =>
            obtain ⟨rfl, hrest⟩ := List.cons_prefix_cons.1 hm
            obtain ⟨rfl, hmore⟩ := List.cons_prefix_cons.1 hn
            exact Or.inr ⟨rfl, Or.inr ⟨trunk, m, n, hmn, hrest, hmore⟩⟩

/-- A key precedes what lies strictly below it and what goes by a larger number where they part. -/
theorem precedes_iff {a b : Key} :
    a < b ↔ b.isStrictDescendant a = true ∨ Forks a.segments b.segments := by
  have hbelow : b.isStrictDescendant a = true ↔ a.segments <+: b.segments ∧ a.segments ≠ b.segments := by
    rw [isStrictDescendant_iff, isDescendantOrSelf_iff, ne_comm, segments_injective.ne_iff]
  rw [hbelow]
  exact lt_iff_extends_or_forks

theorem compare_eq_lt {a b : Key} : compare a b = .lt ↔ a < b := compareOfLessAndEq_eq_lt

theorem compare_eq_eq {a b : Key} : compare a b = .eq ↔ a = b :=
  compareOfLessAndEq_eq_eq precedes_irrefl not_precedesEq

theorem compare_eq_gt {a b : Key} : compare a b = .gt ↔ b < a :=
  compareOfLessAndEq_eq_gt precedesEq_antisymm precedesEq_total not_precedesEq a b

/-- The line of ancestors of a key, with or without the key itself, holds each key in whose subtree it
lies just once, on the way up in descending order and ever less deep, on the way down the other way
round; it is what repeated steps to the parent pass. Of two keys that differ just one comes first, which
comparing them tells: the one that has the other strictly below it, or that takes the smaller number
where they part. So whatever lies between a key and one in its subtree is in that subtree too. -/
theorem lineage_in_order :
    (∀ (key : Key) (includeSelf : Bool),
      (∀ direction, (key.lineage includeSelf direction).Nodup ∧
        ∀ above, above ∈ key.lineage includeSelf direction ↔
          key.isDescendantOrSelf above = true ∧ (above = key → includeSelf = true)) ∧
      (key.lineage includeSelf .upward).Pairwise (fun a b => b.depth < a.depth ∧ b < a) ∧
      (key.lineage includeSelf .downward).Pairwise (fun a b => a.depth < b.depth ∧ a < b)) ∧
    (∀ (key : Key) (line : List Key), Climbs key line ↔ line = key.lineage false .upward) ∧
    (∀ a b : Key, (compare a b = .lt ↔ a < b) ∧ (compare a b = .eq ↔ a = b) ∧
      (compare a b = .gt ↔ b < a)) ∧
    (∀ a b : Key, (a ≤ b ↔ a < b ∨ a = b) ∧ (a ≤ b ∨ b ≤ a)) ∧
    (∀ a b c : Key, a ≤ b → b ≤ c → a ≤ c) ∧
    (∀ a b : Key, a < b ↔ b.isStrictDescendant a = true ∨ Forks a.segments b.segments) ∧
    ∀ a b c : Key, a ≤ b → b ≤ c → c.isDescendantOrSelf a = true → b.isDescendantOrSelf a = true := by
  refine ⟨fun key includeSelf => ⟨fun direction => ?_, ?_, ?_⟩, fun key line => climbs_iff,
    fun a b => ⟨compare_eq_lt, compare_eq_eq, compare_eq_gt⟩,
    fun a b => ⟨precedesEq_iff, precedesEq_total a b⟩, fun a b c => precedesEq_trans,
    fun a b => precedes_iff, fun a b c => descendant_of_between⟩
  · exact ⟨key.nodup_lineage includeSelf direction, fun above => mem_lineage_iff⟩
  · exact key.pairwise_lineage_upward includeSelf
  · exact key.pairwise_lineage_downward includeSelf

/-- The box 1:2:9 comes before what is in the box 1:2:10 and is with it on the shelf 1:2. The shelf 1:20
comes after all these, although its text comes before theirs. -/
theorem lineage_in_order_boxes :
    Climbs ⟨1, [2, 10, 4]⟩ [⟨1, [2, 10]⟩, ⟨1, [2]⟩, ⟨1, []⟩] ∧
      (⟨1, [2]⟩ : Key) ≤ ⟨1, [2, 9]⟩ ∧ (⟨1, [2, 9]⟩ : Key) ≤ ⟨1, [2, 10, 4]⟩ ∧
      (⟨1, [2, 10, 4]⟩ : Key).isDescendantOrSelf ⟨1, [2]⟩ = true ∧
      (⟨1, [2, 9]⟩ : Key).isDescendantOrSelf ⟨1, [2]⟩ = true ∧
      (⟨1, [2, 10, 4]⟩ : Key) ≤ ⟨1, [20]⟩ ∧ (⟨1, [2, 9]⟩ : Key) ≤ ⟨1, [20]⟩ ∧
      (⟨1, [20]⟩ : Key).text < (⟨1, [2, 9]⟩ : Key).text := by
  obtain ⟨-, hclimbs, -, -, htrans, -, hbetween⟩ := lineage_in_order
  have hfirst : (⟨1, [2]⟩ : Key) ≤ ⟨1, [2, 9]⟩ := by decide
  have hnext : (⟨1, [2, 9]⟩ : Key) ≤ ⟨1, [2, 10, 4]⟩ := by decide
  have hlast : (⟨1, [2, 10, 4]⟩ : Key) ≤ ⟨1, [20]⟩ := by decide
  have hbelow : (⟨1, [2, 10, 4]⟩ : Key).isDescendantOrSelf ⟨1, [2]⟩ = true := by decide
  exact ⟨(hclimbs _ _).2 rfl, hfirst, hnext, hbelow, hbetween _ _ _ hfirst hnext hbelow, hlast,
    htrans _ _ _ hnext hlast, by decide +kernel⟩

end Inventory.Key
