import Inventory.Key.Collapse
import Inventory.Proofs.Distinct
import Inventory.Proofs.Key.Order
import Mathlib.Data.Finset.Max

/-! # The deepest and the topmost keys of a list

A key is among the deepest of a list when no key of the list lies strictly below it, and among the
topmost when none lies strictly above. Below every key of the list there is one of the deepest, and
every key of the list lies in the subtree of just one of the topmost. The topmost keys are found by
comparing each key with the last one kept, which is enough because a subtree is an unbroken run. -/
namespace Inventory.Key
set_option autoImplicit false

theorem mem_ascending {key : Key} {keys : List Key} : key ∈ ascending keys ↔ key ∈ keys := by
  rw [ascending, mem_sort, List.mem_eraseDups]

theorem nodup_ascending (keys : List Key) : (ascending keys).Nodup :=
  (List.mergeSort_perm _ _).nodup_iff.2 (nodup_eraseDups keys)

theorem pairwise_ascending (keys : List Key) : (ascending keys).Pairwise (· < ·) :=
  pairwise_lt_sort (nodup_eraseDups keys)

theorem ascending_congr {keys others : List Key} (h : ∀ key, key ∈ others ↔ key ∈ keys) :
    ascending others = ascending keys := by
  apply eq_of_pairwise_of_mem (fun _ _ => precedes_asymm) (pairwise_ascending others)
    (pairwise_ascending keys)
  intro key
  rw [mem_ascending, mem_ascending, h]

/-! ## The deepest keys -/

theorem mem_deepest {key : Key} {keys : List Key} :
    key ∈ deepest keys ↔
      key ∈ keys ∧ ∀ other ∈ keys, other.isDescendantOrSelf key = true → other = key := by
  simp only [deepest, List.mem_filter, mem_ascending, Bool.not_eq_true', List.contains_eq_mem,
    decide_eq_false_iff_not, List.mem_flatMap, mem_ancestors, not_exists, not_and, not_not]

/-- Below every key of a list lies one of the deepest. -/
theorem exists_deepest_below {keys : List Key} {key : Key} (h : key ∈ keys) :
    ∃ low ∈ deepest keys, low.isDescendantOrSelf key = true := by
  let below := (keys.filter (·.isDescendantOrSelf key)).toFinset
  have hmem : ∀ k, k ∈ below ↔ k ∈ keys ∧ k.isDescendantOrSelf key = true := by
    simp [below]
  obtain ⟨low, hlow, hmax⟩ :=
    below.exists_max_image (·.segments.length) ⟨key, (hmem key).2 ⟨h, descendant_refl key⟩⟩
  obtain ⟨hin, hbelow⟩ := (hmem low).1 hlow
  refine ⟨low, mem_deepest.2 ⟨hin, ?_⟩, hbelow⟩
  intro other ho hd
  by_contra hne
  have hle := hmax other ((hmem other).2 ⟨ho, descendant_trans hd hbelow⟩)
  exact absurd (length_segments_lt hd hne) (Nat.not_lt.2 hle)

/-! ## The topmost keys -/

theorem mem_of_mem_dropCovered {kept key : Key} {keys : List Key} (h : key ∈ dropCovered kept keys) :
    key ∈ keys := by
  induction keys generalizing kept with
  | nil => exact h
  | cons first rest ih =>
    rw [dropCovered] at h
    split at h
    · exact List.mem_cons_of_mem _ (ih h)
    · rcases List.mem_cons.1 h with rfl | h
      · exact List.mem_cons_self
      · exact List.mem_cons_of_mem _ (ih h)

/-- A key that is dropped lies in the subtree of one that is kept. -/
theorem exists_kept_above {kept key : Key} {keys : List Key} (h : key ∈ keys) :
    ∃ top ∈ kept :: dropCovered kept keys, key.isDescendantOrSelf top = true := by
  induction keys generalizing kept with
  | nil => exact absurd h List.not_mem_nil
  | cons first rest ih =>
    rw [dropCovered]
    by_cases hcovered : first.isDescendantOrSelf kept = true
    · rw [if_pos hcovered]
      rcases List.mem_cons.1 h with rfl | h
      · exact ⟨kept, List.mem_cons_self, hcovered⟩
      · exact ih h
    · rw [if_neg hcovered]
      rcases List.mem_cons.1 h with rfl | h
      · exact ⟨key, by simp, descendant_refl key⟩
      · obtain ⟨top, htop, hbelow⟩ : ∃ top ∈ first :: dropCovered first rest,
            key.isDescendantOrSelf top = true := ih h
        exact ⟨top, List.mem_cons_of_mem _ htop, hbelow⟩

theorem mem_of_mem_topmost {key : Key} {keys : List Key} (h : key ∈ topmost keys) : key ∈ keys := by
  rw [← mem_ascending]
  rw [topmost] at h
  cases hkeys : ascending keys with
  | nil => simp [hkeys] at h
  | cons first rest =>
    rw [hkeys] at h
    rcases List.mem_cons.1 h with rfl | h
    · exact List.mem_cons_self
    · exact List.mem_cons_of_mem _ (mem_of_mem_dropCovered h)

/-- Every key of a list lies in the subtree of one of the topmost. -/
theorem exists_topmost_above {key : Key} {keys : List Key} (h : key ∈ keys) :
    ∃ top ∈ topmost keys, key.isDescendantOrSelf top = true := by
  rw [← mem_ascending] at h
  rw [topmost]
  cases hkeys : ascending keys with
  | nil => simp [hkeys] at h
  | cons first rest =>
    rw [hkeys] at h
    rcases List.mem_cons.1 h with rfl | h
    · exact ⟨key, List.mem_cons_self, descendant_refl key⟩
    · exact exists_kept_above h

theorem dropCovered_sublist (kept : Key) (keys : List Key) : (dropCovered kept keys).Sublist keys := by
  induction keys generalizing kept with
  | nil => exact List.Sublist.slnil
  | cons key rest ih =>
    rw [dropCovered]
    split
    · exact (ih kept).cons key
    · exact (ih key).cons_cons key

/-- None of the keys that are kept lies below one that is kept before it. A later key below an earlier
one would have all keys between the two below that one, and so also the last one kept. -/
theorem apart_dropCovered {kept : Key} {keys : List Key} (h : (kept :: keys).Pairwise (· < ·)) :
    (kept :: dropCovered kept keys).Pairwise fun a b => b.isDescendantOrSelf a = false := by
  induction keys generalizing kept with
  | nil => exact List.pairwise_singleton _ _
  | cons key rest ih =>
    obtain ⟨hlater, hrest⟩ := List.pairwise_cons.1 h
    rw [dropCovered]
    by_cases hcovered : key.isDescendantOrSelf kept = true
    · rw [if_pos hcovered]
      apply ih
      exact List.pairwise_cons.2
        ⟨fun b hb => hlater b (List.mem_cons_of_mem _ hb), (List.pairwise_cons.1 hrest).2⟩
    · rw [if_neg hcovered]
      refine List.pairwise_cons.2 ⟨?_, ih hrest⟩
      intro b hb
      have hbetween : ¬b < key := by
        rcases List.mem_cons.1 hb with rfl | hb
        · exact precedes_irrefl b
        · exact precedes_asymm ((List.pairwise_cons.1 hrest).1 b ((dropCovered_sublist key rest).subset hb))
      by_contra hbelow
      rw [Bool.not_eq_false] at hbelow
      exact hcovered (descendant_of_between (precedes_asymm (hlater key List.mem_cons_self)) hbetween hbelow)

theorem topmost_sublist (keys : List Key) : (topmost keys).Sublist (ascending keys) := by
  rw [topmost]
  cases ascending keys with
  | nil => exact List.Sublist.slnil
  | cons first rest => exact (dropCovered_sublist first rest).cons_cons first

theorem apart_topmost (keys : List Key) :
    (topmost keys).Pairwise fun a b => b.isDescendantOrSelf a = false := by
  have hascending := pairwise_ascending keys
  rw [topmost]
  cases hkeys : ascending keys with
  | nil => exact List.Pairwise.nil
  | cons first rest => exact apart_dropCovered (hkeys ▸ hascending)

theorem pairwise_topmost (keys : List Key) : (topmost keys).Pairwise (· < ·) :=
  (pairwise_ascending keys).sublist (topmost_sublist keys)

/-- One of the topmost keys lies below another only if the two are the same. -/
theorem eq_of_mem_topmost {keys : List Key} {a b : Key} (ha : a ∈ topmost keys) (hb : b ∈ topmost keys)
    (h : a.isDescendantOrSelf b = true) : a = b := by
  refine List.Pairwise.forall_of_forall_of_flip
    (R := fun a b => a.isDescendantOrSelf b = true → a = b) ?_ ?_ ?_ ha hb h
  · exact fun _ _ _ => rfl
  · refine (pairwise_topmost keys).imp fun {a b} hlt hbelow => ?_
    by_contra hne
    exact precedes_asymm hlt (lt_of_descendant hbelow hne)
  · refine (apart_topmost keys).imp fun {a b} hapart hbelow => ?_
    rw [hapart] at hbelow
    cases hbelow

theorem mem_topmost {key : Key} {keys : List Key} :
    key ∈ topmost keys ↔
      key ∈ keys ∧ ∀ other ∈ keys, key.isDescendantOrSelf other = true → key = other := by
  constructor
  · intro h
    refine ⟨mem_of_mem_topmost h, fun other hother hbelow => ?_⟩
    obtain ⟨top, htop, habove⟩ := exists_topmost_above hother
    obtain rfl : key = top := eq_of_mem_topmost h htop (descendant_trans hbelow habove)
    exact descendant_antisymm hbelow habove
  · rintro ⟨hkey, hleast⟩
    obtain ⟨top, htop, habove⟩ := exists_topmost_above hkey
    exact (hleast top (mem_of_mem_topmost htop) habove).symm ▸ htop

/-! ## Both edges -/

theorem topmost_congr {keys others : List Key} (h : ∀ key, key ∈ others ↔ key ∈ keys) :
    topmost others = topmost keys := by
  rw [topmost, topmost, ascending_congr h]

theorem deepest_congr {keys others : List Key} (h : ∀ key, key ∈ others ↔ key ∈ keys) :
    deepest others = deepest keys := by
  rw [deepest, deepest, ascending_congr h]

theorem pairwise_deepest (keys : List Key) : (deepest keys).Pairwise (· < ·) :=
  (pairwise_ascending keys).sublist List.filter_sublist

/-- Keys of which none lies below another are their own edges. -/
theorem edges_of_apart {keys : List Key}
    (h : ∀ a ∈ keys, ∀ b ∈ keys, a.isDescendantOrSelf b = true → a = b) :
    deepest keys = ascending keys ∧ topmost keys = ascending keys := by
  constructor
  · apply eq_of_pairwise_of_mem (fun _ _ => precedes_asymm) (pairwise_deepest keys)
      (pairwise_ascending keys)
    intro key
    rw [mem_deepest, mem_ascending]
    exact and_iff_left_of_imp fun hkey other hother hbelow => h other hother key hkey hbelow
  · apply eq_of_pairwise_of_mem (fun _ _ => precedes_asymm) (pairwise_topmost keys)
      (pairwise_ascending keys)
    intro key
    rw [mem_topmost, mem_ascending]
    exact and_iff_left_of_imp fun hkey other hother hbelow => h key hkey other hother hbelow

theorem ascending_of_pairwise {keys : List Key} (h : keys.Pairwise (· < ·)) : ascending keys = keys :=
  eq_of_pairwise_of_mem (fun _ _ => precedes_asymm) (pairwise_ascending keys) h fun _ => mem_ascending

theorem isStrictDescendant_eq_false_iff {key above : Key} :
    key.isStrictDescendant above = false ↔ (key.isDescendantOrSelf above = true → key = above) := by
  rw [← Bool.not_eq_true, isStrictDescendant_iff, not_and, not_not]

/-- Collapsing a list of keys, in any order and with repeats, gives in ascending order and each once
the keys that have none of the list strictly below them, or those that have none strictly above. The
keys of a result stand apart from one another, every key of the list is above one of the deepest and
below just one of the topmost, and collapsing depends on nothing but which keys there are; done again
it changes nothing. -/
theorem collapse_exact (keys : List Key) :
    ((deepest keys).Pairwise (· < ·) ∧ ∀ key, key ∈ deepest keys ↔
      key ∈ keys ∧ ∀ other ∈ keys, other.isStrictDescendant key = false) ∧
    ((topmost keys).Pairwise (· < ·) ∧ ∀ key, key ∈ topmost keys ↔
      key ∈ keys ∧ ∀ other ∈ keys, key.isStrictDescendant other = false) ∧
    (∀ a ∈ deepest keys, ∀ b ∈ deepest keys, a.isDescendantOrSelf b = true → a = b) ∧
    (∀ a ∈ topmost keys, ∀ b ∈ topmost keys, a.isDescendantOrSelf b = true → a = b) ∧
    (∀ key ∈ keys, (∃ low ∈ deepest keys, low.isDescendantOrSelf key = true) ∧
      ∃! top, top ∈ topmost keys ∧ key.isDescendantOrSelf top = true) ∧
    (deepest (deepest keys) = deepest keys ∧ topmost (topmost keys) = topmost keys) ∧
    ∀ others : List Key, (∀ key, key ∈ others ↔ key ∈ keys) →
      deepest others = deepest keys ∧ topmost others = topmost keys := by
  have hlow : ∀ a ∈ deepest keys, ∀ b ∈ deepest keys, a.isDescendantOrSelf b = true → a = b :=
    fun a ha b hb hbelow => (mem_deepest.1 hb).2 a (mem_deepest.1 ha).1 hbelow
  have htop : ∀ a ∈ topmost keys, ∀ b ∈ topmost keys, a.isDescendantOrSelf b = true → a = b :=
    fun a ha b hb hbelow => eq_of_mem_topmost ha hb hbelow
  refine ⟨⟨pairwise_deepest keys, fun key => ?_⟩, ⟨pairwise_topmost keys, fun key => ?_⟩, hlow, htop, ?_,
    ⟨?_, ?_⟩, fun others h => ⟨deepest_congr h, topmost_congr h⟩⟩
  · simp only [mem_deepest, isStrictDescendant_eq_false_iff]
  · simp only [mem_topmost, isStrictDescendant_eq_false_iff]
  · intro key hkey
    obtain ⟨top, hmem, habove⟩ := exists_topmost_above hkey
    refine ⟨exists_deepest_below hkey, top, ⟨hmem, habove⟩, ?_⟩
    rintro other ⟨hother, habove'⟩
    -- two keys above one key are one above the other
    rcases descendant_total habove habove' with hle | hle
    · exact (htop top hmem other hother hle).symm
    · exact htop other hother top hmem hle
  · rw [(edges_of_apart hlow).1, ascending_of_pairwise (pairwise_deepest keys)]
  · rw [(edges_of_apart htop).2, ascending_of_pairwise (pairwise_topmost keys)]

/-- Two shelves, one of them twice, and two boxes on that one. -/
def shelves : List Key := [⟨1, [2, 9]⟩, ⟨1, [20]⟩, ⟨1, [2]⟩, ⟨1, [2, 3]⟩, ⟨1, [2]⟩]

/-- The boxes come before the shelf whose text begins like theirs, and hide their own shelf. -/
theorem collapse_exact_shelves :
    deepest shelves.reverse = [⟨1, [2, 3]⟩, ⟨1, [2, 9]⟩, ⟨1, [20]⟩] ∧
      topmost shelves.reverse = [⟨1, [2]⟩, ⟨1, [20]⟩] ∧
      ∃! top, top ∈ topmost shelves ∧ (⟨1, [2, 9]⟩ : Key).isDescendantOrSelf top = true := by
  obtain ⟨-, -, -, -, hcover, -, hsame⟩ := collapse_exact shelves
  obtain ⟨hdeepest, htopmost⟩ := hsame shelves.reverse fun key => List.mem_reverse
  have hascending : ascending shelves = [⟨1, [2]⟩, ⟨1, [2, 3]⟩, ⟨1, [2, 9]⟩, ⟨1, [20]⟩] := by
    rw [← ascending_of_pairwise (show [⟨1, [2]⟩, ⟨1, [2, 3]⟩, ⟨1, [2, 9]⟩, ⟨1, [20]⟩].Pairwise (· < ·) by
      decide)]
    apply ascending_congr
    intro key
    simp only [shelves, List.mem_cons, List.not_mem_nil]
    tauto
  refine ⟨?_, ?_, (hcover ⟨1, [2, 9]⟩ List.mem_cons_self).2⟩
  · rw [hdeepest, deepest, hascending]
    decide
  · rw [htopmost, topmost, hascending]
    decide

end Inventory.Key
