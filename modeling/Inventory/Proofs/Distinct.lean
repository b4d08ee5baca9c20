import Mathlib.Data.List.Basic
import Mathlib.Data.List.Nodup

/-! # Lists without repeats

Dropping repeats keeps first occurrences: the result has no repeats and, up to the relation by which
entries are told apart, the same members. Sorted numbers without repeats ascend strictly, and a list
that is in strict order is determined by its members. -/
namespace Inventory
set_option autoImplicit false

variable {α β : Type}

theorem nodup_eraseDups [BEq α] [LawfulBEq α] (l : List α) : l.eraseDups.Nodup := by
  -- the recursion goes on with the filtered rest, so the induction is on the length
  induction hlen : l.length using Nat.strongRecOn generalizing l with
  | ind n ih =>
    cases l with
    | nil => exact List.nodup_nil
    | cons a rest =>
      have hshorter : (rest.filter fun b => !b == a).length < n := by
        rw [← hlen]
        exact Nat.lt_succ_of_le (List.length_filter_le _ _)
      rw [List.eraseDups_cons, List.nodup_cons, List.mem_eraseDups]
      exact ⟨by simp, ih _ hshorter _ rfl⟩

theorem eraseDups_of_nodup [BEq α] [LawfulBEq α] {l : List α} (h : l.Nodup) : l.eraseDups = l := by
  induction l with
  | nil => rfl
  | cons a rest ih =>
    obtain ⟨ha, hrest⟩ := List.nodup_cons.1 h
    have hf : rest.filter (fun b => !b == a) = rest := by
      refine List.filter_eq_self.2 fun b hb => ?_
      have hne : b ≠ a := fun e => ha (e ▸ hb)
      simpa using hne
    rw [List.eraseDups_cons, hf, ih hrest]

theorem eq_nil_of_eraseDups [BEq α] [LawfulBEq α] {l : List α} (h : l.eraseDups = []) : l = [] := by
  rw [List.eq_nil_iff_forall_not_mem] at h ⊢
  exact fun a ha => h a (List.mem_eraseDups.2 ha)

/-- Where entries are told apart by a label and no label comes twice, nothing is dropped. -/
theorem eraseDupsBy_of_nodup [BEq β] [LawfulBEq β] (label : α → β) {l : List α}
    (h : (l.map label).Nodup) : l.eraseDupsBy (fun a b => label a == label b) = l := by
  induction l with
  | nil => rfl
  | cons a rest ih =>
    obtain ⟨ha, hrest⟩ := List.nodup_cons.1 h
    have hf : rest.filter (fun b => (label b == label a) = false) = rest := by
      refine List.filter_eq_self.2 fun b hb => ?_
      have hne : label b ≠ label a := fun e => ha (e ▸ List.mem_map_of_mem hb)
      simpa using hne
    rw [List.eraseDupsBy_cons, hf, ih hrest]

theorem eraseDupsBy_subset (same : α → α → Bool) (l : List α) : l.eraseDupsBy same ⊆ l := by
  induction hlen : l.length using Nat.strongRecOn generalizing l with
  | ind n ih =>
    cases l with
    | nil => exact List.Subset.refl _
    | cons a rest =>
      have hshorter : (rest.filter fun b => same b a = false).length < n := by
        rw [← hlen]
        exact Nat.lt_succ_of_le (List.length_filter_le _ _)
      rw [List.eraseDupsBy_cons]
      intro b hb
      rcases List.mem_cons.1 hb with rfl | hb
      · exact List.mem_cons_self
      · exact List.mem_cons_of_mem _ (List.mem_of_mem_filter (ih _ hshorter _ rfl hb))

theorem eraseDupsBy_map (f : α → β) (same : β → β → Bool) (l : List α) :
    (l.map f).eraseDupsBy same = (l.eraseDupsBy fun a b => same (f a) (f b)).map f := by
  induction hlen : l.length using Nat.strongRecOn generalizing l with
  | ind n ih =>
    cases l with
    | nil => rfl
    | cons a rest =>
      have hshorter : (rest.filter fun b => same (f b) (f a) = false).length < n := by
        rw [← hlen]
        exact Nat.lt_succ_of_le (List.length_filter_le _ _)
      rw [List.map_cons, List.eraseDupsBy_cons, List.eraseDupsBy_cons, List.map_cons, List.filter_map]
      exact congrArg (f a :: ·) (ih _ hshorter _ rfl)

/-- Where entries are told apart by a label, the labels left are those that there were, each once. -/
theorem map_eraseDupsBy [BEq β] (label : α → β) (l : List α) :
    (l.eraseDupsBy fun a b => label a == label b).map label = (l.map label).eraseDups :=
  (eraseDupsBy_map label (· == ·) l).symm

/-! ## Strict orders -/

/-- Lists in the order of an asymmetric relation are the same when their members are. -/
theorem eq_of_pairwise_of_mem {r : α → α → Prop} (hr : ∀ a b, r a b → ¬r b a) {l l' : List α}
    (h : l.Pairwise r) (h' : l'.Pairwise r) (hmem : ∀ a, a ∈ l ↔ a ∈ l') : l = l' := by
  have hdistinct : ∀ {a b : α}, r a b → a ≠ b := by
    rintro a b hab rfl
    exact hr a a hab hab
  apply List.Perm.eq_of_pairwise (fun a b _ _ hab hba => absurd hba (hr a b hab)) h h'
  exact (List.perm_ext_iff_of_nodup (h.imp hdistinct) (h'.imp hdistinct)).2 hmem

/-! ## Sorted numbers -/

theorem pairwise_le_mergeSort (l : List Int) :
    (l.mergeSort fun a b => decide (a ≤ b)).Pairwise fun a b => a ≤ b := by
  refine (List.pairwise_mergeSort ?_ ?_ l).imp of_decide_eq_true
  · intro a b c hab hbc
    exact decide_eq_true (Int.le_trans (of_decide_eq_true hab) (of_decide_eq_true hbc))
  · intro a b
    simpa using Int.le_total a b

theorem pairwise_lt_mergeSort {l : List Int} (h : l.Nodup) :
    (l.mergeSort fun a b => decide (a ≤ b)).Pairwise fun a b => a < b := by
  have hdistinct := (List.mergeSort_perm l fun a b => decide (a ≤ b)).nodup_iff.2 h
  refine (hdistinct.and (pairwise_le_mergeSort l)).imp fun hab => ?_
  omega

end Inventory
