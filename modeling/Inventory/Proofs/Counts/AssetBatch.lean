import Inventory.Counts.AssetBatch
import Inventory.Proofs.Counts.NodeBatch
import Inventory.Proofs.Key.Collapse

/-! # Amounts after a batch of nodes for one asset

Every walk goes up one line of ancestors and ends where the asset is seen or where an earlier walk
has been. What has been settled stays closed upward, so that together the walks change exactly the
keys at or above the batch that do not see the asset. -/
namespace Inventory.Counts
set_option autoImplicit false

/-! ## One walk -/

/-- What is closed upward on a line is so on the rest of the line without the first key. -/
theorem closed_erase {key : Key} {above keys : List Key} (hkey : key ∉ above)
    (hclosed : above.Pairwise fun a b => b ∈ keys → a ∈ keys) :
    above.Pairwise fun a b => b ∈ keys.erase key → a ∈ keys.erase key := by
  refine hclosed.imp_of_mem ?_
  intro a b ha _ hab hb
  have hne : a ≠ key := fun e => hkey (e ▸ ha)
  exact (List.mem_erase_of_ne hne).2 (hab (List.mem_of_mem_erase hb))

theorem mem_erase_not_mem {key : Key} {above keys : List Key} (hn : keys.Nodup) (k : Key) :
    k ∈ keys.erase key ∧ k ∉ above ↔ k ∈ keys ∧ k ∉ key :: above := by
  rw [hn.mem_erase_iff, List.mem_cons, not_or]
  constructor
  · rintro ⟨⟨hne, hin⟩, habove⟩
    exact ⟨hin, hne, habove⟩
  · rintro ⟨hin, hne, habove⟩
    exact ⟨⟨hne, hin⟩, habove⟩

/-- Where settling takes keys off that come first on a line, it takes all of the line off. -/
theorem mem_settle {line keys : List Key} (hn : keys.Nodup) (hline : line.Nodup)
    (hclosed : line.Pairwise fun a b => b ∈ keys → a ∈ keys) (k : Key) :
    k ∈ Walk.settle line keys ↔ k ∈ keys ∧ k ∉ line := by
  induction line generalizing keys with
  | nil => simp [Walk.settle]
  | cons key above ih =>
    obtain ⟨hkey, habove⟩ := List.nodup_cons.1 hline
    obtain ⟨hfirst, hrest⟩ := List.pairwise_cons.1 hclosed
    by_cases hk : key ∈ keys
    · have hnext := ih (hn.erase key) habove (closed_erase hkey hrest)
      rw [Walk.settle, if_pos (by simpa using hk), hnext]
      exact mem_erase_not_mem hn k
    · rw [Walk.settle, if_neg (by simpa using hk)]
      refine ⟨fun h => ⟨h, ?_⟩, And.left⟩
      rw [List.mem_cons, not_or]
      exact ⟨fun e => hk (e ▸ h), fun h' => hk (hfirst k h' h)⟩

theorem nodup_settle {line keys : List Key} (hn : keys.Nodup) : (Walk.settle line keys).Nodup := by
  induction line generalizing keys with
  | nil => exact hn
  | cons key above ih =>
    rw [Walk.settle]
    split
    · exact ih (hn.erase _)
    · exact hn

/-- A walk as far as it matters for what is changed in the end: the unsettled keys and the changed
ones. -/
structure Walk.Leads (sees : Key → Bool) (line : List Key) (first : List Key) (before after : Walk) :
    Prop where
  nodup : after.unsettled.Nodup
  unsettled : ∀ k, k ∈ after.unsettled ↔ k ∈ before.unsettled ∧ k ∉ line
  changed : ∀ k, k ∈ after.changed ↔
    k ∈ before.changed ∨ (k ∈ first ∨ k ∈ line ∧ k ∈ before.unsettled) ∧ sees k = false

/-- Where a walk meets only keys that see the asset, it changes none. -/
theorem changed_of_seen {sees : Key → Bool} {line first : List Key} (walk : Walk)
    (hfirst : ∀ k ∈ first, sees k = true) (hline : ∀ k ∈ line, k ∈ walk.unsettled → sees k = true)
    (k : Key) :
    k ∈ walk.changed ↔
      k ∈ walk.changed ∨ (k ∈ first ∨ k ∈ line ∧ k ∈ walk.unsettled) ∧ sees k = false := by
  refine ⟨Or.inl, ?_⟩
  rintro (h | ⟨h, hunseen⟩)
  · exact h
  · have hseen : sees k = true := h.elim (hfirst k) fun hin => hline k hin.1 hin.2
    rw [hseen] at hunseen
    cases hunseen

/-- A walk up a line settles the line, and changes what was unsettled there and does not see the
asset. -/
theorem ascend_leads (sees : Key → Bool) {line : List Key} (walk : Walk) (hn : walk.unsettled.Nodup)
    (hline : line.Nodup) (hsees : line.Pairwise fun a b => sees a = true → sees b = true)
    (hclosed : line.Pairwise fun a b => b ∈ walk.unsettled → a ∈ walk.unsettled) :
    Walk.Leads sees line [] walk (Walk.ascend sees line walk) := by
  induction line generalizing walk with
  | nil => exact ⟨hn, by simp [Walk.ascend], by simp [Walk.ascend]⟩
  | cons key above ih =>
    obtain ⟨hkey, habove⟩ := List.nodup_cons.1 hline
    obtain ⟨hseen, hsees'⟩ := List.pairwise_cons.1 hsees
    obtain ⟨hfirst, hrest⟩ := List.pairwise_cons.1 hclosed
    by_cases hk : key ∈ walk.unsettled
    · by_cases hs : sees key = true
      · -- all keys above see the asset too, so that they may be settled unseen
        rw [Walk.ascend, if_pos (by simpa using hk), if_pos hs]
        refine ⟨nodup_settle hn, mem_settle hn hline hclosed, ?_⟩
        refine changed_of_seen walk (fun k hnil => absurd hnil List.not_mem_nil) fun k hk _ => ?_
        rcases List.mem_cons.1 hk with rfl | habove
        · exact hs
        · exact hseen k habove hs
      · rw [Walk.ascend, if_pos (by simpa using hk), if_neg hs]
        have hnext := ih ⟨walk.unsettled.erase key, walk.changed ++ [key], walk.probed ++ [key]⟩
          (hn.erase _) habove hsees' (closed_erase hkey hrest)
        refine ⟨hnext.nodup, ?_, ?_⟩
        · intro k
          rw [hnext.unsettled]
          exact mem_erase_not_mem hn k
        · intro k
          rw [hnext.changed]
          simp only [List.mem_append, List.mem_cons, List.not_mem_nil, false_or]
          by_cases hkk : k = key
          · subst hkk
            simp [hk, hs]
          · simp only [hkk, or_false, false_or, List.mem_erase_of_ne hkk]
    · -- an earlier walk has been here, and so at every key above
      rw [Walk.ascend, if_neg (by simpa using hk)]
      have hnone : ∀ k ∈ key :: above, k ∉ walk.unsettled := by
        intro k h h'
        rcases List.mem_cons.1 h with rfl | h
        · exact hk h'
        · exact hk (hfirst k h h')
      refine ⟨hn, fun k => ⟨fun h => ⟨h, fun h' => hnone k h' h⟩, And.left⟩, ?_⟩
      exact changed_of_seen walk (fun k hnil => absurd hnil List.not_mem_nil)
        fun k hin hopen => absurd hopen (hnone k hin)

theorem start_leads {sees : Key → Bool}
    (hup : ∀ {a b : Key}, a.isDescendantOrSelf b = true → sees a = true → sees b = true)
    {walk : Walk} (hn : walk.unsettled.Nodup) (key : Key)
    (hclosed : (key.lineage false .upward).Pairwise fun a b =>
      b ∈ walk.unsettled → a ∈ walk.unsettled) :
    Walk.Leads sees (key.lineage false .upward) [key] walk (Walk.start sees walk key) := by
  have hpair := Key.pairwise_lineage key false
  have hline : (key.lineage false .upward).Nodup := hpair.imp And.right
  have hsees : (key.lineage false .upward).Pairwise fun a b => sees a = true → sees b = true :=
    hpair.imp fun h => hup h.1
  by_cases hs : sees key = true
  · rw [Walk.start, if_pos hs]
    refine ⟨nodup_settle hn, mem_settle hn hline hclosed, ?_⟩
    refine changed_of_seen walk (fun k hself => ?_) fun k hin _ => ?_
    · rw [List.mem_singleton.1 hself, hs]
    · exact hup (Key.mem_lineage_false.1 hin).1 hs
  · rw [Walk.start, if_neg hs]
    have h := ascend_leads sees ⟨walk.unsettled, walk.changed ++ [key], walk.probed ++ [key]⟩
      hn hline hsees hclosed
    refine ⟨h.nodup, h.unsettled, ?_⟩
    intro k
    rw [h.changed, List.mem_append, List.mem_singleton]
    constructor
    · rintro ((h1 | rfl) | ⟨h1 | h1, hks⟩)
      · exact Or.inl h1
      · exact Or.inr ⟨Or.inl rfl, by simpa using hs⟩
      · exact absurd h1 (List.not_mem_nil)
      · exact Or.inr ⟨Or.inr h1, hks⟩
    · rintro (h1 | ⟨rfl | h1, hks⟩)
      · exact Or.inl (Or.inl h1)
      · exact Or.inl (Or.inr rfl)
      · exact Or.inr ⟨Or.inr h1, hks⟩

/-! ## All walks of a batch -/

/-- After walks from the keys of `done`, the ancestors of the batch above none of them are
unsettled, and of the rest those that do not see the asset are changed. -/
structure Walk.Stands (sees : Key → Bool) (above done : List Key) (walk : Walk) : Prop where
  nodup : walk.unsettled.Nodup
  unsettled : ∀ k, k ∈ walk.unsettled ↔
    k ∈ above ∧ ∀ key ∈ done, k ∉ key.lineage false .upward
  changed : ∀ k, k ∈ walk.changed ↔
    (k ∈ done ∨ k ∈ above ∧ ∃ key ∈ done, k ∈ key.lineage false .upward) ∧ sees k = false

theorem stands_start {sees : Key → Bool}
    (hup : ∀ {a b : Key}, a.isDescendantOrSelf b = true → sees a = true → sees b = true)
    {above done : List Key} {walk : Walk} (h : Walk.Stands sees above done walk) {key : Key}
    (hkey : ∀ k ∈ key.lineage false .upward, k ∈ above) :
    Walk.Stands sees above (done ++ [key]) (Walk.start sees walk key) := by
  have hclosed : (key.lineage false .upward).Pairwise fun a b =>
      b ∈ walk.unsettled → a ∈ walk.unsettled := by
    refine (Key.pairwise_lineage key false).imp_of_mem ?_
    intro a b ha _ hab hb
    rw [h.unsettled] at hb ⊢
    refine ⟨hkey a ha, fun d hd had => hb.2 d hd ?_⟩
    rw [Key.mem_lineage_false] at had ⊢
    refine ⟨Key.descendant_trans had.1 hab.1, ?_⟩
    rintro rfl
    exact had.2 (Key.descendant_antisymm had.1 hab.1)
  have hl := start_leads hup h.nodup key hclosed
  refine ⟨hl.nodup, ?_, ?_⟩
  · intro k
    rw [hl.unsettled, h.unsettled]
    simp only [List.mem_append, List.mem_singleton, or_imp, forall_and, forall_eq, and_assoc]
  · intro k
    rw [hl.changed, h.changed, h.unsettled]
    simp only [List.mem_append, List.mem_singleton, or_and_right, exists_or, exists_eq_left]
    by_cases hk : k ∈ key.lineage false .upward
    · have ha := hkey k hk
      by_cases hd : ∃ d ∈ done, k ∈ d.lineage false .upward
      · simp only [hk, ha, hd, true_and, and_true, or_true]
        tauto
      · have hd' : ∀ d ∈ done, k ∉ d.lineage false .upward := fun d hd1 hd2 => hd ⟨d, hd1, hd2⟩
        simp only [hk, ha, hd, true_and, and_true, or_true, and_false]
        tauto
    · simp only [hk, false_and, or_false]
      exact or_right_comm

theorem walks_stand {sees : Key → Bool}
    (hup : ∀ {a b : Key}, a.isDescendantOrSelf b = true → sees a = true → sees b = true)
    {above : List Key} (todo done : List Key)
    (htodo : ∀ key ∈ todo, ∀ k ∈ key.lineage false .upward, k ∈ above) {walk : Walk}
    (h : Walk.Stands sees above done walk) :
    Walk.Stands sees above (done ++ todo) (todo.foldl (Walk.start sees) walk) := by
  induction todo generalizing done walk with
  | nil => simpa using h
  | cons key rest ih =>
    have hnext := stands_start hup h (htodo key List.mem_cons_self)
    have hrest := ih (done ++ [key]) (fun k hk => htodo k (List.mem_cons_of_mem _ hk)) hnext
    simpa using hrest

/-- The walks change exactly the keys at or above the batch that do not see the asset. -/
theorem mem_changed_walks {sees : Key → Bool}
    (hup : ∀ {a b : Key}, a.isDescendantOrSelf b = true → sees a = true → sees b = true)
    (keys : List Key) (k : Key) :
    k ∈ (walks sees keys).changed ↔
      (∃ key ∈ keys, key.isDescendantOrSelf k = true) ∧ sees k = false := by
  have habove : ∀ k, k ∈ Key.ascending (keys.flatMap Key.ancestors) ↔
      ∃ key ∈ keys, k ∈ key.lineage false .upward := by
    intro k
    rw [Key.mem_ascending, List.mem_flatMap]
    simp only [Key.mem_ancestors, Key.mem_lineage_false]
  have h0 : Walk.Stands sees (Key.ascending (keys.flatMap Key.ancestors)) []
      ⟨Key.ascending (keys.flatMap Key.ancestors), [], []⟩ :=
    ⟨Key.nodup_ascending _, by simp, by simp⟩
  have h := walks_stand hup (Key.deepest keys) [] (fun key hkey k hk =>
    (habove k).2 ⟨key, (Key.mem_deepest.1 hkey).1, hk⟩) h0
  rw [walks, h.changed, List.nil_append]
  refine and_congr_left fun _ => ?_
  constructor
  · rintro (hk | ⟨-, key, hkey, hk⟩)
    · exact ⟨k, (Key.mem_deepest.1 hk).1, Key.descendant_refl k⟩
    · exact ⟨key, (Key.mem_deepest.1 hkey).1, (Key.mem_lineage_false.1 hk).1⟩
  · rintro ⟨key, hkey, hk⟩
    obtain ⟨low, hlow, hl⟩ := Key.exists_deepest_below hkey
    have hd := Key.descendant_trans hl hk
    by_cases he : low = k
    · exact Or.inl (he ▸ hlow)
    · have hline := Key.mem_lineage_false.2 ⟨hd, he⟩
      exact Or.inr ⟨(habove k).2 ⟨low, (Key.mem_deepest.1 hlow).1, hline⟩, low, hlow, hline⟩

/-! ## Each key once -/

/-- No key has been probed twice, none that was probed is still unsettled, and only probed keys have
been changed. -/
structure Walk.Once (walk : Walk) : Prop where
  unsettled : walk.unsettled.Nodup
  probed : walk.probed.Nodup
  apart : ∀ k ∈ walk.probed, k ∉ walk.unsettled
  changed : walk.changed.Sublist walk.probed

theorem settle_sublist (line keys : List Key) : (Walk.settle line keys).Sublist keys := by
  induction line generalizing keys with
  | nil => exact List.Sublist.refl keys
  | cons key above ih =>
    rw [Walk.settle]
    split
    · exact (ih _).trans List.erase_sublist
    · exact List.Sublist.refl keys

theorem settle_cons {key : Key} {above keys : List Key} (h : key ∈ keys) :
    Walk.settle (key :: above) keys = Walk.settle above (keys.erase key) := by
  rw [Walk.settle, if_pos (by simpa using h)]

section Once
variable {walk : Walk} {key : Key}

theorem Walk.Once.settle (h : walk.Once) (line : List Key) :
    Once { walk with unsettled := Walk.settle line walk.unsettled } where
  unsettled := h.unsettled.sublist (settle_sublist line _)
  probed := h.probed
  apart k hk hopen := h.apart k hk ((settle_sublist line _).subset hopen)
  changed := h.changed

theorem Walk.Once.probe (h : walk.Once) (hkey : key ∉ walk.probed) {changed : List Key}
    (hchanged : changed.Sublist (walk.probed ++ [key])) :
    Once ⟨walk.unsettled.erase key, changed, walk.probed ++ [key]⟩ where
  unsettled := h.unsettled.erase key
  probed := by
    rw [List.nodup_append_comm]
    exact List.nodup_cons.2 ⟨hkey, h.probed⟩
  apart := by
    intro k hk hopen
    rcases List.mem_append.1 hk with hold | hnew
    · exact h.apart k hold (List.mem_of_mem_erase hopen)
    · rw [List.mem_singleton.1 hnew] at hopen
      exact h.unsettled.not_mem_erase hopen
  changed := hchanged

theorem ascend_once (sees : Key → Bool) (line : List Key) (h : walk.Once) :
    (Walk.ascend sees line walk).Once := by
  induction line generalizing walk with
  | nil => exact h
  | cons key above ih =>
    by_cases hk : key ∈ walk.unsettled
    · have hnew : key ∉ walk.probed := fun hp => h.apart key hp hk
      by_cases hs : sees key = true
      · rw [Walk.ascend, if_pos (by simpa using hk), if_pos hs]
        dsimp only
        rw [settle_cons hk]
        exact (h.probe hnew (h.changed.trans (List.sublist_append_left _ _))).settle above
      · rw [Walk.ascend, if_pos (by simpa using hk), if_neg hs]
        exact ih (h.probe hnew (h.changed.append_right [key]))
    · rw [Walk.ascend, if_neg (by simpa using hk)]
      exact h

theorem start_once (sees : Key → Bool) (h : walk.Once) (hnew : key ∉ walk.probed)
    (hopen : key ∉ walk.unsettled) : (Walk.start sees walk key).Once := by
  have hprobe : ∀ {changed : List Key}, changed.Sublist (walk.probed ++ [key]) →
      Walk.Once ⟨walk.unsettled, changed, walk.probed ++ [key]⟩ := by
    intro changed hchanged
    have hp := h.probe hnew hchanged
    rwa [List.erase_of_not_mem hopen] at hp
  by_cases hs : sees key = true
  · rw [Walk.start, if_pos hs]
    exact (hprobe (h.changed.trans (List.sublist_append_left _ _))).settle _
  · rw [Walk.start, if_neg hs]
    exact ascend_once sees _ (hprobe (h.changed.append_right [key]))

/-- Walks come only to the key where they start and to unsettled keys. -/
theorem not_mem_ascend (sees : Key → Bool) (line : List Key) {k : Key} (hnew : k ∉ walk.probed)
    (hopen : k ∉ walk.unsettled) :
    k ∉ (Walk.ascend sees line walk).probed ∧ k ∉ (Walk.ascend sees line walk).unsettled := by
  induction line generalizing walk with
  | nil => exact ⟨hnew, hopen⟩
  | cons key above ih =>
    by_cases hk : key ∈ walk.unsettled
    · have hne : k ≠ key := fun he => hopen (he ▸ hk)
      have hnew' : k ∉ walk.probed ++ [key] := by simp [hnew, hne]
      by_cases hs : sees key = true
      · rw [Walk.ascend, if_pos (by simpa using hk), if_pos hs]
        exact ⟨hnew', fun h => hopen ((settle_sublist _ _).subset h)⟩
      · rw [Walk.ascend, if_pos (by simpa using hk), if_neg hs]
        exact ih hnew' fun h => hopen (List.mem_of_mem_erase h)
    · rw [Walk.ascend, if_neg (by simpa using hk)]
      exact ⟨hnew, hopen⟩

theorem not_mem_start (sees : Key → Bool) {k : Key} (hne : k ≠ key) (hnew : k ∉ walk.probed)
    (hopen : k ∉ walk.unsettled) :
    k ∉ (Walk.start sees walk key).probed ∧ k ∉ (Walk.start sees walk key).unsettled := by
  have hnew' : k ∉ walk.probed ++ [key] := by simp [hnew, hne]
  by_cases hs : sees key = true
  · rw [Walk.start, if_pos hs]
    exact ⟨hnew', fun h => hopen ((settle_sublist _ _).subset h)⟩
  · rw [Walk.start, if_neg hs]
    exact not_mem_ascend sees _ hnew' hopen

theorem foldl_start_once (sees : Key → Bool) {todo : List Key} (hn : todo.Nodup) (h : walk.Once)
    (hnew : ∀ key ∈ todo, key ∉ walk.probed ∧ key ∉ walk.unsettled) :
    (todo.foldl (Walk.start sees) walk).Once := by
  induction todo generalizing walk with
  | nil => exact h
  | cons key rest ih =>
    obtain ⟨hkey, hrest⟩ := List.nodup_cons.1 hn
    obtain ⟨hfirst, hopen⟩ := hnew key List.mem_cons_self
    apply ih hrest (start_once sees h hfirst hopen)
    intro k hk
    have hne : k ≠ key := fun he => hkey (he ▸ hk)
    obtain ⟨hk₁, hk₂⟩ := hnew k (List.mem_cons_of_mem _ hk)
    exact not_mem_start sees hne hk₁ hk₂

end Once

/-- The walks from the deepest keys probe no key twice: what they start from is no ancestor of the
batch, and what they settle stays settled. -/
theorem walks_once (sees : Key → Bool) (keys : List Key) : (walks sees keys).Once := by
  have hn : (Key.deepest keys).Nodup := (Key.nodup_ascending keys).filter _
  refine foldl_start_once sees hn ⟨Key.nodup_ascending _, List.nodup_nil, ?_, List.Sublist.refl _⟩ ?_
  · exact fun k hk => absurd hk List.not_mem_nil
  · intro key hkey
    refine ⟨List.not_mem_nil, ?_⟩
    rw [Key.mem_ascending, List.mem_flatMap]
    rintro ⟨low, hlow, habove⟩
    obtain ⟨hd, hne⟩ := Key.mem_ancestors.1 habove
    exact hne ((Key.mem_deepest.1 hkey).2 low hlow hd)

/-! ## What the walks go by

The answers at the probed keys are all that a walk asks for. -/

section Answers
variable {sees sees' : Key → Bool} {walk : Walk}

theorem probed_ascend (sees : Key → Bool) (line : List Key) (walk : Walk) :
    walk.probed <+: (Walk.ascend sees line walk).probed := by
  induction line generalizing walk with
  | nil => exact List.prefix_refl _
  | cons key above ih =>
    rw [Walk.ascend]
    split
    · dsimp only
      split
      · exact List.prefix_append _ _
      · exact (List.prefix_append _ [key]).trans
          (ih ⟨walk.unsettled.erase key, walk.changed ++ [key], walk.probed ++ [key]⟩)
    · exact List.prefix_refl _

theorem probed_start (sees : Key → Bool) (walk : Walk) (key : Key) :
    walk.probed ++ [key] <+: (Walk.start sees walk key).probed := by
  rw [Walk.start]
  dsimp only
  split
  · exact List.prefix_refl _
  · exact probed_ascend sees _ ⟨walk.unsettled, walk.changed ++ [key], walk.probed ++ [key]⟩

theorem probed_foldl (sees : Key → Bool) (todo : List Key) (walk : Walk) :
    walk.probed <+: (todo.foldl (Walk.start sees) walk).probed := by
  induction todo generalizing walk with
  | nil => exact List.prefix_refl _
  | cons key rest ih =>
    exact ((List.prefix_append _ [key]).trans (probed_start sees walk key)).trans (ih _)

theorem ascend_congr {line : List Key}
    (h : ∀ k ∈ (Walk.ascend sees line walk).probed, sees' k = sees k) :
    Walk.ascend sees' line walk = Walk.ascend sees line walk := by
  induction line generalizing walk with
  | nil => rfl
  | cons key above ih =>
    by_cases hk : walk.unsettled.contains key = true
    · rw [Walk.ascend, if_pos hk] at h ⊢
      rw [Walk.ascend, if_pos hk]
      dsimp only at h ⊢
      have hsame : sees' key = sees key := by
        apply h
        split
        · exact List.mem_append_right _ (List.mem_singleton_self key)
        · exact (probed_ascend sees _ _).subset (List.mem_append_right _ (List.mem_singleton_self key))
      rw [hsame]
      by_cases hs : sees key = true
      · rw [if_pos hs, if_pos hs]
      · rw [if_neg hs] at h ⊢
        rw [if_neg hs, ih h]
    · rw [Walk.ascend, Walk.ascend, if_neg hk, if_neg hk]

theorem start_congr {key : Key} (h : ∀ k ∈ (Walk.start sees walk key).probed, sees' k = sees k) :
    Walk.start sees' walk key = Walk.start sees walk key := by
  have hsame : sees' key = sees key :=
    h key ((probed_start sees walk key).subset (List.mem_append_right _ (List.mem_singleton_self key)))
  rw [Walk.start] at h ⊢
  rw [Walk.start]
  dsimp only at h ⊢
  rw [hsame]
  by_cases hs : sees key = true
  · rw [if_pos hs, if_pos hs]
  · rw [if_neg hs] at h ⊢
    rw [if_neg hs, ascend_congr h]

theorem foldl_start_congr {todo : List Key}
    (h : ∀ k ∈ (todo.foldl (Walk.start sees) walk).probed, sees' k = sees k) :
    todo.foldl (Walk.start sees') walk = todo.foldl (Walk.start sees) walk := by
  induction todo generalizing walk with
  | nil => rfl
  | cons key rest ih =>
    rw [List.foldl_cons] at h ⊢
    rw [start_congr fun k hk => h k ((probed_foldl sees rest _).subset hk), ih h, List.foldl_cons]

theorem walks_congr {keys : List Key} (h : ∀ k ∈ (walks sees keys).probed, sees' k = sees k) :
    walks sees' keys = walks sees keys := foldl_start_congr h

end Answers

/-! ## Amounts -/

theorem adjustForAsset_shifted {s : Store} (hs : s.Keyed) (edit : Edit) (hierarchy : HierarchyId)
    (asset : AssetId) (keys : List Key) :
    (adjustForAsset s edit hierarchy asset keys).2 = s.shifted fun h k =>
      if (h = hierarchy ∧ ∃ key ∈ keys, Key.isTextBelow key.text k = true) ∧ asset ∉ s.holdings h k
      then edit.sign else 0 := by
  have hup : ∀ {a b : Key}, a.isDescendantOrSelf b = true →
      s.seesAsset hierarchy a asset = true → s.seesAsset hierarchy b asset = true := by
    intro a b hab ha
    rw [Store.seesAsset_iff hs] at ha ⊢
    exact Store.holdings_mono hs hab ha
  rw [adjustForAsset, Store.addAmount_eq]
  refine Store.shifted_congr fun row hrow => ?_
  obtain ⟨k, hk⟩ := hs row hrow
  refine if_congr ((and_congr_right fun hh => ?_).trans and_assoc.symm) rfl rfl
  simp only [hk, hh, mem_changed_walks hup, Key.text_inj, exists_eq_right, Key.isTextBelow_text,
    ← Store.seesAsset_iff hs, Bool.not_eq_true]

/-- Attachments of one asset to several nodes reach the keys at or above one of them. -/
theorem mem_reach_asset {rows : List NodeRow} {nodes : List Node} {asset other : AssetId}
    {hierarchy : HierarchyId} {top : String} :
    other ∈ Store.reach rows (nodes.map fun node => (asset, node.id)) hierarchy top ↔
      other = asset ∧ ∃ row ∈ rows, row.isWithin hierarchy top = true ∧
        ∃ node ∈ nodes, node.id = row.id := by
  simp only [Store.mem_reach, List.mem_map, Prod.mk.injEq]
  constructor
  · rintro ⟨row, hrow, hwithin, node, hnode, rfl, hid⟩
    exact ⟨rfl, row, hrow, hwithin, node, hnode, hid⟩
  · rintro ⟨rfl, row, hrow, hwithin, node, hnode, hid⟩
    exact ⟨row, hrow, hwithin, node, hnode, rfl, hid⟩

/-- Each amount changes by one where the batch brings the asset to its node or takes it away. -/
theorem adjustForAsset_eq {s : Store} (hs : s.Indexed) (edit : Edit) {hierarchy : HierarchyId}
    (asset : AssetId) {nodes : List Node}
    (hnodes : ∀ node ∈ nodes, node.IsIn s ∧ node.hierarchy = hierarchy) :
    (adjustForAsset s edit hierarchy asset (nodes.map (·.key))).2 =
      s.shifted fun h k => edit.sign * s.gain (nodes.map fun node => (asset, node.id)) h k := by
  rw [adjustForAsset_shifted hs.keyed]
  refine Store.shifted_congr fun r hr => ?_
  obtain ⟨top, htop⟩ := hs.keyed r hr
  have hwithin : (r.hierarchy = hierarchy ∧
      ∃ key ∈ nodes.map (·.key), Key.isTextBelow key.text r.key = true) ↔
      ∃ row ∈ s.nodes, row.isWithin r.hierarchy r.key = true ∧ ∃ node ∈ nodes, node.id = row.id := by
    rw [htop]
    constructor
    · rintro ⟨hh, key, hkey, hbelow⟩
      obtain ⟨node, hnode, rfl⟩ := List.mem_map.1 hkey
      obtain ⟨⟨row, hrow, hid, hrh, hrk⟩, hnh⟩ := hnodes node hnode
      rw [Key.isTextBelow_text] at hbelow
      have hhost := hrh.trans (hnh.trans hh.symm)
      exact ⟨row, hrow, (Store.isWithin_iff hrk).2 ⟨hhost, hbelow⟩, node, hnode, hid.symm⟩
    · rintro ⟨row, hrow, hw, node, hnode, hid⟩
      obtain ⟨⟨own, hown, hoid, hoh, hok⟩, hnh⟩ := hnodes node hnode
      obtain rfl := List.inj_on_of_nodup_map hs.nodeIds hown hrow (hoid.trans hid)
      obtain ⟨hh, hbelow⟩ := (Store.isWithin_iff hok).1 hw
      refine ⟨hh.symm.trans (hoh.trans hnh), node.key, List.mem_map_of_mem hnode, ?_⟩
      rwa [Key.isTextBelow_text]
  rw [Store.gain]
  by_cases h : (∃ row ∈ s.nodes, row.isWithin r.hierarchy r.key = true ∧
      ∃ node ∈ nodes, node.id = row.id) ∧ asset ∉ s.holdings r.hierarchy r.key
  · have hone : Store.reach s.nodes (nodes.map fun node => (asset, node.id)) r.hierarchy r.key \
        s.holdings r.hierarchy r.key = {asset} := by
      ext other
      rw [Finset.mem_sdiff, mem_reach_asset, Finset.mem_singleton]
      constructor
      · exact fun h' => h'.1.1
      · rintro rfl
        exact ⟨⟨rfl, h.1⟩, h.2⟩
    rw [if_pos ⟨hwithin.2 h.1, h.2⟩, hone, Finset.card_singleton]
    simp
  · have hnone : Store.reach s.nodes (nodes.map fun node => (asset, node.id)) r.hierarchy r.key \
        s.holdings r.hierarchy r.key = ∅ := by
      rw [Finset.eq_empty_iff_forall_notMem]
      intro other h'
      rw [Finset.mem_sdiff, mem_reach_asset] at h'
      obtain ⟨⟨rfl, h1⟩, h2⟩ := h'
      exact h ⟨h1, h2⟩
    rw [if_neg (fun h' => h ⟨hwithin.1 h'.1, h'.2⟩), hnone, Finset.card_empty]
    simp

end Inventory.Counts
