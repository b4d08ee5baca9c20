import Inventory.Proofs.Distinct
import Inventory.Proofs.Key.Collapse
import Inventory.Totals
import Mathlib.Data.Finset.Card
import Mathlib.Data.List.Dedup
import Mathlib.Data.Set.Card

/-! # Subtree totals of a forest

While the sweep runs, the nodes on the stack are the open ones, each strictly below the next, and an
open node lacks of its total exactly what the node above it on the stack will bring. A closed node
has the total of all records so far, and no later record falls into its subtree. -/
namespace Inventory.Totals
set_option autoImplicit false

/-- The assets of the records at or below a key. -/
def below (records : List Tally) (key : Key) : Finset AssetId :=
  ((records.filter (·.key.isDescendantOrSelf key)).flatMap (·.assets)).toFinset

theorem mem_below {records : List Tally} {key : Key} {asset : AssetId} :
    asset ∈ below records key ↔
      ∃ record ∈ records, record.key.isDescendantOrSelf key = true ∧ asset ∈ record.assets := by
  simp only [below, List.mem_toFinset, List.mem_flatMap, List.mem_filter, and_assoc]

theorem below_append (records more : List Tally) (key : Key) :
    below (records ++ more) key = below records key ∪ below more key := by
  simp only [below, List.filter_append, List.flatMap_append, List.toFinset_append]

theorem below_singleton (record : Tally) (key : Key) :
    below [record] key = if record.key.isDescendantOrSelf key then record.assets.toFinset else ∅ := by
  by_cases h : record.key.isDescendantOrSelf key = true <;> simp [below, h]

theorem toFinset_union (a b : List AssetId) : (union a b).toFinset = a.toFinset ∪ b.toFinset := by
  ext asset
  simp only [union, List.toFinset_append, Finset.mem_union, List.mem_toFinset, List.mem_filter,
    Bool.not_eq_true', List.contains_eq_mem, decide_eq_false_iff_not]
  tauto

theorem nodup_union {a b : List AssetId} (ha : a.Nodup) (hb : b.Nodup) : (union a b).Nodup := by
  refine ha.append (hb.filter _) ?_
  intro asset h1 h2
  simp only [List.mem_filter, Bool.not_eq_true', List.contains_eq_mem, decide_eq_false_iff_not] at h2
  exact h2.2 h1

/-! ## Closing nodes -/

/-- The nodes of a stack lack, from the top, what is carried to them: with it each has its total. -/
def Open (total : Key → Finset AssetId) : Finset AssetId → List Tally → Prop
  | _, [] => True
  | carried, top :: stack =>
    top.assets.Nodup ∧ top.assets.toFinset ∪ carried = total top.key ∧
      Open total (total top.key) stack

/-- What closing nodes makes of a stack and the nodes closed before. -/
structure Closes (total : Key → Finset AssetId) (left : Key → Bool)
    (before after : List Tally × List Tally) : Prop where
  perm : ((after.1 ++ after.2).map Tally.key).Perm ((before.1 ++ before.2).map Tally.key)
  opened : Open total ∅ after.1
  suffix : after.1.map Tally.key <:+ before.1.map Tally.key
  stays : ∀ top ∈ after.1.head?, left top.key = false
  closed : ∀ tally ∈ after.2, tally ∈ before.2 ∨
    left tally.key = true ∧ tally.key ∈ before.1.map Tally.key ∧ tally.assets.Nodup ∧
      tally.assets.toFinset = total tally.key

theorem closeWhile_closes {total : Key → Finset AssetId} (left : Key → Bool) {stack : List Tally}
    (carried : List AssetId) (closed : List Tally) (hc : carried.Nodup)
    (h : Open total carried.toFinset stack) :
    Closes total left (stack, closed) (closeWhile left carried stack closed) := by
  induction stack generalizing carried closed with
  | nil => exact ⟨List.Perm.refl _, trivial, List.suffix_refl _, by simp [closeWhile], fun _ => Or.inl⟩
  | cons top stack ih =>
    obtain ⟨hn, htotal, hrest⟩ := h
    have hun : (union top.assets carried).toFinset = total top.key := by
      rw [toFinset_union, htotal]
    by_cases hl : left top.key = true
    · rw [closeWhile, if_pos hl]
      have hnext := ih (union top.assets carried) (⟨top.key, union top.assets carried⟩ :: closed)
        (nodup_union hn hc) (by rw [hun]; exact hrest)
      refine ⟨hnext.perm.trans ?_, hnext.opened, hnext.suffix.trans (List.suffix_cons _ _),
        hnext.stays, ?_⟩
      · simp [List.perm_middle]
      · intro tally ht
        rcases hnext.closed tally ht with h | ⟨h1, h2, h3⟩
        · rcases List.mem_cons.1 h with rfl | h
          · exact Or.inr ⟨hl, by simp, nodup_union hn hc, hun⟩
          · exact Or.inl h
        · exact Or.inr ⟨h1, List.mem_cons_of_mem _ h2, h3⟩
    · rw [closeWhile, if_neg hl]
      refine ⟨List.Perm.refl _, ⟨nodup_union hn hc, ?_, hrest⟩, List.suffix_refl _, ?_, fun _ => Or.inl⟩
      · rw [Finset.union_empty, hun]
      · simpa using hl

/-! ## The sweep -/

theorem open_extend {total total' : Key → Finset AssetId} {extra : Finset AssetId}
    {stack : List Tally} {carried : Finset AssetId} (h : Open total carried stack)
    (hextra : ∀ top ∈ stack, total' top.key = total top.key ∪ extra) :
    Open total' (carried ∪ extra) stack := by
  induction stack generalizing carried with
  | nil => trivial
  | cons top stack ih =>
    obtain ⟨hn, htotal, hrest⟩ := h
    have htop := hextra top (List.mem_cons_self ..)
    refine ⟨hn, ?_, ?_⟩
    · rw [← Finset.union_assoc, htotal, htop]
    · rw [htop]
      exact ih hrest fun t ht => hextra t (List.mem_cons_of_mem _ ht)

/-- The stack and the closed nodes after the sweep of some records. -/
structure Swept (records : List Tally) (state : List Tally × List Tally) : Prop where
  perm : ((state.1 ++ state.2).map Tally.key).Perm (records.map Tally.key)
  opened : Open (below records) ∅ state.1
  nested : (state.1.map Tally.key).Pairwise fun a b => a.isDescendantOrSelf b = true
  total : ∀ tally ∈ state.2, tally.assets.Nodup ∧ tally.assets.toFinset = below records tally.key
  /-- The sweep has left the subtree of a closed node. -/
  passed : ∀ tally ∈ state.2, ∃ record ∈ records,
    tally.key < record.key ∧ record.key.isDescendantOrSelf tally.key = false

theorem swept_nil : Swept [] ([], []) :=
  ⟨List.Perm.refl _, trivial, List.Pairwise.nil, by simp, by simp⟩

theorem below_append_later {records : List Tally} {later : Tally} {key : Key}
    (h : later.key.isDescendantOrSelf key = false) :
    below (records ++ [later]) key = below records key := by
  rw [below_append, below_singleton, h]
  simp

/-- A record that comes after one beyond the subtree of a key is not in that subtree either. -/
theorem not_below_of_passed {key between later : Key} (hlt : key < between) (hle : between < later)
    (hout : between.isDescendantOrSelf key = false) : later.isDescendantOrSelf key = false := by
  by_contra hin
  rw [Bool.not_eq_false] at hin
  have h := Key.descendant_of_between (fun h => Key.precedes_irrefl _ (Key.precedes_trans hlt h))
    (fun h => Key.precedes_irrefl _ (Key.precedes_trans hle h)) hin
  rw [hout] at h
  exact Bool.false_ne_true h

/-- A record that comes after all others has nothing but its own assets at or below it. -/
theorem below_of_last {records : List Tally} {record : Tally}
    (hlater : ∀ r ∈ records, r.key < record.key) :
    below (records ++ [record]) record.key = record.assets.toFinset := by
  have hnone : below records record.key = ∅ := by
    ext asset
    simp only [mem_below, Finset.notMem_empty, iff_false, not_exists, not_and]
    intro r hr hd
    by_cases heq : r.key = record.key
    · exact absurd (heq ▸ hlater r hr) (Key.precedes_irrefl _)
    · exact absurd (Key.precedes_trans (hlater r hr) (Key.lt_of_descendant hd heq))
        (Key.precedes_irrefl _)
  rw [below_append, hnone, below_singleton, if_pos (Key.descendant_refl _), Finset.empty_union]

/-- Where the top of a stack stays for a key, the key is below all of the stack. -/
theorem below_stack {stack : List Tally} {key : Key}
    (hnested : (stack.map Tally.key).Pairwise fun a b => a.isDescendantOrSelf b = true)
    (hstays : ∀ top ∈ stack.head?, (!key.isStrictDescendant top.key) = false) :
    ∀ above ∈ stack.map Tally.key, key.isDescendantOrSelf above = true := by
  cases stack with
  | nil => exact fun above habove => absurd habove List.not_mem_nil
  | cons top rest =>
    have htop : key.isDescendantOrSelf top.key = true := by
      have hstrict := hstays top rfl
      rw [Bool.not_eq_false'] at hstrict
      exact (Key.isStrictDescendant_iff.1 hstrict).1
    intro above habove
    rcases List.mem_cons.1 habove with rfl | hrest
    · exact htop
    · exact Key.descendant_trans htop (List.rel_of_pairwise_cons hnested hrest)

/-- A later key for which a node is left is not in the subtree of that node. -/
theorem not_below_of_left {key later : Key} (hlt : key < later)
    (hleft : (!later.isStrictDescendant key) = true) : later.isDescendantOrSelf key = false := by
  by_contra hd
  rw [Bool.not_eq_false] at hd
  have hne : later ≠ key := fun he => Key.precedes_irrefl _ (he ▸ hlt)
  rw [Key.isStrictDescendant_iff.2 ⟨hd, hne⟩] at hleft
  cases hleft

theorem swept_step {records : List Tally} {state : List Tally × List Tally} {record : Tally}
    (h : Swept records state) (hlater : ∀ r ∈ records, r.key < record.key)
    (hn : record.assets.Nodup) : Swept (records ++ [record]) (sweepStep state record) := by
  obtain ⟨stack, closed⟩ := state
  have hc := closeWhile_closes (!record.key.isStrictDescendant ·) [] closed List.nodup_nil h.opened
  rw [sweepStep]
  generalize closeWhile (!record.key.isStrictDescendant ·) [] stack closed = after at hc ⊢
  obtain ⟨stack', closed'⟩ := after
  have hkeys : ∀ {tally : Tally}, tally.key ∈ (stack ++ closed).map Tally.key →
      tally.key < record.key := by
    intro tally ht
    obtain ⟨r, hr, heq⟩ := List.mem_map.1 (h.perm.subset ht)
    exact heq ▸ hlater r hr
  have hnested : (stack'.map Tally.key).Pairwise fun a b => a.isDescendantOrSelf b = true :=
    h.nested.sublist hc.suffix.sublist
  -- the node that stays on top lies above the new record, and so do all below it on the stack
  have habove := below_stack hnested hc.stays
  have hself := below_of_last hlater
  have hbeyond : ∀ {tally : Tally}, tally.key ∈ stack.map Tally.key →
      (!record.key.isStrictDescendant tally.key) = true →
      tally.key < record.key ∧ record.key.isDescendantOrSelf tally.key = false := by
    intro tally hin hleft
    have hlt : tally.key < record.key := hkeys (by
      rw [List.map_append]
      exact List.mem_append_left _ hin)
    exact ⟨hlt, not_below_of_left hlt hleft⟩
  show Swept (records ++ [record]) (record :: stack', closed')
  refine ⟨?_, ⟨hn, ?_, ?_⟩, ?_, ?_, ?_⟩
  · have hperm := (hc.perm.trans h.perm).cons record.key
    have hmap : (records ++ [record]).map Tally.key = records.map Tally.key ++ [record.key] := by
      rw [List.map_append, List.map_singleton]
    rw [hmap]
    exact hperm.trans (List.perm_append_singleton _ _).symm
  · rw [Finset.union_empty, hself]
  · rw [hself, ← Finset.empty_union record.assets.toFinset]
    refine open_extend hc.opened fun top htop => ?_
    rw [below_append, below_singleton, if_pos (habove _ (List.mem_map_of_mem htop))]
  · exact List.pairwise_cons.2 ⟨fun key hkey => habove key hkey, hnested⟩
  · intro tally ht
    rcases hc.closed tally ht with hold | ⟨hleft, hin, hnew⟩
    · obtain ⟨r, hr, hlt, hout⟩ := h.passed tally hold
      rw [below_append_later (not_below_of_passed hlt (hlater r hr) hout)]
      exact h.total tally hold
    · rw [below_append_later (hbeyond hin hleft).2]
      exact hnew
  · intro tally ht
    rcases hc.closed tally ht with hold | ⟨hleft, hin, -⟩
    · obtain ⟨r, hr, hpass⟩ := h.passed tally hold
      exact ⟨r, List.mem_append_left _ hr, hpass⟩
    · exact ⟨record, List.mem_append_right _ (List.mem_singleton_self _), hbeyond hin hleft⟩

theorem swept_foldl {records : List Tally} (rest : List Tally) {state : List Tally × List Tally}
    (h : Swept records state)
    (hsorted : ((records ++ rest).map Tally.key).Pairwise (· < ·))
    (hn : ∀ record ∈ rest, record.assets.Nodup) :
    Swept (records ++ rest) (rest.foldl sweepStep state) := by
  induction rest generalizing records state with
  | nil => simpa using h
  | cons record rest ih =>
    rw [List.append_cons] at hsorted ⊢
    refine ih (swept_step h ?_ (hn record (List.mem_cons_self ..))) hsorted
      fun r hr => hn r (List.mem_cons_of_mem _ hr)
    rw [List.map_append, List.map_append, List.pairwise_append, List.pairwise_append] at hsorted
    intro r hr
    exact hsorted.1.2.2 r.key (List.mem_map_of_mem hr) record.key (by simp)

/-- The sweep gives each record the assets of all records at or below it, each once. -/
theorem sweep_total {records : List Tally} (hsorted : (records.map Tally.key).Pairwise (· < ·))
    (hn : ∀ record ∈ records, record.assets.Nodup) :
    ((sweep records).map Tally.key).Perm (records.map Tally.key) ∧
      ∀ tally ∈ sweep records,
        tally.assets.Nodup ∧ tally.assets.toFinset = below records tally.key := by
  have h := swept_foldl records swept_nil (by simpa using hsorted) hn
  rw [List.nil_append] at h
  rw [sweep]
  generalize records.foldl sweepStep ([], []) = state at h ⊢
  obtain ⟨stack, closed⟩ := state
  have hc := closeWhile_closes (fun _ => true) [] closed List.nodup_nil h.opened
  have hempty : (closeWhile (fun _ => true) [] stack closed).1 = [] := by
    cases hs : (closeWhile (fun _ => true) [] stack closed).1 with
    | nil => rfl
    | cons top rest => exact absurd (hc.stays top (by rw [hs]; rfl)) (by simp)
  refine ⟨?_, ?_⟩
  · have hperm := hc.perm.trans h.perm
    rwa [hempty, List.nil_append] at hperm
  · intro tally ht
    rcases hc.closed tally ht with hold | ⟨-, -, hnew⟩
    · exact h.total tally hold
    · exact hnew

/-! ## Totals by key -/

theorem pairwise_directTally (keys : List Key) (pairs : List KeyedAsset) :
    (((Key.ascending keys).map (directTally pairs)).map Tally.key).Pairwise (· < ·) := by
  have hkeys : ((Key.ascending keys).map (directTally pairs)).map Tally.key = Key.ascending keys := by
    rw [List.map_map]
    exact List.map_id _
  rw [hkeys]
  exact Key.pairwise_lt_sort (nodup_eraseDups keys)

theorem mem_below_directTally {keys : List Key} {pairs : List KeyedAsset} {key : Key}
    {asset : AssetId} :
    asset ∈ below ((Key.ascending keys).map (directTally pairs)) key ↔
      ∃ k ∈ keys, k.isDescendantOrSelf key = true ∧ (k, asset) ∈ pairs := by
  simp only [mem_below, List.mem_map, Key.mem_ascending]
  constructor
  · rintro ⟨-, ⟨k, hk, rfl⟩, hd, ha⟩
    simp only [directTally, List.mem_eraseDups, List.mem_map, List.mem_filter, beq_iff_eq] at ha
    obtain ⟨⟨k', a⟩, ⟨hpair, rfl⟩, rfl⟩ := ha
    exact ⟨k', hk, hd, hpair⟩
  · rintro ⟨k, hk, hd, hpair⟩
    refine ⟨_, ⟨k, hk, rfl⟩, hd, ?_⟩
    simp only [directTally, List.mem_eraseDups, List.mem_map, List.mem_filter, beq_iff_eq]
    exact ⟨(k, asset), ⟨hpair, rfl⟩, rfl⟩

theorem nodup_directTally (keys : List Key) (pairs : List KeyedAsset) :
    ∀ record ∈ (Key.ascending keys).map (directTally pairs), record.assets.Nodup := by
  intro record hrecord
  obtain ⟨k, -, rfl⟩ := List.mem_map.1 hrecord
  exact nodup_eraseDups _

/-- The totals list every node once, ascending by key. -/
theorem map_key_tallies (keys : List Key) (pairs : List KeyedAsset) (keep : Bool) :
    (aggregate keys pairs keep).tallies.map Tally.key = Key.ascending keys := by
  let records := (Key.ascending keys).map (directTally pairs)
  obtain ⟨hperm, -⟩ := sweep_total (pairwise_directTally keys pairs) (nodup_directTally keys pairs)
  have hrecords : records.map Tally.key = Key.ascending keys := by
    rw [List.map_map]
    exact List.map_id _
  have hsorted : (aggregate keys pairs keep).tallies.map Tally.key =
      Key.sort ((sweep records).map Tally.key) := List.map_mergeSort fun _ _ _ _ => rfl
  have horder : Key.sort (Key.ascending keys) = Key.ascending keys :=
    Key.sort_eq_of_perm (List.mergeSort_perm _ _)
  rw [hsorted, Key.sort_eq_of_perm hperm, hrecords, horder]

/-- The totals of a forest hold for each of its nodes the assets at or below it, each once. -/
theorem tally_total {keys : List Key} {pairs : List KeyedAsset} {keep : Bool} {tally : Tally}
    (htally : tally ∈ (aggregate keys pairs keep).tallies) :
    tally.assets.Nodup ∧
      tally.assets.toFinset = below ((Key.ascending keys).map (directTally pairs)) tally.key :=
  (sweep_total (pairwise_directTally keys pairs) (nodup_directTally keys pairs)).2 tally
    (List.mem_mergeSort.1 htally)

theorem mem_tallies_iff {keys : List Key} (pairs : List KeyedAsset) (keep : Bool) {key : Key} :
    (∃ tally ∈ (aggregate keys pairs keep).tallies, tally.key = key) ↔ key ∈ keys := by
  rw [← Key.mem_ascending, ← map_key_tallies keys pairs keep, List.mem_map]

theorem exists_find?_aggregate {keys : List Key} (pairs : List KeyedAsset) (keep : Bool) {key : Key}
    (hkey : key ∈ keys) :
    ∃ tally, (aggregate keys pairs keep).find? key = some tally ∧ tally.assets.Nodup ∧
      tally.assets.toFinset = below ((Key.ascending keys).map (directTally pairs)) key := by
  obtain ⟨tally, htally, hk⟩ := (mem_tallies_iff pairs keep).2 hkey
  have hfound : ((aggregate keys pairs keep).find? key).isSome = true := by
    rw [find?, List.find?_isSome]
    exact ⟨tally, htally, by simpa using hk⟩
  obtain ⟨found, hfind⟩ := Option.isSome_iff_exists.1 hfound
  have heq : found.key = key := by simpa using List.find?_some hfind
  obtain ⟨hn, hset⟩ := tally_total (List.mem_of_find?_eq_some hfind)
  exact ⟨found, hfind, hn, by rw [hset, heq]⟩

theorem find?_aggregate_eq_none {keys : List Key} (pairs : List KeyedAsset) (keep : Bool) {key : Key}
    (hkey : key ∉ keys) : (aggregate keys pairs keep).find? key = none := by
  rw [find?, List.find?_eq_none]
  intro tally htally heq
  exact hkey ((mem_tallies_iff pairs keep).1 ⟨tally, htally, by simpa using heq⟩)

/-- The number that the totals hold for a key is that of the distinct assets at or below it. -/
theorem count?_aggregate {keys : List Key} (pairs : List KeyedAsset) (keep : Bool) {key : Key}
    (hkey : key ∈ keys) :
    (aggregate keys pairs keep).count? key =
      some (below ((Key.ascending keys).map (directTally pairs)) key).card := by
  obtain ⟨tally, hfind, hn, hset⟩ := exists_find?_aggregate pairs keep hkey
  rw [count?, hfind, Option.map_some, ← List.toFinset_card_of_nodup hn, hset]

theorem counts_aggregate (keys : List Key) (pairs : List KeyedAsset) (keep : Bool) :
    (aggregate keys pairs keep).counts = (Key.ascending keys).map fun key =>
      (key, ((aggregate keys pairs keep).count? key).getD 0) := by
  rw [← map_key_tallies keys pairs keep, counts, List.map_map]
  refine List.map_congr_left fun tally htally => ?_
  have hkey : tally.key ∈ keys := (mem_tallies_iff pairs keep).1 ⟨tally, htally, rfl⟩
  obtain ⟨hn, hset⟩ := tally_total htally
  rw [Function.comp_apply, count?_aggregate pairs keep hkey, Option.getD_some, ← hset,
    List.toFinset_card_of_nodup hn]

/-! ## The totals of a forest -/

/-- The assets in the subtree of a key: those of the pairs whose own key is a node at or below it.
Nodes between the two may be missing. -/
def subtree (keys : List Key) (pairs : List KeyedAsset) (key : Key) : Set AssetId :=
  {asset | ∃ k ∈ keys, key.segments <+: k.segments ∧ (k, asset) ∈ pairs}

theorem coe_below (keys : List Key) (pairs : List KeyedAsset) (key : Key) :
    (below ((Key.ascending keys).map (directTally pairs)) key : Set AssetId) =
      subtree keys pairs key := by
  ext asset
  simp only [Finset.mem_coe, mem_below_directTally, Key.isDescendantOrSelf_iff, subtree,
    Set.mem_ofPred_eq]

theorem count?_eq_ncard {keys : List Key} (pairs : List KeyedAsset) (keep : Bool) {key : Key}
    (hkey : key ∈ keys) :
    (aggregate keys pairs keep).count? key = some (subtree keys pairs key).ncard := by
  rw [count?_aggregate pairs keep hkey, ← Set.ncard_coe_finset, coe_below]

theorem exists_assets?_aggregate {keys : List Key} (pairs : List KeyedAsset) {key : Key}
    (hkey : key ∈ keys) :
    ∃ assets, (aggregate keys pairs true).assets? key = some assets ∧
      (assets.Pairwise fun a b => a < b) ∧
      ∀ asset, asset ∈ assets ↔ asset ∈ below ((Key.ascending keys).map (directTally pairs)) key := by
  obtain ⟨tally, hfind, hn, hset⟩ := exists_find?_aggregate pairs true hkey
  refine ⟨tally.assets.mergeSort fun a b => decide (a ≤ b), ?_, pairwise_lt_mergeSort hn, fun asset => ?_⟩
  · have hkeeps : (aggregate keys pairs true).keepsAssets = true := rfl
    rw [assets?, if_pos hkeeps, hfind, Option.map_some]
  · rw [List.mem_mergeSort, ← hset, List.mem_toFinset]

/-- Totals in one pass are the totals by definition, whatever the order, the repeats and the gaps of
the input: one entry for each distinct key, with the number of the assets in its subtree and, where
they are kept, these assets; pairs beyond the nodes are counted one by one. -/
theorem aggregate_eq_subtree (keys : List Key) (pairs : List KeyedAsset) (keep : Bool) :
    ((aggregate keys pairs keep).counts.map (·.1)).Nodup ∧
      (∀ key, key ∈ (aggregate keys pairs keep).counts.map (·.1) ↔ key ∈ keys) ∧
      (∀ key, (aggregate keys pairs keep).count? key =
        if key ∈ keys then some (subtree keys pairs key).ncard else none) ∧
      (∀ key ∈ keys, keep = true → ∃ assets,
        (aggregate keys pairs keep).assets? key = some assets ∧ assets.Nodup ∧
          ∀ asset, asset ∈ assets ↔ asset ∈ subtree keys pairs key) ∧
      (∀ key, key ∉ keys ∨ keep = false → (aggregate keys pairs keep).assets? key = none) ∧
      (aggregate keys pairs keep).skipped = pairs.countP (·.1 ∉ keys) := by
  have hcounts : (aggregate keys pairs keep).counts.map (·.1) = Key.ascending keys := by
    rw [counts, List.map_map]
    exact map_key_tallies keys pairs keep
  refine ⟨?_, ?_, ?_, ?_, ?_, ?_⟩
  · exact hcounts ▸ Key.nodup_ascending keys
  · exact fun key => hcounts ▸ Key.mem_ascending
  · intro key
    by_cases hkey : key ∈ keys
    · rw [if_pos hkey, count?_eq_ncard pairs keep hkey]
    · rw [if_neg hkey, count?, find?_aggregate_eq_none pairs keep hkey, Option.map_none]
  · rintro key hkey rfl
    obtain ⟨assets, hassets, hascending, hmem⟩ := exists_assets?_aggregate pairs hkey
    refine ⟨assets, hassets, hascending.imp ne_of_lt, fun asset => ?_⟩
    rw [hmem, ← coe_below, Finset.mem_coe]
  · rintro key (hkey | rfl)
    · rw [assets?, find?_aggregate_eq_none pairs keep hkey, Option.map_none, ite_self]
    · exact if_neg Bool.false_ne_true
  · rw [List.countP_eq_length_filter]
    refine congrArg List.length (List.filter_congr fun pair _ => ?_)
    rw [List.contains_eq_mem, decide_not]
    exact congrArg (!·) (decide_eq_decide.2 Key.mem_ascending)

end Inventory.Totals
