import Inventory.Toml.Document
import Mathlib.Tactic.Common

/-! # Integers stay in their range

An integer that is read fits into 64 bits with a sign, however deep it stands among arrays and tables.
This is so of every scalar, so of every value, by induction on how deep it nests, and it stays so of the
entries of a document, which are changed only by putting values that were read into tables. -/
namespace Inventory.Toml
set_option autoImplicit false

/-- Every integer in the value fits into 64 bits with a sign. -/
inductive Value.Fits : Value → Prop
  | string (text : String) : Fits (.string text)
  | integer {n : Int} : n ≤ Text.maxSigned → Fits (.integer n)
  | float (text : String) : Fits (.float text)
  | boolean (value : Bool) : Fits (.boolean value)
  | datetime (text : String) : Fits (.datetime text)
  | array {items : List Value} : (∀ item ∈ items, item.Fits) → Fits (.array items)
  | table {form : Form} {entries : Entries} : (∀ entry ∈ entries, entry.2.Fits) → Fits (.table form entries)
  | tables {items : List Value} : (∀ item ∈ items, item.Fits) → Fits (.tables items)

theorem integer?_le {token : List Char} {n : Int} (h : integer? token = some n) : n ≤ Text.maxSigned := by
  have hsigned : ∀ {m : Int}, Text.signed? m = some n → n ≤ Text.maxSigned := by
    intro m hm
    unfold Text.signed? at hm
    split_ifs at hm with hfits
    cases hm
    exact hfits.2
  unfold integer? at h
  split at h
  · split_ifs at h
    exact hsigned h
  · split_ifs at h
    exact hsigned h
  · split_ifs at h
    exact hsigned h
  · dsimp only at h
    split_ifs at h
    exact hsigned h

theorem scalar?_fits {token : List Char} {v : Value} (h : scalar? token = some v) : v.Fits := by
  unfold scalar? at h
  split_ifs at h
  · cases h
    exact .boolean true
  · cases h
    exact .boolean false
  · cases h
    exact .datetime _
  · cases h
    exact .float _
  · obtain ⟨n, hn, rfl⟩ := Option.map_eq_some_iff.1 h
    exact .integer (integer?_le hn)

/-! ## Entries -/

namespace Entries

/-- Every integer among the entries fits into 64 bits with a sign. -/
def Fits (entries : Entries) : Prop := ∀ entry ∈ entries, entry.2.Fits

variable {entries : Entries}

theorem Fits.lookup (h : entries.Fits) {name : String} {v : Value} (hv : entries.lookup name = some v) :
    v.Fits := by
  induction entries with
  | nil => cases hv
  | cons entry more ih =>
    rw [Fits, List.forall_mem_cons] at h
    rw [List.lookup_cons] at hv
    split at hv
    · cases hv
      exact h.1
    · exact ih h.2 hv

theorem Fits.put (h : entries.Fits) (name : String) {v : Value} (hv : v.Fits) :
    (entries.put name v).Fits := by
  induction entries with
  | nil => exact List.forall_mem_singleton.2 hv
  | cons entry more ih =>
    rw [Fits, List.forall_mem_cons] at h
    unfold Entries.put
    split_ifs
    · exact List.forall_mem_cons.2 ⟨hv, h.2⟩
    · exact List.forall_mem_cons.2 ⟨h.1, ih h.2⟩

theorem fits_nil : Fits [] := fun _ h => absurd h List.not_mem_nil

theorem fits_table {form : Form} : (Value.table form entries).Fits ↔ entries.Fits := by
  constructor
  · rintro ⟨⟩
    assumption
  · exact .table

/-- The last of an array of tables may be changed. -/
theorem fits_replace {items : List Value} {form : Form} {sub : Entries} (h : (Value.tables items).Fits)
    (hlast : items.getLast? = some (.table form sub)) :
    sub.Fits ∧ ∀ changed : Entries, changed.Fits →
      (Value.tables (items.dropLast ++ [.table form changed])).Fits := by
  cases h with
  | tables hitems =>
    refine ⟨fits_table.1 (hitems _ (List.mem_of_getLast? hlast)), fun changed hchanged => .tables ?_⟩
    intro item hitem
    rw [List.mem_append, List.mem_singleton] at hitem
    rcases hitem with hitem | rfl
    · exact hitems item (List.dropLast_subset _ hitem)
    · exact fits_table.2 hchanged

theorem Fits.addDotted {path : List String} {name : String} {v : Value} (h : entries.Fits) (hv : v.Fits)
    {changed : Entries} (hadd : entries.addDotted path name v = some changed) : changed.Fits := by
  induction path generalizing entries changed with
  | nil =>
    unfold Entries.addDotted Entries.add? at hadd
    split_ifs at hadd
    cases hadd
    exact h.put name hv
  | cons first path ih =>
    unfold Entries.addDotted at hadd
    split at hadd
    · obtain ⟨sub, hsub, heq⟩ := Option.bind_eq_some_iff.1 hadd
      cases heq
      exact h.put first (fits_table.2 (ih fits_nil hsub))
    · rename_i form sub hlookup
      split_ifs at hadd
      obtain ⟨more, hmore, heq⟩ := Option.bind_eq_some_iff.1 hadd
      cases heq
      exact h.put first (fits_table.2 (ih (fits_table.1 (h.lookup hlookup)) hmore))
    · rename_i items hlookup
      split at hadd
      · rename_i hlast
        obtain ⟨more, hmore, heq⟩ := Option.bind_eq_some_iff.1 hadd
        cases heq
        obtain ⟨hsub, hchange⟩ := fits_replace (h.lookup hlookup) hlast
        exact h.put first (hchange more (ih hsub hmore))
      · cases hadd
    · cases hadd

theorem Fits.within {path : List String} {change : Entries → Option Entries}
    (hchange : ∀ {before after : Entries}, before.Fits → change before = some after → after.Fits)
    (h : entries.Fits) {changed : Entries} (hwithin : entries.within path change = some changed) :
    changed.Fits := by
  induction path generalizing entries changed with
  | nil => exact hchange h hwithin
  | cons first path ih =>
    unfold Entries.within at hwithin
    split at hwithin
    · obtain ⟨sub, hsub, heq⟩ := Option.bind_eq_some_iff.1 hwithin
      cases heq
      exact h.put first (fits_table.2 (ih fits_nil hsub))
    · rename_i form sub hlookup
      split_ifs at hwithin
      obtain ⟨more, hmore, heq⟩ := Option.bind_eq_some_iff.1 hwithin
      cases heq
      exact h.put first (fits_table.2 (ih (fits_table.1 (h.lookup hlookup)) hmore))
    · rename_i items hlookup
      split at hwithin
      · rename_i hlast
        obtain ⟨more, hmore, heq⟩ := Option.bind_eq_some_iff.1 hwithin
        cases heq
        obtain ⟨hsub, hreplace⟩ := fits_replace (h.lookup hlookup) hlast
        exact h.put first (hreplace more (ih hsub hmore))
      · cases hwithin
    · cases hwithin

theorem Fits.openTable {name : String} (h : entries.Fits) {changed : Entries}
    (hopen : Entries.openTable name entries = some changed) : changed.Fits := by
  unfold Entries.openTable at hopen
  split at hopen
  · cases hopen
    exact h.put name (fits_table.2 fits_nil)
  · rename_i sub hlookup
    cases hopen
    exact h.put name (fits_table.2 (fits_table.1 (h.lookup hlookup)))
  · cases hopen

theorem Fits.openElement {name : String} (h : entries.Fits) {changed : Entries}
    (hopen : Entries.openElement name entries = some changed) : changed.Fits := by
  have hempty : (Value.table .section []).Fits := fits_table.2 fits_nil
  unfold Entries.openElement at hopen
  split at hopen
  · cases hopen
    exact h.put name (.tables (by simpa using hempty))
  · rename_i items hlookup
    cases hopen
    cases h.lookup hlookup with
    | tables hitems =>
      refine h.put name (.tables fun item hitem => ?_)
      rw [List.mem_append, List.mem_singleton] at hitem
      rcases hitem with hitem | rfl
      · exact hitems item hitem
      · exact hempty
  · cases hopen

end Entries

/-! ## Readers -/

namespace Reader
variable {α β : Type} {P : α → Prop} {Q : β → Prop}

/-- Whatever the reader takes off a text satisfies a condition. -/
def Yields (x : Reader α) (P : α → Prop) : Prop := ∀ text a rest, x text = some (a, rest) → P a

theorem Yields.bind {x : Reader α} {next : α → Reader β} (hx : x.Yields P)
    (h : ∀ a, P a → (next a).Yields Q) : Yields (x >>= next) Q := by
  intro text b rest hb
  obtain ⟨⟨a, mid⟩, ha, hnext⟩ := Option.bind_eq_some_iff.1 (show (x text).bind _ = _ from hb)
  exact h a (hx text a mid ha) mid b rest hnext

theorem yields_true (x : Reader α) : x.Yields fun _ => True := fun _ _ _ _ => trivial

theorem yields_bind {x : Reader α} {next : α → Reader β} (h : ∀ a, (next a).Yields Q) :
    Yields (x >>= next) Q := (yields_true x).bind fun a _ => h a

theorem yields_pure {a : α} (h : P a) : Yields (pure a : Reader α) P := by
  intro text b rest hb
  cases hb
  exact h

theorem yields_map {x : Reader α} {f : α → β} (h : ∀ a, Q (f a)) : Yields (f <$> x) Q := by
  intro text b rest hb
  obtain ⟨⟨a, mid⟩, -, heq⟩ := Option.bind_eq_some_iff.1 (show (x text).bind _ = _ from hb)
  cases heq
  exact h a

theorem yields_option {o : Option α} (h : ∀ a, o = some a → P a) :
    Yields (fun text => o.map (·, text)) P := by
  intro text a rest ha
  obtain ⟨b, hb, heq⟩ := Option.map_eq_some_iff.1 ha
  cases heq
  exact h a hb

end Reader

open Reader

/-! ## Values -/

theorem scalar_fits : scalar.Yields Value.Fits := by
  unfold scalar
  refine yields_bind fun token => yields_bind fun text => ?_
  split
  · split_ifs
    · refine yields_bind fun _ => yields_bind fun time => ?_
      exact yields_option fun v hv => scalar?_fits hv
    · exact yields_option fun v hv => scalar?_fits hv
  · exact yields_option fun v hv => scalar?_fits hv

theorem itemLoop_fits {item : Reader Value} (h : item.Yields Value.Fits) (bound : Nat) :
    (itemLoop item bound).Yields fun items => ∀ v ∈ items, v.Fits := by
  induction bound with
  | zero => exact yields_bind fun _ => yields_pure (by simp)
  | succ bound ih =>
    unfold itemLoop
    refine yields_bind fun _ => yields_bind fun _ => ?_
    split_ifs
    · exact yields_bind fun _ => yields_pure (by simp)
    · refine h.bind fun first hfirst => yields_bind fun _ => yields_bind fun _ => ?_
      split_ifs
      · exact yields_bind fun _ => ih.bind fun rest hrest => yields_pure (by simpa [hfirst] using hrest)
      · exact yields_bind fun _ => yields_pure (by simp [hfirst])

theorem pair_fits {value : Reader Value} (h : value.Yields Value.Fits) :
    (pair value).Yields fun p => p.2.Fits := by
  unfold pair
  exact yields_bind fun _ => yields_bind fun _ => yields_bind fun _ => h.bind fun _ hv => yields_pure hv

theorem addAt_fits {path : List String} {v : Value} {entries changed : Entries} (h : entries.Fits)
    (hv : v.Fits) (hadd : addAt path v entries = some changed) : changed.Fits := by
  unfold addAt at hadd
  split at hadd
  · exact h.addDotted hv hadd
  · cases hadd

theorem pairLoop_fits {value : Reader Value} (hvalue : value.Yields Value.Fits) {entries : Entries}
    (h : entries.Fits) (bound : Nat) : (pairLoop value entries bound).Yields Entries.Fits := by
  induction bound generalizing entries with
  | zero => exact yields_bind fun _ => yields_pure Entries.fits_nil
  | succ bound ih =>
    unfold pairLoop
    refine (pair_fits hvalue).bind fun p hp => ?_
    refine (yields_option fun changed hchanged => addAt_fits h hp hchanged).bind fun changed hchanged => ?_
    refine yields_bind fun _ => yields_bind fun _ => ?_
    split_ifs
    · exact yields_bind fun _ => ih hchanged
    · exact yields_bind fun _ => yields_pure hchanged

theorem valueWithin_fits (depth : Nat) : (valueWithin depth).Yields Value.Fits := by
  induction depth with
  | zero =>
    unfold valueWithin
    refine yields_bind fun next => ?_
    split
    · exact yields_map fun _ => .string _
    · exact yields_map fun _ => .string _
    · exact scalar_fits
  | succ depth ih =>
    unfold valueWithin
    refine yields_bind fun next => ?_
    split
    · exact yields_map fun _ => .string _
    · exact yields_map fun _ => .string _
    · exact yields_bind fun _ => yields_bind fun bound =>
        (itemLoop_fits ih bound).bind fun items hitems => yields_pure (.array hitems)
    · refine yields_bind fun _ => yields_bind fun _ => yields_bind fun _ => ?_
      split_ifs
      · exact yields_bind fun _ => yields_pure (Entries.fits_table.2 Entries.fits_nil)
      · exact yields_bind fun bound => (pairLoop_fits ih Entries.fits_nil bound).bind fun entries hentries =>
          yields_pure (Entries.fits_table.2 hentries)
    · exact scalar_fits

/-! ## Documents -/

theorem Draft.openBy_fits {change : String → Entries → Option Entries}
    (hchange : ∀ {name : String} {before after : Entries}, before.Fits → change name before = some after →
      after.Fits) {path : List String} {draft opened : Draft} (h : draft.entries.Fits)
    (hopen : draft.openBy change path = some opened) : opened.entries.Fits := by
  obtain ⟨name, -, hopen⟩ := Option.bind_eq_some_iff.1 hopen
  obtain ⟨entries, hentries, heq⟩ := Option.bind_eq_some_iff.1 hopen
  cases heq
  exact h.within hchange hentries

theorem header_fits {draft : Draft} (h : draft.entries.Fits) :
    (header draft).Yields fun opened => opened.entries.Fits := by
  unfold header
  refine yields_bind fun _ => yields_bind fun _ => ?_
  split_ifs
  · refine yields_bind fun _ => yields_bind fun path => yields_bind fun _ => yields_bind fun _ =>
      yields_bind fun _ => ?_
    exact yields_option fun opened => Draft.openBy_fits (fun hbefore => hbefore.openElement) h
  · refine yields_bind fun path => yields_bind fun _ => yields_bind fun _ => ?_
    exact yields_option fun opened => Draft.openBy_fits (fun hbefore => hbefore.openTable) h

theorem expression_fits {draft : Draft} (h : draft.entries.Fits) :
    (expression draft).Yields fun changed => changed.entries.Fits := by
  unfold expression
  refine yields_bind fun next => ?_
  split_ifs
  · exact yields_bind fun _ => yields_bind fun _ => yields_pure h
  · exact yields_bind fun _ => yields_pure h
  · exact header_fits h
  · refine (pair_fits (valueWithin_fits _)).bind fun p hp => yields_bind fun _ => ?_
    intro text changed rest hread
    obtain ⟨entries, hentries, heq⟩ := Option.bind_eq_some_iff.1 hread
    cases heq
    exact h.within (fun hbefore => addAt_fits hbefore hp) hentries

theorem documentLoop_fits {draft : Draft} (h : draft.entries.Fits) (bound : Nat) :
    (documentLoop draft bound).Yields fun result => result.entries.Fits := by
  induction bound generalizing draft with
  | zero => exact yields_bind fun _ => yields_bind fun _ => yields_pure h
  | succ bound ih =>
    unfold documentLoop
    refine yields_bind fun _ => yields_bind fun _ => ?_
    split_ifs
    · exact yields_pure h
    · exact (expression_fits h).bind fun next hnext => ih hnext

/-- Every integer of a document fits into 64 bits with a sign. -/
theorem parse?_fits {text : String} {entries : Entries} (h : parse? text = some entries) :
    entries.Fits := by
  obtain ⟨⟨result, rest⟩, hloop, h⟩ := Option.bind_eq_some_iff.1 h
  dsimp only at h
  split_ifs at h
  cases h
  exact documentLoop_fits Entries.fits_nil _ _ _ _ hloop

end Inventory.Toml
