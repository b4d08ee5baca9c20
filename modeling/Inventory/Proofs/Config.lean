import Inventory.Config.Basic
import Inventory.Proofs.Toml.Document
import Inventory.Proofs.Toml.Range

/-! # Options that are written and read

Options are written as the lines of a document, and reading the document gives them back: each number
as an integer, the name in whatever quotes it was put, a missing timeout by its missing line. What
cannot be written are numbers beyond the range of the integers of a document. Since integers that are
read are within it, all options that a document sets can be written again. -/
namespace Inventory
set_option autoImplicit false

open Toml (Value Entries Spells Draft)

/-! ## Numbers that can be written -/

namespace Options
variable {options : Options}

/-- The numbers of the options can be written. -/
structure Fits (options : Options) : Prop where
  batchLimit : (options.batchLimit : Int) ≤ Text.maxSigned
  coalesceWindow : (options.coalesceWindow : Int) ≤ Text.maxSigned
  lockTimeout : ∀ n, options.lockTimeout = some n → (n : Int) ≤ Text.maxSigned
  busyTimeout : (options.busyTimeout : Int) ≤ Text.maxSigned

theorem writable_iff : options.writable = true ↔ options.Fits := by
  simp only [writable, List.all_eq_true, decide_eq_true_iff, List.mem_append, List.mem_cons,
    List.not_mem_nil, or_false, Option.mem_toList, or_imp, forall_and, forall_eq]
  constructor
  · rintro ⟨⟨hbatch, hwindow, hbusy⟩, hlock⟩
    exact ⟨hbatch, hwindow, hlock, hbusy⟩
  · rintro ⟨hbatch, hwindow, hlock, hbusy⟩
    exact ⟨⟨hbatch, hwindow, hbusy⟩, hlock⟩

end Options

/-! ## Numbers that a document sets -/

namespace Config
variable {config changed : Config}

/-- The numbers that a configuration sets. -/
def numbers (config : Config) : List Nat :=
  config.batchLimit.toList ++ config.coalesceWindow.toList ++ config.lockTimeout.toList ++
    config.busyTimeout.toList

/-- The numbers that are set can be written. -/
def Fits (config : Config) : Prop := ∀ n ∈ config.numbers, (n : Int) ≤ Text.maxSigned

theorem count?_le {v : Value} (hv : v.Fits) {n : Nat} (h : count? v = some n) :
    (n : Int) ≤ Text.maxSigned := by
  cases hv with
  | integer hle =>
    unfold count? at h
    dsimp only at h
    split_ifs at h
    cases h
    omega
  | _ => cases h

theorem Fits.set? (h : config.Fits) {name : String} {v : Value} (hv : v.Fits)
    (hset : config.set? name v = some changed) : changed.Fits := by
  have hcount : ∀ {n : Nat}, count? v = some n → (n : Int) ≤ Text.maxSigned := fun hn => count?_le hv hn
  unfold Config.set? at hset
  split at hset
  case h_6 => cases hset
  all_goals
    obtain ⟨read, hread, heq⟩ := Option.bind_eq_some_iff.1 hset
    cases heq
    simp_all [Fits, numbers, or_imp, forall_and]

theorem Fits.setAll? {settings : List (String × Value)} (h : config.Fits)
    (hsettings : ∀ s ∈ settings, s.2.Fits) (hset : config.setAll? settings = some changed) :
    changed.Fits := by
  induction settings generalizing config with
  | nil =>
    cases hset
    exact h
  | cons setting rest ih =>
    rw [List.forall_mem_cons] at hsettings
    obtain ⟨next, hnext, hset⟩ := Option.bind_eq_some_iff.1 hset
    exact ih (h.set? hsettings.1 hnext) hsettings.2 hset

theorem Fits.readTree? {v : Value} (h : config.Fits) (hv : v.Fits)
    (hread : config.readTree? v = some changed) : changed.Fits := by
  have hzip : ∀ {items : List Value}, (∀ item ∈ items, item.Fits) → ∀ s ∈ names.zip items, s.2.Fits :=
    fun hitems s hs => hitems s.2 (List.of_mem_zip hs).2
  unfold Config.readTree? at hread
  cases hv with
  | table hentries => exact h.setAll? hentries hread
  | array hitems =>
    dsimp only at hread
    split_ifs at hread
    exact h.setAll? (hzip hitems) hread
  | tables hitems =>
    dsimp only at hread
    split_ifs at hread
    exact h.setAll? (hzip hitems) hread
  | _ => cases hread

theorem Fits.readDatabase? {v : Value} (h : config.Fits) (hread : config.readDatabase? v = some changed) :
    changed.Fits := by
  unfold Config.readDatabase? at hread
  split at hread
  · split at hread
    · cases hread
      exact h
    · obtain ⟨text, -, heq⟩ := Option.bind_eq_some_iff.1 hread
      cases heq
      exact h
  · obtain ⟨text, -, heq⟩ := Option.bind_eq_some_iff.1 hread
    cases heq
    exact h
  · cases hread
    exact h
  · cases hread

theorem fits_of_parse {text : String} (h : parse text = .ok config) : config.Fits := by
  unfold parse at h
  split at h
  · rename_i found hfound
    cases h
    obtain ⟨entries, hentries, hfound⟩ := Option.bind_eq_some_iff.1 hfound
    have hfits := Toml.parse?_fits hentries
    obtain ⟨options, htree, hdatabase⟩ := Option.bind_eq_some_iff.1 hfound
    have hoptions : options.Fits := by
      unfold readSection? at htree
      split at htree
      · cases htree
        simp [Fits, numbers]
      · rename_i hlookup
        exact Fits.readTree? (by simp [Fits, numbers]) (hfits.lookup hlookup) htree
    unfold readSection? at hdatabase
    split at hdatabase
    · cases hdatabase
      exact hoptions
    · exact hoptions.readDatabase? hdatabase
  · cases h

/-- Options come from a configuration without its numbers changed, and not without a check. -/
theorem Fits.options {options : Options} (h : config.Fits) (hoptions : config.options = .ok options) :
    options.Fits ∧ options.batchLimit ≠ 0 ∧ options.newNodeName.toList.all Text.isBlank = false := by
  simp only [Fits, numbers, List.mem_append, Option.mem_toList, or_imp, forall_and] at h
  obtain ⟨⟨⟨hbatch, hwindow⟩, hlock⟩, hbusy⟩ := h
  -- what is not set has a default that can be written
  have hdefault : ∀ {o : Option Nat} {n : Nat}, (∀ m, o = some m → (m : Int) ≤ Text.maxSigned) →
      (n : Int) ≤ Text.maxSigned → ((o.getD n : Nat) : Int) ≤ Text.maxSigned := by
    intro o n ho hn
    cases o with
    | none => exact hn
    | some m => exact ho m rfl
  unfold Config.options at hoptions
  dsimp only at hoptions
  split_ifs at hoptions with hzero _ hblank
  · cases hoptions
  · cases hoptions
  · cases hoptions
  · cases hoptions
    refine ⟨⟨hdefault hbatch (by decide), hdefault hwindow (by decide), hlock, hdefault hbusy (by decide)⟩,
      ?_, ?_⟩
    · cases hlimit : config.batchLimit with
      | none => simp
      | some n =>
        rintro rfl
        exact hzero hlimit
    · cases hname : config.newNodeName with
      | none =>
        show "New node".toList.all Text.isBlank = false
        decide
      | some name => simpa [hname] using hblank

end Config

namespace Options
variable {options : Options}

/-! ## Reading what is written -/

/-- What the lines of the options are read as. -/
def entries (options : Options) : Entries :=
  [("incremental_batch_limit", .integer options.batchLimit),
    ("coalesce_window_ms", .integer options.coalesceWindow)] ++
  (options.lockTimeout.toList.map fun n => ("lock_acquire_timeout_ms", .integer n)) ++
  [("busy_timeout_ms", .integer options.busyTimeout), ("new_node_name", .string options.newNodeName)]

theorem Fits.spells (h : options.Fits) :
    List.Forall₂ (fun line entry => line.1 = entry.1 ∧ Spells line.2 entry.2) options.settings
      options.entries := by
  have hname := Toml.spells_writeString options.newNodeName.toList
  rw [String.ofList_toList] at hname
  have hbatch := Toml.spells_numeral h.batchLimit
  have hwindow := Toml.spells_numeral h.coalesceWindow
  have hbusy := Toml.spells_numeral h.busyTimeout
  unfold settings entries
  cases hlock : options.lockTimeout with
  | none => simp [hbatch, hwindow, hbusy, hname]
  | some n => simp [hbatch, hwindow, hbusy, hname, Toml.spells_numeral (h.lockTimeout n hlock)]

theorem isBare_entries : ∀ entry ∈ options.entries, Toml.IsBare entry.1 := by
  unfold entries
  cases options.lockTimeout with
  | none => simp; decide
  | some n => simp; decide

theorem nodup_entries : (options.entries.map Prod.fst).Nodup := by
  unfold entries
  cases options.lockTimeout with
  | none => simp
  | some n => simp

theorem Fits.exists_render (h : options.Fits) : ∃ text, options.render = .ok text ∧
    Toml.parse? text = some [("tree", .table .section options.entries), ("database", .table .section [])] := by
  have htree : Toml.IsBare "tree" := by decide
  have hdatabase : Toml.IsBare "database" := by decide
  have hend : Draft.Reads ⟨["tree"], [("tree", .table .section ([] ++ options.entries))]⟩
      "\n[database]\n".toList
      ⟨["database"], [("tree", .table .section options.entries), ("database", .table .section [])]⟩ := by
    apply Draft.Reads.step (Toml.expression_break _ _)
    · exact Toml.unblank_cons (by decide) (by decide) _
    · decide
    · apply Draft.Reads.step (Toml.expression_header _ hdatabase [])
      · exact Toml.unblank_cons (by decide) (by decide) _
      · decide
      · exact Draft.Reads.nil _
  have hlines := Draft.Reads.settings h.spells isBare_entries (by simpa using nodup_entries) hend
  have hwhole : Draft.Reads {} ("[tree]\n".toList ++
      options.settings.flatMap (fun s => s.1.toList ++ " = ".toList ++ s.2 ++ ['\n']) ++
      "\n[database]\n".toList)
      ⟨["database"], [("tree", .table .section options.entries), ("database", .table .section [])]⟩ := by
    simpa [Toml.setting] using Draft.Reads.step (Toml.expression_header {} htree _)
      (Toml.unblank_cons (by decide) (by decide) _) (by simp) hlines
  exact ⟨_, if_pos (writable_iff.2 h), Toml.parse?_ofList (by simp) hwhole⟩

/-- The configuration that sets everything to what the options have. -/
def toConfig (options : Options) : Config where
  batchLimit := options.batchLimit
  coalesceWindow := options.coalesceWindow
  lockTimeout := options.lockTimeout
  busyTimeout := options.busyTimeout
  newNodeName := options.newNodeName

theorem readTree?_entries :
    Config.readTree? {} (.table .section options.entries) = some options.toConfig := by
  unfold entries toConfig
  cases options.lockTimeout with
  | none => simp [Config.readTree?, Config.setAll?, Config.set?, Config.count?, Config.text?]
  | some n => simp [Config.readTree?, Config.setAll?, Config.set?, Config.count?, Config.text?]

theorem ofEntries?_entries : Config.ofEntries? [("tree", .table .section options.entries),
    ("database", .table .section [])] = some options.toConfig := by
  simp [Config.ofEntries?, Config.readSection?, readTree?_entries, List.lookup_cons, Config.readDatabase?]

theorem options_toConfig : options.toConfig.options =
    if options.batchLimit = 0 then .error .zeroBatchLimit
    else if options.newNodeName.toList.all Text.isBlank then .error .blankNodeName
    else .ok options := by
  unfold Config.options toConfig
  by_cases hbatch : options.batchLimit = 0
  · simp [hbatch]
    rfl
  · by_cases hname : options.newNodeName.toList.all Text.isBlank
    · simp [hbatch, hname]
      rfl
    · simp [hbatch, hname]
      rfl

/-- Options that can be written are read back, unless they are not valid. -/
theorem Fits.parse_render (h : options.Fits) : ∃ text, options.render = .ok text ∧ parse text =
    if options.batchLimit = 0 then .error .zeroBatchLimit
    else if options.newNodeName.toList.all Text.isBlank then .error .blankNodeName
    else .ok options := by
  obtain ⟨text, hrender, hparse⟩ := h.exists_render
  refine ⟨text, hrender, ?_⟩
  have hconfig : Config.parse text = .ok options.toConfig := by
    rw [Config.parse, hparse, Option.bind_some, ofEntries?_entries]
  rw [parse, hconfig, ← options_toConfig]
  rfl


theorem valid_of_parse {text : String} (h : parse text = .ok options) :
    options.Fits ∧ options.batchLimit ≠ 0 ∧ options.newNodeName.toList.all Text.isBlank = false := by
  unfold parse at h
  cases hconfig : Config.parse text with
  | error e =>
    rw [hconfig] at h
    cases h
  | ok config =>
    rw [hconfig] at h
    exact (Config.fits_of_parse hconfig).options h

/-- Options with a number that is too large cannot be written. All others are, and what is written
is read as the same options, or refused for the limit of batches before it is refused for the name.
Whatever options a document sets can be written, and are read back from what is written. -/
theorem rendered_options_return :
    (∀ options : Options,
      (¬options.Fits → options.render = .error .tooLarge) ∧
      (options.Fits → ∃ text, options.render = .ok text ∧ parse text =
        if options.batchLimit = 0 then .error .zeroBatchLimit
        else if options.newNodeName.toList.all Text.isBlank then .error .blankNodeName
        else .ok options)) ∧
    ∀ text options, parse text = .ok options →
      ∃ again, options.render = .ok again ∧ parse again = .ok options := by
  refine ⟨fun options => ⟨fun h => if_neg (mt writable_iff.1 h), Fits.parse_render⟩, ?_⟩
  intro text options h
  obtain ⟨hfits, hlimit, hname⟩ := valid_of_parse h
  obtain ⟨again, hrender, hparse⟩ := hfits.parse_render
  rw [if_neg hlimit, hname, if_neg Bool.false_ne_true] at hparse
  exact ⟨again, hrender, hparse⟩

/-- The largest timeout, and a name that stands in three quotes; a limit that is too large; and a
document that sets little. -/
theorem rendered_options_return_quoted :
    (∃ text, render ⟨1, 0, some 9223372036854775807, 250, "It's \"new\"\n"⟩ = .ok text ∧
      parse text = .ok ⟨1, 0, some 9223372036854775807, 250, "It's \"new\"\n"⟩) ∧
    render { batchLimit := 9223372036854775808 } = .error .tooLarge ∧
    (∃ text, render { batchLimit := 0, newNodeName := "\t" } = .ok text ∧
      parse text = .error .zeroBatchLimit) ∧
    ∃ again, render { batchLimit := 7, newNodeName := "C:\\new" } = .ok again ∧
      parse again = .ok { batchLimit := 7, newNodeName := "C:\\new" } := by
  have hread : parse "[tree]\nincremental_batch_limit = 7\nnew_node_name = 'C:\\new' # plain" =
      .ok { batchLimit := 7, newNodeName := "C:\\new" } := by
    decide +kernel
  refine ⟨?_, ?_, ?_, rendered_options_return.2 _ _ hread⟩
  · exact (rendered_options_return.1 _).2 (writable_iff.1 (by decide +kernel))
  · exact (rendered_options_return.1 _).1 (mt writable_iff.2 (by decide +kernel))
  · exact (rendered_options_return.1 _).2 (writable_iff.1 (by decide +kernel))

end Options
end Inventory
