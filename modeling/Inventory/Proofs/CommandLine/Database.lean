import Inventory.CommandLine.Disk
import Inventory.Proofs.CommandLine.Commands
import Inventory.Proofs.CommandLine.Output

/-! # Databases between calls

A call writes nothing but the store that its command leaves, over the file that it has opened. So
every database that calls have made is at rest whenever none of them is under way, and a count finds
the cached amounts exact. -/
namespace Inventory.CommandLine
set_option autoImplicit false
open Inventory.Store

/-! ## Plans -/

namespace Plan
variable {plan : Plan}

/-- What is written is the store that the command of the plan has left. -/
theorem run_written {readOnly : Bool} {content : Except OpenFailure (Option Store)} {store : Store}
    (h : (plan.run readOnly content).2 = some store) : ∃ found, content = .ok found ∧
      store = (plan.command.serve plan.options (found.getD {})).2 := by
  cases content with
  | error failure =>
    cases failure <;> cases h
  | ok found =>
    refine ⟨found, rfl, ?_⟩
    rw [run] at h
    split_ifs at h
    cases hserve : plan.command.serve plan.options (found.getD {}) with
    | mk result after =>
      rw [hserve] at h
      cases result with
      | ok output =>
        cases h
        rfl
      | error e =>
        cases h
        rfl

/-- The plan counts a node of the store that it finds. -/
theorem run_count {store : Store} (hs : store.AtRest) {row : NodeRow} (hrow : row ∈ store.nodes)
    (hcommand : plan.command = .count row.id) (hwaits : plan.options.busyTimeout ≤ maxBusyTimeout)
    (readOnly : Bool) : ∃ key : Key, row.key = key.text ∧
      (plan.run readOnly (.ok (some store))).1 = .success (Output.render plan.format
        (.count row.id key (store.holdings row.hierarchy row.key).card
          (store.holdings row.hierarchy row.key).card)) := by
  obtain ⟨key, htext, hserve⟩ := Command.serve_count hs plan.options hrow
  rw [← hcommand] at hserve
  refine ⟨key, htext, ?_⟩
  rw [run, if_neg (not_not.2 hwaits)]
  cases readOnly with
  | false =>
    rw [if_neg Bool.false_ne_true, Option.getD_some, hserve]
  | true =>
    rw [if_pos rfl, runReadOnly]
    dsimp only
    rw [if_neg (not_not.2 hs.pending), hserve]
    dsimp only
    rw [if_neg]
    rintro (h | h)
    · cases h
    · exact h rfl

end Plan

/-! ## Files -/

namespace Disk
variable {disk disk' : Disk} {path : Path} {plan : Plan} {store : Store}

theorem lookup_filter {files : List (Path × Content)} {other : Path} (h : other ≠ path) :
    (files.filter (·.1 != path)).lookup other = files.lookup other := by
  induction files with
  | nil => rfl
  | cons file rest ih =>
    rw [List.filter_cons, List.lookup_cons]
    by_cases hfile : file.1 = path
    · rw [if_neg (by simpa using hfile), ih, beq_eq_false_iff_ne.2 (hfile ▸ h)]
    · rw [if_pos (by simpa using hfile), List.lookup_cons, ih]

theorem file?_write (disk : Disk) (path other : Path) (content : Content) :
    (disk.write path content).file? other =
      if other = path then some content else disk.file? other := by
  rw [file?, file?, write, List.lookup_cons]
  by_cases h : other = path
  · rw [if_pos h, beq_iff_eq.2 h]
  · rw [if_neg h, beq_eq_false_iff_ne.2 h]
    exact lookup_filter h

theorem openFile?_disk {location : Location} (h : disk.openFile? location = some (path, disk')) :
    disk' = disk ∨ disk' = disk.write path (.text "") := by
  obtain ⟨found, -, h⟩ := Option.bind_eq_some_iff.1 h
  split_ifs at h
  · cases h
    exact Or.inl rfl
  · cases h
    exact Or.inr rfl

theorem file?_of_readDatabase {readOnly : Bool}
    (h : disk.readDatabase path readOnly = .ok (some store)) :
    disk.file? path = some (.database store) := by
  rw [readDatabase] at h
  split at h
  · rename_i hfound
    cases h
    exact hfound
  · split_ifs at h
    cases h

/-- The file that a plan opens as its database, and the disk that has it. -/
def opened? (disk : Disk) (plan : Plan) : Option (Location × Path × Disk) :=
  match Location.parse plan.database with
  | .error _ => none
  | .ok location =>
    if location.isVolatile then none else (disk.openFile? location).map (location, ·)

/-- What is stored in the database of a plan, if that can be opened and is no empty file. -/
def stored? (disk : Disk) (plan : Plan) : Option Store :=
  match disk.opened? plan with
  | none => none
  | some (location, path, disk) =>
    match disk.readDatabase path location.isReadOnly with
    | .error _ => none
    | .ok found => found

/-- A plan leaves the disk as it is, or runs on what it finds in the file that it opens and writes
there what it has left. -/
theorem perform_cases (disk : Disk) (plan : Plan) :
    (disk.opened? plan = none ∧ (disk.perform plan).2 = disk) ∨
      ∃ location path disk', disk.opened? plan = some (location, path, disk') ∧
        disk.openFile? location = some (path, disk') ∧
        disk.perform plan =
          ((plan.run location.isReadOnly (disk'.readDatabase path location.isReadOnly)).1,
            (plan.run location.isReadOnly (disk'.readDatabase path location.isReadOnly)).2.elim disk'
              fun store => disk'.write path (.database store)) := by
  rw [opened?, perform]
  cases Location.parse plan.database with
  | error fault => exact Or.inl ⟨rfl, rfl⟩
  | ok location =>
    dsimp only
    by_cases hvolatile : location.isVolatile = true
    · rw [if_pos hvolatile, if_pos hvolatile]
      exact Or.inl ⟨rfl, rfl⟩
    · rw [if_neg hvolatile, if_neg hvolatile]
      cases hopen : disk.openFile? location with
      | none => exact Or.inl ⟨rfl, rfl⟩
      | some opened =>
        obtain ⟨path, disk'⟩ := opened
        refine Or.inr ⟨location, path, disk', rfl, hopen, ?_⟩
        dsimp only
        generalize plan.run location.isReadOnly (disk'.readDatabase path location.isReadOnly) = ended
        obtain ⟨exit, written⟩ := ended
        cases written with
        | none => rfl
        | some store => rfl

/-- Every database on the disk is at rest. -/
def AtRest (disk : Disk) : Prop :=
  ∀ path store, disk.file? path = some (.database store) → store.AtRest

theorem AtRest.write (h : disk.AtRest) {content : Content}
    (hcontent : ∀ store, content = .database store → store.AtRest) :
    (disk.write path content).AtRest := by
  intro other store hfound
  rw [file?_write] at hfound
  by_cases hother : other = path
  · rw [if_pos hother] at hfound
    exact hcontent store (Option.some.inj hfound)
  · rw [if_neg hother] at hfound
    exact h other store hfound

theorem AtRest.openFile? (h : disk.AtRest) {location : Location}
    (hopen : disk.openFile? location = some (path, disk')) : disk'.AtRest := by
  rcases openFile?_disk hopen with rfl | rfl
  · exact h
  · exact h.write fun _ htext => by cases htext

theorem AtRest.perform (h : disk.AtRest) (plan : Plan) : (disk.perform plan).2.AtRest := by
  rcases disk.perform_cases plan with ⟨-, hsame⟩ | ⟨location, path, disk', -, hopen, hrun⟩
  · rw [hsame]
    exact h
  · have hopened := h.openFile? hopen
    rw [hrun]
    cases hwritten :
        (plan.run location.isReadOnly (disk'.readDatabase path location.isReadOnly)).2 with
    | none => exact hopened
    | some after =>
      refine hopened.write fun store hstore => ?_
      cases hstore
      obtain ⟨found, hread, rfl⟩ := Plan.run_written hwritten
      apply Command.serve_atRest
      cases found with
      | none => exact tidy_empty
      | some before => exact (hopened path before (file?_of_readDatabase hread)).toTidy

theorem AtRest.call (h : disk.AtRest) (environment : Environment) (args : List String) :
    (disk.call environment args).2.AtRest := by
  rw [Disk.call]
  cases disk.plan environment args with
  | error exit => exact h
  | ok plan => exact h.perform plan

/-- A plan is carried out on what is stored in its database. -/
theorem AtRest.perform_stored (h : disk.AtRest) (hstored : disk.stored? plan = some store) :
    store.AtRest ∧ ∃ readOnly, (disk.perform plan).1 = (plan.run readOnly (.ok (some store))).1 := by
  rw [stored?] at hstored
  rcases disk.perform_cases plan with ⟨hnone, -⟩ | ⟨location, path, disk', hsome, hopen, hrun⟩
  · rw [hnone] at hstored
    cases hstored
  · rw [hsome] at hstored
    dsimp only at hstored
    cases hread : disk'.readDatabase path location.isReadOnly with
    | error failure =>
      rw [hread] at hstored
      cases hstored
    | ok found =>
      rw [hread] at hstored hrun
      cases hstored
      refine ⟨h.openFile? hopen path store (file?_of_readDatabase hread), location.isReadOnly, ?_⟩
      rw [hrun]

/-! ## Sequences of calls -/

/-- The disks that calls lead to from one without a database. Between calls others may change the
files, but every database that they leave is one that calls have made. -/
inductive Used : Disk → Prop
  | fresh {disk : Disk} (h : ∀ path store, disk.file? path ≠ some (.database store)) : Used disk
  | call {disk : Disk} (h : Used disk) (environment : Environment) (args : List String) :
      Used (disk.call environment args).2
  | edit {disk disk' : Disk} (h : Used disk) (hkept : ∀ path store,
      disk'.file? path = some (.database store) → ∃ old, disk.file? old = some (.database store)) :
      Used disk'

theorem Used.atRest (h : disk.Used) : disk.AtRest := by
  induction h with
  | fresh hnone => exact fun path store hfound => absurd hfound (hnone path store)
  | call _ environment args ih => exact ih.call environment args
  | edit _ hkept ih =>
    intro path store hfound
    obtain ⟨old, hold⟩ := hkept path store hfound
    exact ih old store hold

/-- After every call, however it has ended, nothing is marked in a database and all its cached
amounts are exact. A call that is to count a node of a database, and that can set its wait for it,
succeeds and prints the exact number twice. -/
theorem Used.amounts_exact (h : disk.Used) :
    (∀ path store, disk.file? path = some (.database store) → store.pending = [] ∧
      ∀ row ∈ store.nodes, row.amount =
        ({asset | ∃ below, store.Descends row below ∧ (asset, below.id) ∈ store.attachments} :
          Set AssetId).ncard) ∧
    ∀ environment args plan id store, disk.plan environment args = .ok plan →
      plan.command = .count id → plan.options.busyTimeout ≤ Plan.maxBusyTimeout →
      disk.stored? plan = some store → ∀ row ∈ store.nodes, row.id = id →
        ∃ n : Nat,
          n = ({asset | ∃ below, store.Descends row below ∧ (asset, below.id) ∈ store.attachments} :
            Set AssetId).ncard ∧
          (plan.format = .text → (disk.call environment args).1 =
            { code := 0, output := s!"{row.key} cached={n} computed={n}\n" }) ∧
          (plan.format = .json → (disk.call environment args).1 =
            { code := 0, output :=
              s!"\x7b\n  \"node\": {id},\n  \"key\": \"{row.key}\",\n  \"cached\": {n},\n  \"computed\": {n}\n\x7d\n" }) := by
  constructor
  · intro path store hfound
    have hs := h.atRest path store hfound
    refine ⟨hs.pending, fun row hrow => ?_⟩
    rw [hs.amount_eq_card hrow, hs.card_holdings hrow]
  · rintro environment args plan id store hplan hcommand hwaits hstored row hrow rfl
    obtain ⟨hs, readOnly, hexit⟩ := h.atRest.perform_stored hstored
    obtain ⟨key, htext, hrun⟩ := Plan.run_count hs hrow hcommand hwaits readOnly
    have hcall : (disk.call environment args).1 = .success (Output.render plan.format
        (.count row.id key (store.holdings row.hierarchy row.key).card
          (store.holdings row.hierarchy row.key).card)) := by
      rw [Disk.call, hplan]
      exact hexit.trans hrun
    refine ⟨_, hs.card_holdings hrow, fun hformat => ?_, fun hformat => ?_⟩
    · rw [hcall, hformat, Output.render_count_text, ← htext]
      rfl
    · rw [hcall, hformat, Output.render_count_json, ← htext]
      rfl

/-- The disk after calls, one after another. -/
def after (disk : Disk) (environment : Environment) (calls : List (List String)) : Disk :=
  calls.foldl (fun disk args => (disk.call environment args).2) disk

theorem Used.after (h : disk.Used) (environment : Environment) (calls : List (List String)) :
    (disk.after environment calls).Used := by
  induction calls generalizing disk with
  | nil => exact h
  | cons args rest ih => exact ih (h.call environment args)

/-- A configuration that leaves the amounts of every batch of two for later. -/
def workshop : Disk where
  workingDirectory := ["workshop"]
  files := [(["workshop", "tree.toml"], .text "[tree]\nincremental_batch_limit = 1\n")]

/-- The database and the configuration in the workshop. -/
def settings : Environment := { db := some "tree.db", config := some "tree.toml" }

/-- An asset is put on a node and moved, which makes a batch of two; it is not on the last node. -/
def errands : List (List String) :=
  [["init", "Library"], ["asset", "1", "Atlas", "--node", "1"], ["reassign", "1", "1"],
    ["detach", "9", "1"]]

/-- The plan of a count of the root. -/
def inquiry (format : Format) : Plan where
  database := "tree.db"
  options := { batchLimit := 1 }
  format
  command := .count 1

/-- What the errands leave in the database. -/
def stock : Store where
  hierarchies := [⟨1, "Library"⟩]
  nodes := [⟨1, 1, "1", "", "Library", "/Library", 1⟩]
  assets := [⟨1, 1, "Atlas"⟩]
  attachments := [(1, 1)]

theorem used_workshop : workshop.Used := by
  apply Used.fresh
  intro path store hfound
  rw [workshop, file?, List.lookup_cons] at hfound
  split at hfound
  · cases hfound
  · cases hfound

/-- The last of the errands fails, and a count finds what the move has left for later. -/
theorem amounts_exact_workshop :
    ((workshop.after settings (errands.take 3)).call settings ["detach", "9", "1"]).1.code = 1 ∧
      ((workshop.after settings errands).call settings ["count", "1"]).1 =
        { code := 0, output := "1 cached=1 computed=1\n" } ∧
      ((workshop.after settings errands).call settings ["--format", "json", "count", "1"]).1 =
        { code := 0, output :=
          "\x7b\n  \"node\": 1,\n  \"key\": \"1\",\n  \"cached\": 1,\n  \"computed\": 1\n\x7d\n" } := by
  have hfile : (workshop.after settings errands).file? ["workshop", "tree.db"] =
      some (.database stock) := by decide +kernel
  have hstored : ∀ format, (workshop.after settings errands).stored? (inquiry format) = some stock := by
    intro format
    cases format with
    | text => decide +kernel
    | json => decide +kernel
  have hline : (workshop.after settings errands).plan settings ["count", "1"] =
      .ok (inquiry .text) := by decide +kernel
  have hdocument : (workshop.after settings errands).plan settings
      ["--format", "json", "count", "1"] = .ok (inquiry .json) := by decide +kernel
  obtain ⟨hexact, hcounts⟩ := Used.amounts_exact (used_workshop.after settings errands)
  have hone := (hexact _ _ hfile).2 _ (List.mem_singleton_self _)
  refine ⟨by decide +kernel, ?_, ?_⟩
  · obtain ⟨n, hn, htext, -⟩ := hcounts settings _ _ 1 _ hline rfl (by decide) (hstored .text) _
      (List.mem_singleton_self _) rfl
    rw [← hn] at hone
    obtain rfl : 1 = n := Int.ofNat.inj hone
    exact htext rfl
  · obtain ⟨n, hn, -, hjson⟩ := hcounts settings _ _ 1 _ hdocument rfl (by decide) (hstored .json) _
      (List.mem_singleton_self _) rfl
    rw [← hn] at hone
    obtain rfl : 1 = n := Int.ofNat.inj hone
    exact hjson rfl

end Disk
end Inventory.CommandLine
