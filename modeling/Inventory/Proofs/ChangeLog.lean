import Inventory.Proofs.Runs
import Inventory.Proofs.Tree.Notices

/-! # Notices are a change log

Whoever starts from nothing and carries out what the notices say of rows that have gone and rows
that have come has the attachments at any time, and never meets a row to remove that is not there or
one to add that is. Each removal has been announced before. -/
namespace Inventory
set_option autoImplicit false

/-! ## Replaying notices -/

/-- Carries out what one row of a notice says. -/
def Phase.replayRow (phase : Phase) (links : Finset Attachment) (row : Attachment) :
    Option (Finset Attachment) :=
  match phase with
  | beforeRemove => some links
  | afterRemove => if row ∈ links then some (links.erase row) else none
  | afterAdd => if row ∈ links then none else some (insert row links)

/-- Carries out what a notice says, row by row; it fails at a row to remove that is not there and at
a row to add that is. -/
def Notice.replay (links : Finset Attachment) (n : Notice) : Option (Finset Attachment) :=
  (Change.rows n.changes).foldlM n.phase.replayRow links

section Replay
variable (links : Finset Attachment) {rows : List Attachment}

theorem Phase.replay_before (rows : List Attachment) :
    rows.foldlM beforeRemove.replayRow links = some links := by
  induction rows with
  | nil => rfl
  | cons row rest ih => exact ih

theorem Phase.replay_gone (hn : rows.Nodup) (h : ∀ row ∈ rows, row ∈ links) :
    rows.foldlM afterRemove.replayRow links = some (links \ rows.toFinset) := by
  induction rows generalizing links with
  | nil => simp
  | cons row rest ih =>
    rw [List.nodup_cons] at hn
    have hrest : ∀ other ∈ rest, other ∈ links.erase row := fun other hother =>
      Finset.mem_erase.2 ⟨fun heq => hn.1 (heq ▸ hother), h other (List.mem_cons_of_mem _ hother)⟩
    rw [List.foldlM_cons, replayRow, if_pos (h row List.mem_cons_self)]
    refine (ih _ hn.2 hrest).trans (congrArg some ?_)
    rw [List.toFinset_cons, Finset.sdiff_insert, Finset.erase_sdiff_comm]

theorem Phase.replay_come (hn : rows.Nodup) (h : ∀ row ∈ rows, row ∉ links) :
    rows.foldlM afterAdd.replayRow links = some (links ∪ rows.toFinset) := by
  induction rows generalizing links with
  | nil => simp
  | cons row rest ih =>
    rw [List.nodup_cons] at hn
    have hrest : ∀ other ∈ rest, other ∉ insert row links := by
      intro other hother hin
      rcases Finset.mem_insert.1 hin with rfl | hin
      · exact hn.1 hother
      · exact h other (List.mem_cons_of_mem _ hother) hin
    rw [List.foldlM_cons, replayRow, if_neg (h row List.mem_cons_self)]
    refine (ih _ hn.2 hrest).trans (congrArg some ?_)
    rw [List.toFinset_cons, Finset.insert_union, Finset.union_insert]

theorem replay_told (phase : Phase) (host : HierarchyId) (changes : List Change) :
    (told phase host changes).foldlM Notice.replay links =
      (Change.rows changes).foldlM phase.replayRow links := by
  cases changes with
  | nil => rfl
  | cons first rest =>
    rw [told, List.isEmpty_cons, if_neg Bool.false_ne_true]
    exact bind_pure _

/-- Warnings change nothing. -/
theorem replay_warnings {said : List Notice} (h : ∀ n ∈ said, n.phase = .beforeRemove) :
    said.foldlM Notice.replay links = some links := by
  induction said with
  | nil => rfl
  | cons n rest ih =>
    rw [List.foldlM_cons, Notice.replay, h n List.mem_cons_self, Phase.replay_before]
    exact ih fun other hother => h other (List.mem_cons_of_mem _ hother)

end Replay

/-! ## One operation -/

/-- Every removal has been announced before by one notice, for the same hierarchy and with the same
rows. -/
def Announced (said : List Notice) : Prop :=
  ∀ earlier n later, said = earlier ++ n :: later → n.phase = .afterRemove →
    ∃ warning, earlier.filter (·.phase = .beforeRemove) = [warning] ∧
      warning.hierarchy = n.hierarchy ∧
      (Change.rows warning.changes).Perm (Change.rows n.changes)

namespace Store
variable {s s' : Store} {said : List Notice}

theorem Exchanged.replay {gone come : List Attachment} (h : Exchanged gone come s s') :
    s'.attachments.toFinset = s.attachments.toFinset \ gone.toFinset ∪ come.toFinset := by
  ext link
  simp only [Finset.mem_union, Finset.mem_sdiff, List.mem_toFinset]
  exact h.mem link

theorem Reports.replay (h : s.Reports said s') :
    said.foldlM Notice.replay s.attachments.toFinset = some s'.attachments.toFinset := by
  obtain ⟨host, planned, gone, come, rfl, -, -, hexchanged⟩ := h
  have hgone := Phase.replay_gone s.attachments.toFinset hexchanged.goneOnce
    fun row hrow => List.mem_toFinset.2 (hexchanged.old row hrow)
  have hcome := Phase.replay_come (s.attachments.toFinset \ (Change.rows gone).toFinset)
    hexchanged.comeOnce fun row hrow hin => by
      obtain ⟨hold, hkept⟩ := Finset.mem_sdiff.1 hin
      exact hkept (List.mem_toFinset.2 (hexchanged.new row hrow (List.mem_toFinset.1 hold)))
  rw [List.foldlM_append, List.foldlM_append, replay_told, Phase.replay_before, hexchanged.replay]
  show (((told .afterRemove host gone).foldlM Notice.replay _).bind fun links =>
    (told .afterAdd host come).foldlM Notice.replay links) = _
  rw [replay_told, hgone]
  exact (replay_told _ .afterAdd host come).trans hcome

theorem Reports.announced (h : s.Reports said s') : Announced said := by
  obtain ⟨host, planned, gone, come, rfl, hempty, hperm, -⟩ := h
  intro earlier n later hsaid hphase
  have hlate : ∀ rest, told .afterAdd host come = rest ++ n :: later → False := by
    intro rest hrest
    have hin : n ∈ told .afterAdd host come := hrest ▸ List.mem_append_right _ List.mem_cons_self
    rw [(phase_of_told hin).1] at hphase
    cases hphase
  cases gone with
  | nil =>
    have hin : n ∈ told .beforeRemove host planned ++ [] ++ told .afterAdd host come :=
      hsaid ▸ List.mem_append_right _ List.mem_cons_self
    rw [List.append_nil] at hin
    rcases List.mem_append.1 hin with hin | hin
    · rw [(phase_of_told hin).1] at hphase
      cases hphase
    · rw [(phase_of_told hin).1] at hphase
      cases hphase
  | cons first others =>
    cases planned with
    | nil => exact absurd (hempty rfl) (List.cons_ne_nil _ _)
    | cons warned more =>
      -- a warning, a removal, and perhaps additions: the removal is the second of them
      cases earlier with
      | nil =>
        cases hsaid
        cases hphase
      | cons warning rest =>
        cases rest with
        | nil =>
          cases hsaid
          exact ⟨_, rfl, rfl, hperm⟩
        | cons _ rest => exact absurd (List.cons.inj (List.cons.inj hsaid).2).2 (hlate rest)

end Store

/-- What an operation adds to a log that is kept from the stores before and after it. -/
structure Chronicled (s : Store) (said : List Notice) (r : Except Error Answer) (s' : Store) :
    Prop where
  sound : s'.Sound
  replay : said.foldlM Notice.replay s.attachments.toFinset = some s'.attachments.toFinset
  announced : Announced said
  refused : ∀ e, r = .error e → ∀ n ∈ said, n.phase = .beforeRemove

/-- Warnings announce themselves. -/
theorem announced_of_warnings {said : List Notice} (h : ∀ n ∈ said, n.phase = .beforeRemove) :
    Announced said := by
  intro earlier n later hsaid hphase
  have hin : n ∈ said := hsaid ▸ List.mem_append_right _ List.mem_cons_self
  rw [h n hin] at hphase
  cases hphase

theorem Request.chronicled (request : Request) {w : World (List Notice)} (hs : w.tree.store.Sound) :
    ∃ said, (request.run Surroundings.journal w).2.outside = w.outside ++ said ∧
      Chronicled w.tree.store said (request.run Surroundings.journal w).1
        (request.run Surroundings.journal w).2.tree.store := by
  have hsound := ((ensures_effect Surroundings.passive_journal request w rfl).2 hs).sound
  cases hresult : (request.run Surroundings.journal w).1 with
  | ok answer =>
    obtain ⟨said, hsaid, hreports⟩ := request.told w answer hresult
    have hreported := hreports hs
    exact ⟨said, hsaid, hsound, hreported.replay, hreported.announced, fun e he => by cases he⟩
  | error e =>
    have hundone := request.withdraws Surroundings.passive_journal w e hresult
    obtain ⟨said, hsaid, hbefore⟩ := Surroundings.journal_forewarned hundone.outside
    refine ⟨said, hsaid, hsound, ?_, announced_of_warnings hbefore, fun _ _ => hbefore⟩
    rw [hundone.tree]
    exact replay_warnings _ hbefore

/-! ## Whole runs -/

/-- A store that has come about from the empty one, with the notices that an observer has got on the
way. Each request may meet other options, leases and jobs than the one before, and may fail; jobs
may repair hierarchies in between. -/
inductive Store.Logged : List Notice → Store → Prop
  | empty : Logged [] {}
  | serve {w : World (List Notice)} (h : Logged w.outside w.tree.store) (request : Request) :
      Logged (request.run Surroundings.journal w).2.outside
        (request.run Surroundings.journal w).2.tree.store
  | repair {w : World (List Notice)} (h : Logged w.outside w.tree.store) (host : HierarchyId) :
      Logged (Tree.reconcile host .repair Surroundings.journal w).2.outside
        (Tree.reconcile host .repair Surroundings.journal w).2.tree.store

namespace Store
variable {log : List Notice} {s : Store}

theorem Logged.exact (h : Logged log s) :
    s.Sound ∧ log.foldlM Notice.replay ∅ = some s.attachments.toFinset := by
  induction h with
  | empty => exact ⟨sound_empty, rfl⟩
  | serve _ request ih =>
    obtain ⟨hs, hlog⟩ := ih
    obtain ⟨said, hsaid, hstep⟩ := request.chronicled hs
    refine ⟨hstep.sound, ?_⟩
    rw [hsaid, List.foldlM_append, hlog]
    exact hstep.replay
  | @repair w _ host ih =>
    obtain ⟨hs, hlog⟩ := ih
    obtain ⟨hsound, hattached, -⟩ := Tree.repair_mends Surroundings.passive_journal host w hs
    refine ⟨hsound, ?_⟩
    rw [Tree.silent_reconcile host .repair w, hattached]
    exact hlog

end Store

/-- A tree with a journal after some requests. -/
def World.heard (w : World (List Notice)) (requests : List Request) : World (List Notice) :=
  requests.foldl (fun w request => (request.run Surroundings.journal w).2) w

theorem Store.logged_heard {w : World (List Notice)} (h : Logged w.outside w.tree.store)
    (requests : List Request) :
    Logged (w.heard requests).outside (w.heard requests).tree.store := by
  induction requests generalizing w with
  | nil => exact h
  | cons request rest ih => exact ih (h.serve request)

namespace Store
variable {log : List Notice} {s : Store}

/-- The notices of any run are an exact log of the attachments. What the next operation adds to it
are rows that were announced before they went, and nothing but announcements where it fails. -/
theorem Logged.change_log (h : Logged log s) :
    s.attachments.Nodup ∧ log.foldlM Notice.replay ∅ = some s.attachments.toFinset ∧
      ∀ (tree : Tree) (request : Request), tree.store = s →
        ∃ said, (request.run Surroundings.journal ⟨tree, log⟩).2.outside = log ++ said ∧
          Announced said ∧
          ∀ e, (request.run Surroundings.journal ⟨tree, log⟩).1 = .error e →
            ∀ n ∈ said, n.phase = .beforeRemove := by
  obtain ⟨hs, hlog⟩ := h.exact
  refine ⟨hs.single, hlog, fun tree request htree => ?_⟩
  obtain ⟨said, hsaid, hstep⟩ := request.chronicled (w := ⟨tree, log⟩) (htree ▸ hs)
  exact ⟨said, hsaid, hstep.announced, hstep.refused⟩

/-- An atlas is moved to the node that it is on, taken off it and so put on the root, and taken off
the root and put there again. A move that is refused comes last. -/
theorem change_log_library :
    ∃ log s, Logged log s ∧
      log.map (·.phase) = [.afterAdd, .beforeRemove, .afterRemove, .afterAdd, .beforeRemove,
        .afterRemove, .afterAdd, .beforeRemove, .afterRemove, .afterAdd] ∧
      log.foldlM Notice.replay ∅ = some [(1, 1)].toFinset ∧
      ∀ (tree : Tree) (request : Request), tree.store = s →
        ∃ said, (request.run Surroundings.journal ⟨tree, log⟩).2.outside = log ++ said ∧
          Announced said ∧
          ∀ e, (request.run Surroundings.journal ⟨tree, log⟩).1 = .error e →
            ∀ n ∈ said, n.phase = .beforeRemove := by
  let script := library ++ [.reassign [1] 2, .detach 2 [1], .detach 1 [1], .reassign [2] 1]
  have hlogged := logged_heard (w := ⟨{}, []⟩) .empty script
  have hrows : (World.heard ⟨{}, []⟩ script).tree.store.attachments = [(1, 1)] := by decide +kernel
  obtain ⟨-, hreplay, hnext⟩ := hlogged.change_log
  rw [hrows] at hreplay
  exact ⟨_, _, hlogged, by decide +kernel, hreplay, hnext⟩

end Store
end Inventory
