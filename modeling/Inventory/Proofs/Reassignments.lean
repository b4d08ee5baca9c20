import Inventory.Proofs.Forest
import Inventory.Proofs.Store.Progress

/-! # Moves under concurrent edits

Attachments may be edited while a move is between its snapshot and its transaction. If a row of the
snapshot has gone by then, the move is refused. If not, it goes through, and what was added to the
assets meanwhile stays beside their rows to the target. -/
namespace Inventory
set_option autoImplicit false
open Inventory.Store Inventory.Action Relation
variable {σ : Type} {env : Surroundings σ} {options : Options}

/-! ## Edits leave everything but attachments alone -/

/-- The requests that attach or detach, in either shape. -/
def Request.isEdit : Request → Bool
  | attach _ _ | detach _ _ | attachToNodes _ _ | detachFromNodes _ _ => true
  | _ => false

theorem Store.Attached.alike {propagate : Bool} {hierarchy : HierarchyId} {rows : List Attachment}
    {s s' : Store} (h : Attached propagate hierarchy rows s s') : Alike s s' := by
  rw [h.result]
  exact (alike_adding ..).trans (alike_marking ..)

theorem Store.Detached.alike {propagate : Bool} {hierarchy : HierarchyId}
    {gone rehomed : List Attachment} {s s' : Store}
    (h : Detached propagate hierarchy gone rehomed s s') : Alike s s' := by
  rw [h.result]
  exact (alike_removing ..).trans ((alike_adding ..).trans (alike_marking ..))

theorem Request.ensures_edit (henv : env.Passive) {request : Request}
    (hedit : request.isEdit = true) :
    Ensures env options (request.run : Action σ Answer) fun s _ s' => s.Sound → Alike s s' := by
  have hnothing : Ensures env options (pure (.outcome {}) : Action σ Answer)
      fun s _ s' => s.Sound → Alike s s' := fun w hw => ⟨hw, fun _ => Alike.refl _⟩
  cases request with
  | attach id batch =>
    by_cases hnone : batch.eraseDups = []
    · cases eq_nil_of_eraseDups hnone
      exact hnothing
    · refine (Tree.ensures_attach henv.moves id hnone).unasked.relates Alike.refl .outcome ?_
      exact fun s _ made s' hs _ h => (attachAll_eq_ok hs.formed h).1.alike
  | detach id batch =>
    by_cases hnone : batch.eraseDups = []
    · cases eq_nil_of_eraseDups hnone
      exact hnothing
    · refine (Tree.ensures_detach henv.moves id hnone).relates Alike.refl .outcome ?_
      exact fun s _ outcome s' hs _ h => (detachAll_eq_ok hs.formed h).1.alike
  | attachToNodes id places =>
    by_cases hnone : places.eraseDups = []
    · cases eq_nil_of_eraseDups hnone
      exact hnothing
    · refine (Tree.ensures_attachToNodes henv.moves id hnone).unasked.relates Alike.refl .outcome ?_
      intro s _ made s' hs _ h
      obtain ⟨_, -, hattached, -⟩ := attachToAll_eq_ok hs.formed h
      exact hattached.alike
  | detachFromNodes id places =>
    by_cases hnone : places.eraseDups = []
    · cases eq_nil_of_eraseDups hnone
      exact hnothing
    · refine (Tree.ensures_detachFromNodes henv.moves id hnone).relates Alike.refl .outcome ?_
      intro s _ outcome s' hs _ h
      obtain ⟨_, -, -, -, hdetached, -⟩ := detachFromAll_eq_ok hs.formed h
      exact hdetached.alike
  | _ => cases hedit

namespace Store
variable {s t : Store}

/-- Any number of edits one after another. -/
abbrev Edits : Store → Store → Prop := ReflTransGen (Serves Request.isEdit)

theorem alike_of_edits (h : Edits s t) (hs : s.Sound) : Alike s t ∧ t.Sound := by
  induction h with
  | refl => exact ⟨Alike.refl s, hs⟩
  | tail _ hstep ih =>
    refine ⟨ih.1.trans ?_, hstep.sound ih.2⟩
    obtain ⟨_, env, w, request, henv, hedit, rfl, rfl⟩ := hstep
    exact (Request.ensures_edit henv hedit w rfl).2 ih.2

end Store

/-! ## From the snapshot to the transaction -/

namespace Tree

/-- A move whose reads go through asks for the lease of its target's hierarchy. -/
theorem reassign_of_observe {w : World σ} {assets : List AssetId} (hne : assets.eraseDups ≠ [])
    {target : NodeId} {found : HierarchyId × List Attachment}
    (hread : observe assets.eraseDups target w.tree.store = .ok found) :
    reassign assets target env w =
      holding found.1 (moveObserved found.1 target assets.eraseDups found.2) env w := by
  obtain ⟨hierarchy, hfound, hrest⟩ := Inventory.bind_eq_ok.1 hread
  obtain ⟨rows, hrows, hpair⟩ := Inventory.bind_eq_ok.1 hrest
  cases hpair
  have hhierarchy : hierarchyOf target env w = (.ok hierarchy, w) := by
    rw [hierarchyOf, map_run]
    exact congrArg (·, w) hfound
  have hobserved : Action.read (rowsToMove assets.eraseDups hierarchy) env w = (.ok rows, w) :=
    congrArg (·, w) hrows
  rw [reassign, bind_of_ok hhierarchy, if_neg (by simpa using hne)]
  exact bind_of_ok hobserved

/-- Under the lease the rows of the batch are compared with those that were seen before. -/
theorem moveObserved_run (hierarchy : HierarchyId) (target : NodeId) (assets : List AssetId)
    (observed : List Attachment) (w : World σ) :
    moveObserved hierarchy target assets observed env w =
      if w.tree.store.attachmentsOf assets = observed then
        moveSeen hierarchy target assets observed env w
      else (.error (.conflict observed.length (w.tree.store.attachmentsOf assets).length), w) := by
  have hagain : Action.read (fun s => .ok (s.attachmentsOf assets)) env w =
      (.ok (w.tree.store.attachmentsOf assets), w) := rfl
  rw [moveObserved_eq, bind_of_ok hagain]
  by_cases hsame : w.tree.store.attachmentsOf assets = observed
  · rw [if_pos hsame, if_pos hsame]
  · rw [if_neg hsame, if_neg hsame]
    rfl

/-- While nobody acts before the lease and the lease is free, a move whose reads went through tells
observers of its rows, and nothing but its transaction on the store that they leave can stop it. -/
theorem reassign_ends {moves : Store → Store → Prop} (henv : env.Moves moves)
    (hwait : ∀ hierarchy w, env (.waiting hierarchy) w = w) {w : World σ} {assets : List AssetId}
    (hne : assets.eraseDups ≠ []) {target : NodeId} {found : HierarchyId × List Attachment}
    (hread : observe assets.eraseDups target w.tree.store = .ok found)
    (hfree : w.tree.leases.isHeld found.1 = false) :
    Ends (fun _ => False) Eq
      (Store.move found.1 target assets.eraseDups found.2
        (w.tree.options.propagates (found.2.length + assets.eraseDups.length)))
      (reassignment w.tree.options assets.eraseDups target found.2)
      ((w.granted found.1).forewarned env found.1 (Change.group found.2)).tree.store
      (reassign assets target env w).1 (reassign assets target env w).2.tree.store := by
  have hsnapshot : (w.granted found.1).tree.store.attachmentsOf assets.eraseDups = found.2 := by
    obtain ⟨_, -, hrest⟩ := Inventory.bind_eq_ok.1 hread
    obtain ⟨rows, hrows, hpair⟩ := Inventory.bind_eq_ok.1 hrest
    cases hpair
    obtain ⟨_, -, hsame⟩ := Inventory.bind_eq_ok.1 hrows
    exact Except.ok.inj hsame
  obtain ⟨-, hoptions⟩ := henv.forewarned (w.granted found.1) found.1 (Change.group found.2)
  rw [reassign_of_observe hne hread, holding_granted (hwait found.1 w) hfree, moveObserved_run,
    if_pos hsnapshot, moveSeen_run]
  exact (ensures_moveTold henv found.1 target assets.eraseDups found.2 _ hoptions).2

theorem reassign_nil {w : World σ} {target : NodeId} {found : HierarchyId × List Attachment}
    (hread : observe [] target w.tree.store = .ok found) :
    reassign [] target env w = (.ok { target }, w) := by
  obtain ⟨hierarchy, hfound, -⟩ := Inventory.bind_eq_ok.1 hread
  have hhierarchy : hierarchyOf target env w = (.ok hierarchy, w) := by
    rw [hierarchyOf, map_run]
    exact congrArg (·, w) hfound
  rw [reassign, bind_of_ok hhierarchy]
  rfl

end Tree

/-! ## What becomes of a move -/

/-- The move is a conflict and leaves the store as others have left it. -/
def Refused (r : Except Error Answer) (t s' : Store) : Prop :=
  (∃ expected actual, r = .error (.conflict expected actual)) ∧ s' = t

/-- Each asset of the batch has one attachment, to the target. -/
def MovedTo (batch : List AssetId) (target : NodeId) (s' : Store) : Prop :=
  ∀ id ∈ batch, ∀ node, (id, node) ∈ s'.relation ↔ node = target

theorem not_refused_of_isOk {r : Except Error Answer} {t s' : Store} (h : r.isOk = true) :
    ¬Refused r t s' := by
  rintro ⟨⟨_, _, rfl⟩, -⟩
  cases h

theorem not_movedTo_of_mem {batch : List AssetId} {target : NodeId} {s' : Store} {link : Attachment}
    (hbatch : link.1 ∈ batch) (hlink : link ∈ s'.attachments) (hne : link.2 ≠ target) :
    ¬MovedTo batch target s' := fun h => hne ((h link.1 hbatch link.2).1 hlink)

/-- The move has replaced the rows that it saw in the first store and left the others; the second
store is the one that its transaction has found. -/
structure Replaced (batch : List AssetId) (target : NodeId) (s t : Store) (r : Except Error Answer)
    (s' : Store) : Prop where
  answer : ∃ moved, r = .ok (.reassignment moved)
  relation : s'.relation = t.relation \ {link | link ∈ s.relation ∧ link.1 ∈ batch} ∪
    pairs batch [target]

/-- The batch is on the target alone exactly if all rows that came meanwhile lead there. -/
theorem Replaced.movedTo_iff {batch : List AssetId} {target : NodeId} {s t s' : Store}
    {r : Except Error Answer} (h : Replaced batch target s t r s') :
    MovedTo batch target s' ↔
      ∀ link ∈ t.relation, link.1 ∈ batch → link ∈ s.relation ∨ link.2 = target := by
  have hmem : ∀ {link : Attachment}, link.1 ∈ batch →
      (link ∈ s'.relation ↔ link ∈ t.relation ∧ link ∉ s.relation ∨ link.2 = target) := by
    intro link hbatch
    rw [h.relation, Set.mem_union, Set.mem_sdiff, Set.mem_ofPred_eq, mem_pairs, List.mem_singleton]
    simp only [hbatch, and_true, true_and]
  constructor
  · intro hmoved link hlink hbatch
    by_cases hseen : link ∈ s.relation
    · exact Or.inl hseen
    · exact Or.inr ((hmoved link.1 hbatch link.2).1 ((hmem hbatch).2 (Or.inl ⟨hlink, hseen⟩)))
  · intro hseen id hid node
    have hid' : (id, node).1 ∈ batch := hid
    rw [hmem hid']
    refine ⟨fun hlink => ?_, Or.inr⟩
    rcases hlink with ⟨hlink, hnew⟩ | htarget
    · exact (hseen (id, node) hlink hid).resolve_left hnew
    · exact htarget

/-- What becomes of a move that has seen the first store and whose transaction finds the second. If
a row of the batch is gone, it is refused. If none is, it replaces those rows and leaves others, and
the batch ends up on the target alone exactly if no row came that leads elsewhere. -/
def MoveEnds (batch : List AssetId) (target : NodeId) (s t : Store) (r : Except Error Answer)
    (s' : Store) : Prop :=
  (∃ link ∈ s.relation, link.1 ∈ batch ∧ link ∉ t.relation) ∧ Refused r t s' ∨
    (∀ link ∈ s.relation, link.1 ∈ batch → link ∈ t.relation) ∧ Replaced batch target s t r s' ∧
      (MovedTo batch target s' ↔
        ∀ link ∈ t.relation, link.1 ∈ batch → link ∈ s.relation ∨ link.2 = target)

section Transaction
variable {batch : List AssetId} {target : NodeId} {s t s' : Store}
  {found : HierarchyId × List Attachment}

theorem mem_snapshot (hs : s.Sound) (hread : Tree.observe batch.eraseDups target s = .ok found)
    (link : Attachment) : link ∈ found.2 ↔ link ∈ s.relation ∧ link.1 ∈ batch := by
  obtain ⟨-, -, hobserved⟩ := Tree.observe_eq_ok hs.formed hread
  rw [hobserved, mem_attachmentsOf, List.mem_eraseDups, mem_relation]

/-- A transaction that is carried out has found the rows of the snapshot and replaces them. -/
theorem replaced_of_move (hs : s.Sound) (ht : t.Sound)
    (hread : Tree.observe batch.eraseDups target s = .ok found) {propagate : Bool}
    {added : Edited AssetId}
    (h : Store.move found.1 target batch.eraseDups found.2 propagate t = .ok (added, s'))
    (moved : Reassignment) :
    (∀ link ∈ s.relation, link.1 ∈ batch → link ∈ t.relation) ∧
      Replaced batch target s t (.ok (.reassignment moved)) s' := by
  have hrows := mem_snapshot hs hread
  obtain ⟨row, hid, hmoved⟩ := move_eq_ok ht.toSteady h
  refine ⟨fun link hlink hbatch => hmoved.old link ((hrows link).2 ⟨hlink, hbatch⟩), ⟨_, rfl⟩, ?_⟩
  ext link
  rw [mem_relation, hmoved.mem_attachments, hrows, Set.mem_union, Set.mem_sdiff,
    Set.mem_ofPred_eq, mem_pairs, List.mem_singleton, List.mem_eraseDups, hid]
  exact Iff.rfl

/-- A transaction that fails has found a row of the snapshot gone, and then it is a conflict. -/
theorem conflict_of_move (hs : s.Sound) (ht : t.Tidy) (halike : Alike s t)
    (hread : Tree.observe batch.eraseDups target s = .ok found) {propagate : Bool} {e : Error}
    (h : Store.move found.1 target batch.eraseDups found.2 propagate t = .error e) :
    (∃ link ∈ s.relation, link.1 ∈ batch ∧ link ∉ t.relation) ∧
      ∃ expected actual, e = .conflict expected actual := by
  have hrows := mem_snapshot hs hread
  obtain ⟨⟨row, hrow, -, hh⟩, hknown, -⟩ := Tree.observe_eq_ok hs.formed hread
  obtain ⟨_, hfound, -⟩ := Inventory.bind_eq_ok.1 hread
  obtain ⟨_, hnode, -⟩ := Inventory.map_eq_ok.1 hfound
  obtain ⟨place, hplaced⟩ := halike.exists_requireNode hs.formed hnode
  by_cases hgone : ∃ link ∈ s.relation, link.1 ∈ batch ∧ link ∉ t.relation
  · refine ⟨hgone, found.2.length, ?_⟩
    obtain ⟨link, hlink, hbatch, hlost⟩ := hgone
    obtain ⟨actual, hconflict⟩ := move_conflict hplaced ((hrows link).2 ⟨hlink, hbatch⟩) hlost
    cases h.symm.trans hconflict
    exact ⟨actual, rfl⟩
  · push Not at hgone
    -- nothing else could make the transaction fail: the assets and the hierarchy are still there
    have hassets : ∀ id ∈ batch.eraseDups, ∃ asset ∈ t.assets, asset.id = id := by
      intro id hid
      obtain ⟨asset, hasset, haid, -⟩ := hknown id hid
      exact ⟨asset, halike.assets ▸ hasset, haid⟩
    have hhost : ∃ host ∈ t.hierarchies, host.id = found.1 := by
      rw [halike.hierarchies, ← hh]
      exact hs.formed.hosted row hrow
    have hold : ∀ link ∈ found.2, link ∈ t.attachments := by
      intro link hlink
      obtain ⟨hin, hbatch⟩ := (hrows link).1 hlink
      exact hgone link hin hbatch
    obtain ⟨_, hdone⟩ := exists_move ht.toSteady hplaced hassets hold hhost ht.legible propagate
    cases h.symm.trans hdone

theorem moveEnds_nil (target : NodeId) (moved : Reassignment) (s : Store) :
    MoveEnds [] target s s (.ok (.reassignment moved)) s := by
  have hreplaced : Replaced [] target s s (.ok (.reassignment moved)) s := by
    refine ⟨⟨_, rfl⟩, ?_⟩
    rw [pairs_nil_left, Set.union_empty]
    simp
  exact Or.inr ⟨fun _ hlink _ => hlink, hreplaced, hreplaced.movedTo_iff⟩

end Transaction

namespace Store
variable {s : Store}

/-- A move whose snapshot has been taken tells observers of its rows, and they make any number of
edits. What becomes of the move depends on the store that they leave to its transaction. -/
theorem Reachable.reassigned (h : s.Reachable) (henv : env.Moves Edits)
    (hwait : ∀ hierarchy w, env (.waiting hierarchy) w = w) {w : World σ} (hw : w.tree.store = s)
    {batch : List AssetId} {target : NodeId} {found : HierarchyId × List Attachment}
    (hread : Tree.observe batch.eraseDups target s = .ok found)
    (hfree : w.tree.leases.isHeld found.1 = false) {r : Except Error Answer} {t s' : Store}
    (ht : ((w.granted found.1).forewarned env found.1 (Change.group found.2)).tree.store = t)
    (hr : ((Request.reassign batch target).run env w).1 = r)
    (hs' : ((Request.reassign batch target).run env w).2.tree.store = s') :
    Edits s t ∧ MoveEnds batch target s t r s' := by
  subst hw
  have hedits : Edits w.tree.store t :=
    ht ▸ (henv.forewarned (w.granted found.1) found.1 (Change.group found.2)).1
  refine ⟨hedits, ?_⟩
  have hrun : (Request.reassign batch target).run env w = _ :=
    map_run Answer.reassignment (Tree.reassign batch target) env w
  rw [hrun] at hr hs'
  by_cases hnone : batch.eraseDups = []
  · cases eq_nil_of_eraseDups hnone
    have hrows : found.2 = [] := List.eq_nil_iff_forall_not_mem.2 fun link hlink =>
      absurd ((mem_snapshot h.sound hread link).1 hlink).2 List.not_mem_nil
    rw [hrows] at ht
    rw [Tree.reassign_nil hread] at hr hs'
    subst hr hs' ht
    exact moveEnds_nil ..
  · obtain ⟨t', ht', hend⟩ := Tree.reassign_ends henv hwait hnone hread hfree
    cases ht.symm.trans ht'
    obtain ⟨halike, hsound⟩ := alike_of_edits hedits h.sound
    dsimp only at hr hs'
    rcases hend with ⟨e, hfail, hsame, hcause⟩ | ⟨added, hmove, hok⟩
    · rw [hfail] at hr
      subst hr hs'
      obtain ⟨hgone, expected, actual, rfl⟩ := conflict_of_move h.sound (h.serves hedits).tidy halike
        hread (hcause.resolve_right id)
      exact Or.inl ⟨hgone, ⟨expected, actual, rfl⟩, hsame⟩
    · rw [hok] at hr
      rw [hs'] at hmove
      subst hr
      obtain ⟨hkept, hreplaced⟩ := replaced_of_move h.sound hsound hread hmove _
      exact Or.inr ⟨hkept, hreplaced, hreplaced.movedTo_iff⟩

/-- Somebody detaches the asset from its node before the move to the root is carried out, which is
then a conflict and leaves the store so. -/
theorem reassigned_library :
    Refused
      ((Request.reassign [1] 1).run (Surroundings.answering [.detach 2 [1]])
        (⟨({} : Tree).after library, ()⟩ : World Unit)).1
      ((({} : Tree).after library).after [.detach 2 [1]]).store
      ((Request.reassign [1] 1).run (Surroundings.answering [.detach 2 [1]])
        (⟨({} : Tree).after library, ()⟩ : World Unit)).2.tree.store := by
  have hread : Tree.observe [1].eraseDups 1 (({} : Tree).after library).store =
      .ok (1, [(1, 2)]) := by decide +kernel
  have hfree : (({} : Tree).after library).leases.isHeld 1 = false := by decide +kernel
  have hleft : (((⟨({} : Tree).after library, ()⟩ : World Unit).granted 1).forewarned
      (Surroundings.answering [.detach 2 [1]]) 1 (Change.group [(1, 2)])).tree.store =
        ((({} : Tree).after library).after [.detach 2 [1]]).store := by decide +kernel
  have hgone : (1, 2) ∈ (({} : Tree).after library).store.attachments ∧
      (1, 2) ∉ ((({} : Tree).after library).after [.detach 2 [1]]).store.attachments := by
    decide +kernel
  have hends := ((Tree.reachable_after Reachable.empty library).reassigned
    (Surroundings.answering_moves fun request hrequest => by
      rw [List.mem_singleton.1 hrequest]
      rfl) (fun _ _ => rfl) rfl hread hfree hleft rfl rfl).2
  rcases hends with ⟨-, hrefused⟩ | ⟨hkept, -⟩
  · exact hrefused
  · exact absurd (hkept (1, 2) hgone.1 (by decide)) hgone.2

/-- The library with another child of its root. -/
def annex : List Request := library ++ [.createChild 1 (some "Globes")]

/-- A row that comes while a move is under way is no conflict, and the asset keeps it. -/
theorem not_movedTo_annex :
    ¬∀ (s : Store) (env : Surroundings Unit) (w : World Unit) (batch : List AssetId)
      (target : NodeId) (found : HierarchyId × List Attachment), s.Reachable → env.Moves Edits →
      (∀ hierarchy w, env (.waiting hierarchy) w = w) → w.tree.store = s →
      Tree.observe batch.eraseDups target s = .ok found →
      w.tree.leases.isHeld found.1 = false →
      (∃ t, Edits s t ∧ Refused ((Request.reassign batch target).run env w).1 t
        ((Request.reassign batch target).run env w).2.tree.store) ∨
      (∃ moved, ((Request.reassign batch target).run env w).1 = .ok (.reassignment moved)) ∧
        MovedTo batch target ((Request.reassign batch target).run env w).2.tree.store := by
  intro hexact
  have hread : Tree.observe [1].eraseDups 1 (({} : Tree).after annex).store =
      .ok (1, [(1, 2)]) := by decide +kernel
  have hfree : (({} : Tree).after annex).leases.isHeld 1 = false := by decide +kernel
  rcases hexact (({} : Tree).after annex).store (Surroundings.answering [.attach 3 [1]])
    ⟨({} : Tree).after annex, ()⟩ [1] 1 (1, [(1, 2)])
    (Tree.reachable_after Reachable.empty annex)
    (Surroundings.answering_moves fun request hrequest => by
      rw [List.mem_singleton.1 hrequest]
      rfl) (fun _ _ => rfl) rfl hread hfree with ⟨t, -, hrefused⟩ | ⟨-, hmoved⟩
  · refine not_refused_of_isOk ?_ hrefused
    decide +kernel
  · have hlink : ((1, 3) : Attachment).1 ∈ [1] := by decide
    refine not_movedTo_of_mem hlink ?_ (by decide) hmoved
    decide +kernel

end Store
end Inventory
