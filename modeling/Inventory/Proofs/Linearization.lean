import Inventory.Proofs.Forest
import Inventory.Proofs.Reassignments

/-! # Moves that wait for a lease

Between the reads of a move and the grant of its lease, others may edit attachments, create and
delete assets and carry out moves of their own. If that has changed a row of the batch, the move is
a conflict and changes nothing. If not, the move does exactly what it would do if it were made only
then. An asset that is deleted meanwhile, with or without another one in its place, loses the rows
that it has had. -/
namespace Inventory
set_option autoImplicit false
open Inventory.Store Inventory.Action Relation
variable {σ : Type} {env : Surroundings σ}

/-! ## What others do meanwhile -/

namespace Store
variable {s t : Store} {batch : List AssetId}

/-- Any number of requests that create and delete no nodes: edits of attachments, creations and
deletions of assets, moves, repairs. -/
abbrev Traffic : Store → Store → Prop := ReflTransGen (Serves (!·.isStructural))

theorem still_of_traffic (h : Traffic s t) (hs : s.Sound) : Still s t ∧ t.Sound := by
  induction h with
  | refl => exact ⟨Still.refl s, hs⟩
  | tail _ hstep ih =>
    refine ⟨ih.1.trans ?_, hstep.sound ih.2⟩
    obtain ⟨_, env, w, request, henv, hkind, rfl, rfl⟩ := hstep
    have hplain : request.isStructural = false := by simpa using hkind
    exact (Request.ensures_still henv hplain w rfl).2 ih.2

/-- The stores differ in a row of the batch. -/
def Disturbed (batch : List AssetId) (s t : Store) : Prop :=
  ∃ link : Attachment, link.1 ∈ batch ∧ ¬(link ∈ s.relation ↔ link ∈ t.relation)

theorem not_disturbed : ¬Disturbed batch s t ↔
    ∀ link : Attachment, link.1 ∈ batch → (link ∈ s.relation ↔ link ∈ t.relation) := by
  simp only [Disturbed, not_exists, not_and, not_not]

theorem sortIds_eq_of_perm {ids ids' : List Int} (h : ids.Perm ids') : sortIds ids = sortIds ids' := by
  refine List.Perm.eq_of_pairwise (fun a b _ _ => le_antisymm) (pairwise_le_mergeSort ids)
    (pairwise_le_mergeSort ids') ?_
  exact (List.mergeSort_perm ..).trans (h.trans (List.mergeSort_perm ..).symm)

/-- A batch has the same rows in the same order exactly if no row has come or gone. -/
theorem attachmentsOf_eq_iff (hs : s.Steady) (ht : t.Steady) :
    t.attachmentsOf batch = s.attachmentsOf batch ↔ ¬Disturbed batch s t := by
  rw [not_disturbed]
  constructor
  · intro heq link hbatch
    have hin := fun u : Store => @mem_attachmentsOf u batch link
    rw [mem_relation, mem_relation, ← and_iff_left (a := link ∈ s.attachments) hbatch, ← hin s, ← heq,
      hin t, and_iff_left hbatch]
  · intro hsame
    rw [attachmentsOf, attachmentsOf]
    refine List.flatMap_congr fun asset hasset => ?_
    have hbatch : asset ∈ batch := List.mem_eraseDups.1 (List.mem_mergeSort.1 hasset)
    have hnodes : t.nodesOfAsset asset = s.nodesOfAsset asset := by
      refine sortIds_eq_of_perm ((List.perm_ext_iff_of_nodup
        ((List.mergeSort_perm ..).nodup_iff.1 (ht.nodup_nodesOfAsset asset))
        ((List.mergeSort_perm ..).nodup_iff.1 (hs.nodup_nodesOfAsset asset))).2 fun node => ?_)
      have hrow := fun u : Store => (List.mem_mergeSort.symm.trans mem_nodesOfAsset :
        node ∈ (u.attachments.filter (·.1 == asset)).map (·.2) ↔ (asset, node) ∈ u.attachments)
      exact (hrow t).trans ((hsame (asset, node) hbatch).symm.trans (hrow s).symm)
    rw [hnodes]

theorem Still.requireNode (h : Still s t) (hs : s.Formed) (ht : t.Formed) {id : NodeId} {node : Node}
    (hnode : s.requireNode id = .ok node) :
    ∃ other, t.requireNode id = .ok other ∧ other.hierarchy = node.hierarchy := by
  obtain ⟨row, hrow, hid, key, hkey⟩ := requireNode_legible hnode
  obtain ⟨hin, hnid⟩ := hs.requireNode hnode
  obtain ⟨new, hnew, hid', hhost', hkey', -⟩ := exists_of_bare h.nodes.symm hrow
  obtain ⟨other, hother⟩ := ht.exists_requireNode hnew (hid'.trans hid) ⟨key, hkey' ▸ hkey⟩
  obtain ⟨hin', hoid⟩ := ht.requireNode hother
  have hsame : other.row = new := ht.eq_of_id hin' hnew (hoid.trans (hid'.trans hid).symm)
  have hsame' : node.row = row := hs.eq_of_id hin hrow (hnid.trans hid.symm)
  refine ⟨other, hother, ?_⟩
  exact (congrArg NodeRow.hierarchy hsame).trans
    (hhost'.trans (congrArg NodeRow.hierarchy hsame').symm)

/-- The reads of a move can be made again while the assets of the batch are there. -/
theorem Still.observe (h : Still s t) (hs : s.Formed) (ht : t.Formed) {target : NodeId}
    {found : HierarchyId × List Attachment}
    (hread : Tree.observe batch.eraseDups target s = .ok found)
    (hassets : ∀ id ∈ batch, ∃ asset ∈ t.assets, asset.id = id ∧ asset.hierarchy = found.1) :
    Tree.observe batch.eraseDups target t = .ok (found.1, t.attachmentsOf batch.eraseDups) := by
  obtain ⟨hierarchy, hfound, hrest⟩ := Inventory.bind_eq_ok.1 hread
  obtain ⟨node, hnode, rfl⟩ := Inventory.map_eq_ok.1 hfound
  obtain ⟨rows, -, hpair⟩ := Inventory.bind_eq_ok.1 hrest
  cases hpair
  obtain ⟨other, hother, hhost⟩ := h.requireNode hs ht hnode
  have hbatch : t.ensureAssetsIn node.hierarchy batch.eraseDups = .ok () :=
    ht.ensureAssetsIn_iff.2 fun id hid => hassets id (List.mem_eraseDups.1 hid)
  refine Inventory.bind_eq_ok.2 ⟨node.hierarchy, Inventory.map_eq_ok.2 ⟨other, hother, hhost⟩, ?_⟩
  refine Inventory.bind_eq_ok.2 ⟨t.attachmentsOf batch.eraseDups, ?_, rfl⟩
  exact Inventory.bind_eq_ok.2 ⟨(), hbatch, rfl⟩

/-- Assets that have kept their rows are still there, in the hierarchy that they were in. Every
asset has a row, so one that was deleted has lost one. -/
theorem Still.exists_asset (h : Still s t) (hs : s.Sound) (ht : t.Sound) {asset : Asset}
    (hasset : asset ∈ s.assets)
    (hsame : ∀ node, (asset.id, node) ∈ s.relation ↔ (asset.id, node) ∈ t.relation) :
    ∃ other ∈ t.assets, other.id = asset.id ∧ other.hierarchy = asset.hierarchy := by
  obtain ⟨node, hlink⟩ := hs.placed asset hasset
  obtain ⟨known, hknown, row, hrow, hid, hrid, hhost⟩ := hs.joined _ hlink
  obtain ⟨other, hother, row', hrow', hoid, hrid', hhost'⟩ := ht.joined _ ((hsame node).1 hlink)
  obtain ⟨old, hold, hid', holdhost, -⟩ := h.exists_row hrow'
  have hrows : old = row := hs.formed.eq_of_id hold hrow (hid'.trans (hrid'.trans hrid.symm))
  have hassets : known = asset := hs.formed.asset_eq_of_id hknown hasset hid
  refine ⟨other, hother, hoid, ?_⟩
  rw [hhost', ← holdhost, hrows, ← hhost, hassets]

/-- Where no row of the batch has changed, the reads of a move give what they gave before. -/
theorem Still.observe_undisturbed (h : Still s t) (hs : s.Sound) (ht : t.Sound) {target : NodeId}
    {found : HierarchyId × List Attachment}
    (hread : Tree.observe batch.eraseDups target s = .ok found) (hsame : ¬Disturbed batch s t) :
    Tree.observe batch.eraseDups target t = .ok found := by
  obtain ⟨-, hknown, hrows⟩ := Tree.observe_eq_ok hs.formed hread
  have hassets : ∀ id ∈ batch, ∃ asset ∈ t.assets, asset.id = id ∧ asset.hierarchy = found.1 := by
    intro id hid
    obtain ⟨asset, hasset, rfl, hhost⟩ := hknown id (List.mem_eraseDups.2 hid)
    obtain ⟨other, hother, hoid, hohost⟩ := h.exists_asset hs ht hasset fun node =>
      not_disturbed.1 hsame (asset.id, node) hid
    exact ⟨other, hother, hoid, hohost.trans hhost⟩
  have hsnapshot : t.attachmentsOf batch.eraseDups = found.2 := by
    rw [hrows]
    refine (attachmentsOf_eq_iff hs.toSteady ht.toSteady).2 fun ⟨link, hbatch, hdiffers⟩ => ?_
    exact hsame ⟨link, List.mem_eraseDups.1 hbatch, hdiffers⟩
  rw [h.observe hs.formed ht.formed hread hassets, hsnapshot]

end Store

/-! ## The move itself -/

/-- The surroundings without what they do before a lease is granted. -/
def Surroundings.prompt (env : Surroundings σ) : Surroundings σ
  | .waiting _, w => w
  | .notice n, w => env (.notice n) w

namespace Action
variable {α β : Type}

/-- The action asks for no lease, so that nobody acts before one. -/
def Leaseless (act : Action σ α) : Prop :=
  ∀ (env : Surroundings σ) (w : World σ), act env.prompt w = act env w

theorem Leaseless.bind {act : Action σ α} {next : α → Action σ β} (h : act.Leaseless)
    (hnext : ∀ a, (next a).Leaseless) : (act >>= next).Leaseless := by
  intro env w
  rcases bind_run_cases act next env w with ⟨a, w', hrun, hbind⟩ | ⟨e, w', hrun, hbind⟩
  · rw [hbind, bind_of_ok ((h env w).trans hrun), hnext a env w']
  · rw [hbind, bind_of_error ((h env w).trans hrun)]

theorem leaseless_deferUnless (propagated : Bool) (hierarchy : HierarchyId) :
    (deferUnless propagated hierarchy : Action σ Unit).Leaseless := by
  intro env w
  cases propagated with
  | true => rfl
  | false => rfl

end Action

namespace Tree

theorem leaseless_moveSeen (hierarchy : HierarchyId) (target : NodeId) (assets : List AssetId)
    (observed : List Attachment) :
    (moveSeen hierarchy target assets observed : Action σ Reassignment).Leaseless := by
  have hannounce : ∀ phase changes,
      (announce phase hierarchy changes : Action σ Unit).Leaseless := fun _ _ _ _ => rfl
  refine (hannounce _ _).bind fun _ => ?_
  refine Leaseless.bind (fun _ _ => rfl) fun propagate => Leaseless.bind (fun _ _ => rfl) fun added => ?_
  refine (hannounce _ _).bind fun _ => (hannounce _ _).bind fun _ => ?_
  exact (leaseless_deferUnless propagate hierarchy).bind fun _ _ _ => rfl

theorem leaseless_moveObserved (hierarchy : HierarchyId) (target : NodeId) (assets : List AssetId)
    (observed : List Attachment) :
    (moveObserved hierarchy target assets observed : Action σ Reassignment).Leaseless := by
  intro env w
  rw [moveObserved_run, moveObserved_run, leaseless_moveSeen hierarchy target assets observed env w]

end Tree

/-! ## What becomes of the move -/

/-- A move that has made its reads in the first world and is granted its lease in the second. -/
structure Linear (env : Surroundings σ) (batch : List AssetId) (target : NodeId) (w u : World σ) :
    Prop where
  /-- A changed row of the batch makes it a conflict that changes nothing. -/
  conflict : Disturbed batch w.tree.store u.tree.store → ∃ expected actual,
    (Request.reassign batch target).run env w = (.error (.conflict expected actual), u)
  /-- Otherwise it is as if it had been made only then. -/
  alone : ¬Disturbed batch w.tree.store u.tree.store →
    (Request.reassign batch target).run env w = (Request.reassign batch target).run env.prompt u

/-- A move that is overtaken by one of other assets. -/
structure Overtaken (env : Surroundings σ) (batch rivals : List AssetId) (target : NodeId)
    (w u : World σ) : Prop where
  /-- It is a conflict exactly if a row of a shared asset has been changed. -/
  conflict_iff : (∃ expected actual,
      ((Request.reassign batch target).run env w).1 = .error (.conflict expected actual)) ↔
    ∃ link : Attachment, link.1 ∈ batch ∧ link.1 ∈ rivals ∧
      ¬(link ∈ w.tree.store.relation ↔ link ∈ u.tree.store.relation)
  /-- If it is not, it has been carried out. -/
  carried : (∃ expected actual,
      ((Request.reassign batch target).run env w).1 = .error (.conflict expected actual)) ∨
    ∃ moved, ((Request.reassign batch target).run env w).1 = .ok (.reassignment moved)
  /-- A conflict changes nothing, and the move made again is carried out. -/
  again : ∀ expected actual,
    ((Request.reassign batch target).run env w).1 = .error (.conflict expected actual) →
    ((Request.reassign batch target).run env w).2 = u ∧
      ∃ moved, ((Request.reassign batch target).run env.prompt u).1 = .ok (.reassignment moved)

/-- A move of other assets to some target is made in the first store before an audience that does
not act on the tree, and leads to the second. -/
def Overtakes (rivals : List AssetId) (s t : Store) : Prop :=
  ∃ (τ : Type) (env : Surroundings τ) (w : World τ) (target : NodeId)
    (found : HierarchyId × List Attachment),
    env.Passive ∧ w.tree.store = s ∧ Tree.observe rivals.eraseDups target s = .ok found ∧
      w.tree.leases.isHeld found.1 = false ∧
      ((Request.reassign rivals target).run env w).2.tree.store = t

section
variable {w u : World σ} {batch rivals : List AssetId} {target : NodeId}
  {found : HierarchyId × List Attachment}

theorem Request.run_reassign (env : Surroundings σ) (w : World σ) :
    (Request.reassign batch target).run env w =
      (.reassignment <$> (Tree.reassign batch target env w).1, (Tree.reassign batch target env w).2) :=
  map_run Answer.reassignment (Tree.reassign batch target) env w

/-- Before observers that do not act on the tree, and while the lease is free, a move whose reads go
through is carried out. -/
theorem Store.Tidy.exists_moved (hs : w.tree.store.Tidy) (henv : env.Passive)
    (hread : Tree.observe batch.eraseDups target w.tree.store = .ok found)
    (hfree : w.tree.leases.isHeld found.1 = false)
    (hwait : ∀ hierarchy w, env (.waiting hierarchy) w = w) :
    ∃ moved, ((Request.reassign batch target).run env w).1 = .ok (.reassignment moved) := by
  rw [Request.run_reassign]
  by_cases hnone : batch.eraseDups = []
  · cases eq_nil_of_eraseDups hnone
    rw [Tree.reassign_nil hread]
    exact ⟨_, rfl⟩
  obtain ⟨⟨row, hrow, hid, hhost⟩, hassets, hrows⟩ := Tree.observe_eq_ok hs.formed hread
  obtain ⟨node, hnode⟩ := hs.formed.exists_requireNode hrow hid (hs.legible row hrow)
  have hknown : ∀ id ∈ batch.eraseDups, ∃ asset ∈ w.tree.store.assets, asset.id = id :=
    fun id hid => (hassets id hid).imp fun _ h => ⟨h.1, h.2.1⟩
  have hold : ∀ link ∈ found.2, link ∈ w.tree.store.attachments := fun link hlink =>
    (mem_attachmentsOf.1 (hrows ▸ hlink)).1
  obtain ⟨_, hmove⟩ := exists_move hs.toSteady hnode hknown hold (hhost ▸ hs.formed.hosted row hrow)
    hs.legible (w.tree.options.propagates (found.2.length + batch.eraseDups.length))
  obtain ⟨t, ht, hend⟩ := Tree.reassign_ends henv.moves hwait hnone hread hfree
  have hpassive := (henv.moves.forewarned (w.granted found.1) found.1 (Change.group found.2)).1
  obtain rfl : w.tree.store = t := hpassive.trans ht
  rcases hend with ⟨e, -, -, hfail | hfail⟩ | ⟨added, -, hok⟩
  · cases hfail.symm.trans hmove
  · cases hfail
  · exact ⟨_, congrArg (Answer.reassignment <$> ·) hok⟩

theorem Store.Sound.linear (hs : w.tree.store.Sound) (hne : batch ≠ [])
    (hread : Tree.observe batch.eraseDups target w.tree.store = .ok found)
    (hu : env (.waiting found.1) w = u) (htraffic : Traffic w.tree.store u.tree.store)
    (hfree : u.tree.leases.isHeld found.1 = false) : Linear env batch target w u := by
  have hnone : batch.eraseDups ≠ [] := fun h => hne (eq_nil_of_eraseDups h)
  obtain ⟨hstill, ht⟩ := still_of_traffic htraffic hs
  obtain ⟨-, -, hrows⟩ := Tree.observe_eq_ok hs.formed hread
  have hrun : Tree.reassign batch target env w = _ := Tree.reassign_of_observe hnone hread
  rw [holding_granted hu hfree] at hrun
  have hdisturbed : Disturbed batch.eraseDups w.tree.store u.tree.store ↔
      Disturbed batch w.tree.store u.tree.store := by
    simp only [Disturbed, List.mem_eraseDups]
  have hsnapshot : u.tree.store.attachmentsOf batch.eraseDups = found.2 ↔
      ¬Disturbed batch w.tree.store u.tree.store := by
    rw [hrows, ← hdisturbed]
    exact attachmentsOf_eq_iff hs.toSteady ht.toSteady
  refine ⟨fun h => ?_, fun h => ?_⟩
  · have hdiffers : ¬(u.granted found.1).tree.store.attachmentsOf batch.eraseDups = found.2 :=
      fun heq => hsnapshot.1 heq h
    rw [Tree.moveObserved_run, if_neg hdiffers] at hrun
    rw [Request.run_reassign, hrun]
    refine ⟨_, _, congrArg (Prod.mk _) (World.released_granted hfree)⟩
  · have hread' := hstill.observe_undisturbed hs ht hread h
    have halone : Tree.reassign batch target env.prompt u = _ :=
      Tree.reassign_of_observe hnone hread'
    have hprompt : env.prompt (.waiting found.1) u = u := rfl
    rw [holding_granted hprompt hfree, Tree.leaseless_moveObserved] at halone
    rw [Request.run_reassign, Request.run_reassign, hrun, halone]

theorem Overtakes.effect {s t : Store} (h : Overtakes rivals s t) (hs : s.Sound) :
    Traffic s t ∧ t.assets = s.assets ∧
      ∀ link : Attachment, link.1 ∉ rivals → (link ∈ s.relation ↔ link ∈ t.relation) := by
  obtain ⟨τ, env, w, place, found, henv, rfl, -, -, rfl⟩ := h
  have heffect := ((Request.reassign rivals place).ensures_effect henv w rfl).2 hs
  refine ⟨.single ⟨τ, env, w, .reassign rivals place, henv, rfl, rfl, rfl⟩, ?_⟩
  cases hrun : ((Request.reassign rivals place).run env w).1 with
  | error e =>
    rw [heffect.refused e hrun]
    exact ⟨rfl, fun _ _ => Iff.rfl⟩
  | ok answer =>
    have hrefines := heffect.refines answer hrun
    refine ⟨hrefines.assets, fun link hother => ?_⟩
    rw [hrefines.relation, Set.mem_union, Set.mem_sdiff]
    have hgone : link ∉ (Request.reassign rivals place).gone := hother
    have hcome : link ∉ (Request.reassign rivals place).come w.tree.store answer := fun h => hother h.1
    simp only [hgone, hcome, not_false_eq_true, and_true, or_false]

/-- Of two moves that have read in the same store, the later one is overtaken by the earlier. -/
theorem Store.Tidy.overtaken (hs : w.tree.store.Tidy) (hne : batch ≠ [])
    (hread : Tree.observe batch.eraseDups target w.tree.store = .ok found)
    (hu : env (.waiting found.1) w = u) (hquiet : env.prompt.Passive)
    (hfree : u.tree.leases.isHeld found.1 = false)
    (h : Overtakes rivals w.tree.store u.tree.store) : Overtaken env batch rivals target w u := by
  obtain ⟨htraffic, hassets, hothers⟩ := h.effect hs.toSound
  obtain ⟨hstill, ht⟩ := still_of_traffic htraffic hs.toSound
  have htidy := hstill.tidy hs ht
  have hlinear := hs.toSound.linear hne hread hu htraffic hfree
  obtain ⟨-, hknown, -⟩ := Tree.observe_eq_ok hs.formed hread
  have hagain : ∃ moved, ((Request.reassign batch target).run env.prompt u).1 =
      .ok (.reassignment moved) := by
    refine htidy.exists_moved hquiet (hstill.observe hs.formed ht.formed hread fun id hid => ?_) hfree
      fun _ _ => rfl
    rw [hassets]
    exact hknown id (List.mem_eraseDups.2 hid)
  have hcarried : ¬Disturbed batch w.tree.store u.tree.store →
      ∃ moved, ((Request.reassign batch target).run env w).1 = .ok (.reassignment moved) := fun hsame => by
    rw [hlinear.alone hsame]
    exact hagain
  have hconflict : (∃ expected actual,
      ((Request.reassign batch target).run env w).1 = .error (.conflict expected actual)) ↔
      Disturbed batch w.tree.store u.tree.store := by
    constructor
    · rintro ⟨expected, actual, herror⟩
      by_contra hsame
      obtain ⟨moved, hok⟩ := hcarried hsame
      cases herror.symm.trans hok
    · intro hdisturbed
      obtain ⟨expected, actual, hrun⟩ := hlinear.conflict hdisturbed
      exact ⟨expected, actual, congrArg Prod.fst hrun⟩
  refine ⟨hconflict.trans ⟨?_, ?_⟩, ?_, fun expected actual herror => ⟨?_, hagain⟩⟩
  · rintro ⟨link, hbatch, hdiffers⟩
    by_cases hshared : link.1 ∈ rivals
    · exact ⟨link, hbatch, hshared, hdiffers⟩
    · exact absurd (hothers link hshared) hdiffers
  · rintro ⟨link, hbatch, -, hdiffers⟩
    exact ⟨link, hbatch, hdiffers⟩
  · by_cases hdisturbed : Disturbed batch w.tree.store u.tree.store
    · exact Or.inl (hconflict.2 hdisturbed)
    · exact Or.inr (hcarried hdisturbed)
  · obtain ⟨_, _, hrun⟩ := hlinear.conflict (hconflict.1 ⟨expected, actual, herror⟩)
    exact congrArg Prod.snd hrun

/-- A move that has made its reads in a reachable store is linear, whatever others do before its
lease is granted; it is overtaken by a move of other assets that read in the same store. A move of
nothing asks for no lease and does the same at any time. -/
theorem Store.Reachable.reassign_linear {s : Store} (h : s.Reachable) (hw : w.tree.store = s)
    (hread : Tree.observe batch.eraseDups target s = .ok found) :
    (batch = [] → ∀ v : World σ, Traffic s v.tree.store →
      (Request.reassign batch target).run env v = (.ok (.reassignment { target }), v)) ∧
    (batch ≠ [] → env (.waiting found.1) w = u → u.tree.leases.isHeld found.1 = false →
      (Traffic s u.tree.store → Linear env batch target w u) ∧
      (env.prompt.Passive → ∀ rivals, Overtakes rivals s u.tree.store →
        Overtaken env batch rivals target w u)) := by
  subst hw
  refine ⟨?_, fun hne hu hfree => ⟨fun htraffic => ?_, fun hquiet rivals hrival => ?_⟩⟩
  · rintro rfl v htraffic
    obtain ⟨hstill, ht⟩ := still_of_traffic htraffic h.sound
    have hread' := hstill.observe h.sound.formed ht.formed hread fun _ hid => absurd hid List.not_mem_nil
    rw [Request.run_reassign, Tree.reassign_nil hread']
    rfl
  · exact h.sound.linear hne hread hu htraffic hfree
  · exact h.tidy.overtaken hne hread hu hquiet hfree hrival

end

/-- Others make requests before a lease is granted. -/
def Surroundings.hurrying (script : List Request) : Surroundings σ
  | .waiting _, w => { w with tree := w.tree.after script }
  | .notice _, w => w

/-- The annexed library after the move of its asset to the other node. -/
def Tree.moved : Tree := (({} : Tree).after annex).after [.reassign [1] 3]

/-- Two moves of one asset have both seen it on its node, and one is granted its lease first. -/
theorem Store.reassign_linear_annex :
    Disturbed [1] (({} : Tree).after annex).store Tree.moved.store ∧
      Linear (Surroundings.hurrying [.reassign [1] 3]) [1] 1
        (⟨({} : Tree).after annex, ()⟩ : World Unit) ⟨Tree.moved, ()⟩ ∧
      Overtaken (Surroundings.hurrying [.reassign [1] 3]) [1] [1] 1
        (⟨({} : Tree).after annex, ()⟩ : World Unit) ⟨Tree.moved, ()⟩ := by
  have hreachable : (({} : Tree).after annex).store.Reachable :=
    Tree.reachable_after Reachable.empty annex
  have hread : Tree.observe [1].eraseDups 1 (({} : Tree).after annex).store = .ok (1, [(1, 2)]) := by
    decide +kernel
  have hread' : Tree.observe [1].eraseDups 3 (({} : Tree).after annex).store = .ok (1, [(1, 2)]) := by
    decide +kernel
  have hfree : (({} : Tree).after annex).leases.isHeld 1 = false := by decide +kernel
  have hfree' : Tree.moved.leases.isHeld 1 = false := by decide +kernel
  have hrival : Overtakes [1] (({} : Tree).after annex).store Tree.moved.store :=
    ⟨Unit, Surroundings.quiet, ⟨({} : Tree).after annex, ()⟩, 3, _, Surroundings.passive_quiet, rfl,
      hread', hfree, rfl⟩
  have hrow : (1, 2) ∈ (({} : Tree).after annex).store.attachments ∧
      (1, 2) ∉ Tree.moved.store.attachments := by decide +kernel
  have hwait : (Surroundings.hurrying [.reassign [1] 3] : Surroundings Unit) (.waiting 1)
      ⟨({} : Tree).after annex, ()⟩ = ⟨Tree.moved, ()⟩ := rfl
  obtain ⟨hlinear, hovertaken⟩ :=
    (hreachable.reassign_linear rfl hread).2 (by decide) hwait hfree'
  have hquiet : (Surroundings.hurrying [.reassign [1] 3] : Surroundings Unit).prompt.Passive := by
    rintro (_ | _) w <;> rfl
  refine ⟨⟨(1, 2), by decide, fun hsame => hrow.2 (hsame.1 hrow.1)⟩, ?_, ?_⟩
  · exact hlinear (hrival.effect hreachable.sound).1
  · exact hovertaken hquiet [1] hrival

end Inventory
