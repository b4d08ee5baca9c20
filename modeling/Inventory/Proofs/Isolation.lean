import Inventory.Proofs.Contention
import Inventory.Proofs.Store.Sparing

/-! # Hierarchies are isolated

A request works in one hierarchy, which it finds by an id or through a node or an asset; a flush
works in those that wait. Whatever ids it is given beside that one, and whether it is answered or
refused, all other hierarchies keep what they have, and questions about them are answered as
before. -/
namespace Inventory
set_option autoImplicit false
open Inventory.Store Inventory.Action
variable {σ : Type} {env : Surroundings σ} {options : Options} {w : World σ} {s t : Store}
  {host other : HierarchyId}

namespace Store

theorem hierarchy_ne_of_requireNode (hs : s.Formed) {id : NodeId}
    (hout : ¬∃ row ∈ s.rowsOf other, row.id = id) {node : Node}
    (h : s.requireNode id = .ok node) : node.hierarchy ≠ other := by
  obtain ⟨hin, hid⟩ := hs.requireNode h
  exact fun heq => hout ⟨node.row, mem_rowsOf.2 ⟨hin, heq⟩, hid⟩

theorem hierarchy_ne_of_requireAsset {id : AssetId}
    (hout : ¬∃ asset ∈ s.assetsOf other, asset.id = id) {asset : Asset}
    (h : s.requireAsset id = .ok asset) : asset.hierarchy ≠ other := by
  obtain ⟨hin, hid⟩ := requireAsset_eq_ok h
  exact fun heq => hout ⟨asset, mem_assetsOf.2 ⟨hin, heq⟩, hid⟩

/-- Attaching to several nodes works in the hierarchy of the asset. -/
theorem attachToAll_host {id : AssetId} {ids : List NodeId} {propagate : Bool}
    {made : HierarchyId × Outcome} (h : attachToAll id ids propagate s = .ok (made, t)) :
    ∃ asset, s.requireAsset id = .ok asset ∧ asset.hierarchy = made.1 := by
  obtain ⟨asset, hasset, h⟩ := Transaction.lift_bind_eq_ok.1 (Transaction.get_bind.symm.trans h)
  obtain ⟨targets, -, h⟩ := Transaction.lift_bind_eq_ok.1 h
  obtain ⟨added, _, -, h⟩ := Transaction.bind_eq_ok.1 h
  obtain ⟨_, _, -, h⟩ := Transaction.bind_eq_ok.1 h
  cases h
  exact ⟨asset, hasset, rfl⟩

end Store

/-! ## What a request spares -/

namespace Request

/-- The hierarchy is the one in which the request works. `jobs` are the hierarchies that wait for a
reconciliation; requests that only ask work in none. -/
def Affects (s : Store) (jobs : List HierarchyId) (host : HierarchyId) : Request → Prop
  | createHierarchy _ => host = nextId (s.hierarchies.map (·.id))
  | createPath id _ | createAsset id _ _ | reconcile id => host = id
  | createChild id _ | getOrCreateChild id _ | deleteNode id | attach id _ | detach id _
  | reassign _ id => ∃ row ∈ s.rowsOf host, row.id = id
  | deleteAsset id | attachToNodes id _ | detachFromNodes id _ =>
    ∃ asset ∈ s.assetsOf host, asset.id = id
  | flush => host ∈ jobs
  | _ => False

/-- A request works in one hierarchy at most, unless it is a flush. -/
theorem Affects.unique {jobs : List HierarchyId} (hs : s.Formed) {request : Request}
    (hflush : request ≠ .flush) (h : request.Affects s jobs host)
    (h' : request.Affects s jobs other) : host = other := by
  have hnode : ∀ {id : NodeId}, (∃ row ∈ s.rowsOf host, row.id = id) →
      (∃ row ∈ s.rowsOf other, row.id = id) → host = other := by
    rintro _ ⟨row, hrow, rfl⟩ ⟨row', hrow', hid⟩
    obtain ⟨hin, rfl⟩ := mem_rowsOf.1 hrow
    obtain ⟨hin', rfl⟩ := mem_rowsOf.1 hrow'
    rw [hs.eq_of_id hin' hin hid]
  have hasset : ∀ {id : AssetId}, (∃ asset ∈ s.assetsOf host, asset.id = id) →
      (∃ asset ∈ s.assetsOf other, asset.id = id) → host = other := by
    rintro _ ⟨asset, hasset, rfl⟩ ⟨asset', hasset', hid⟩
    obtain ⟨hin, rfl⟩ := mem_assetsOf.1 hasset
    obtain ⟨hin', rfl⟩ := mem_assetsOf.1 hasset'
    rw [hs.asset_eq_of_id hin' hin hid]
  cases request with
  | createHierarchy | createPath | createAsset | reconcile => exact h.trans (Eq.symm h')
  | createChild | getOrCreateChild | deleteNode | attach | detach | reassign => exact hnode h h'
  | deleteAsset | attachToNodes | detachFromNodes => exact hasset h h'
  | flush => exact absurd rfl hflush
  | _ => cases h

theorem ensures_spares (henv : env.Passive) {request : Request} (hflush : request ≠ .flush) :
    Ensures env options (request.run : Action σ Answer) fun s _ s' =>
      s.Sound → ¬request.Affects s [] other → Spares other s s' := by
  have hrefl : ∀ s, ¬request.Affects s [] other → Spares other s s := fun s _ => Spares.refl other s
  have hsame : Ensures env options (request.run : Action σ Answer) (fun s _ s' => s' = s) →
      Ensures env options (request.run : Action σ Answer) fun s _ s' =>
        s.Sound → ¬request.Affects s [] other → Spares other s s' :=
    fun h => h.weaken fun s _ s' heq _ hout => heq ▸ hrefl s hout
  cases request with
  | createHierarchy name =>
    rw [run_createHierarchy]
    refine (Tree.ensures_createHierarchy henv.moves name).relates hrefl _
      fun s c made s' hs _ h hout => ?_
    exact createHierarchy_spares hout h
  | createChild parent value =>
    refine (Tree.ensures_createChild henv.moves parent value).relates hrefl .node
      fun s c child s' hs _ h hout => ?_
    exact createChild_spares (fun _ => hierarchy_ne_of_requireNode hs.formed hout) h
  | getOrCreateChild parent value =>
    rw [run_getOrCreateChild]
    refine (Tree.ensures_getOrCreateChild henv.moves parent value).relates hrefl _
      fun s c made s' hs _ h hout => ?_
    rw [Transaction.get_bind] at h
    obtain ⟨node, hnode, h⟩ := Transaction.lift_bind_eq_ok.1 h
    exact (getOrInsertChild_spares (hierarchy_ne_of_requireNode hs.formed hout hnode) h).1
  | createPath id path =>
    refine (Tree.ensures_createPath henv.moves id path).unasked.relates hrefl .node
      fun s c last s' hs _ h hout => ?_
    exact createPath_spares hs.formed (Ne.symm hout) h
  | deleteNode id =>
    refine (Tree.ensures_deleteNode henv.moves id).relates hrefl (fun _ => .done)
      fun s c _ s' hs _ h hout => ?_
    exact removeNode_spares hs.formed (fun row hrow hid => hout ⟨row, hrow, hid⟩) h
  | createAsset id name places =>
    refine (Tree.ensures_createAsset henv.moves id name places).relates hrefl .asset
      fun s c made s' hs _ h hout => ?_
    exact createAsset_spares hs hout h
  | deleteAsset id =>
    refine (Tree.ensures_deleteAsset henv.moves id).relates hrefl (fun _ => .done)
      fun s c removed s' hs hc h hout => ?_
    obtain ⟨asset, hasset, hc⟩ := Inventory.bind_eq_ok.1 hc
    cases hc
    have hne := hierarchy_ne_of_requireAsset hout hasset
    obtain ⟨hin, rfl⟩ := requireAsset_eq_ok hasset
    exact removeAsset_spares hs hin hne.symm h
  | attach place batch =>
    by_cases hnone : batch.eraseDups = []
    · cases eq_nil_of_eraseDups hnone
      exact hsame fun _ hw => ⟨hw, rfl⟩
    · refine (Tree.ensures_attach henv.moves place hnone).unasked.relates hrefl .outcome
        fun s c made s' hs _ h hout => ?_
      obtain ⟨hattached, -, -, row, hrow, hid, hplace⟩ := attachAll_eq_ok hs.formed h
      exact hattached.spares hs.formed fun heq =>
        hout ⟨row, mem_rowsOf.2 ⟨hrow, hplace.trans heq.symm⟩, hid⟩
  | detach place batch =>
    by_cases hnone : batch.eraseDups = []
    · cases eq_nil_of_eraseDups hnone
      exact hsame fun _ hw => ⟨hw, rfl⟩
    · refine (Tree.ensures_detach henv.moves place hnone).relates hrefl .outcome
        fun s c outcome s' hs hc h hout => ?_
      obtain ⟨node, hnode, hc⟩ := Inventory.bind_eq_ok.1 hc
      cases hc
      obtain ⟨hdetached, -⟩ := detachAll_eq_ok hs.formed h
      exact hdetached.spares hs (hs.formed.within_found hnode _)
        (hierarchy_ne_of_requireNode hs.formed hout hnode).symm
  | attachToNodes id places =>
    by_cases hnone : places.eraseDups = []
    · cases eq_nil_of_eraseDups hnone
      exact hsame fun _ hw => ⟨hw, rfl⟩
    · refine (Tree.ensures_attachToNodes henv.moves id hnone).unasked.relates hrefl .outcome
        fun s c made s' hs _ h hout => ?_
      obtain ⟨asset, hasset, hplace⟩ := attachToAll_host h
      obtain ⟨fresh, -, hattached, -⟩ := attachToAll_eq_ok hs.formed h
      exact hattached.spares hs.formed
        (hplace ▸ hierarchy_ne_of_requireAsset hout hasset).symm
  | detachFromNodes id places =>
    by_cases hnone : places.eraseDups = []
    · cases eq_nil_of_eraseDups hnone
      exact hsame fun _ hw => ⟨hw, rfl⟩
    · refine (Tree.ensures_detachFromNodes henv.moves id hnone).relates hrefl .outcome
        fun s c outcome s' hs hc h hout => ?_
      obtain ⟨asset, hasset, hc⟩ := Inventory.bind_eq_ok.1 hc
      cases hc
      obtain ⟨lost, -, -, hw, hdetached, -⟩ := detachFromAll_eq_ok hs.formed h
      exact hdetached.spares hs hw (hierarchy_ne_of_requireAsset hout hasset).symm
  | reassign batch target =>
    by_cases hnone : batch.eraseDups = []
    · cases eq_nil_of_eraseDups hnone
      refine hsame (((Tree.ensures_reassign_nil target).map Answer.reassignment).weaken
        fun s r s' hpost => ?_)
      obtain ⟨_, ⟨heq, -⟩, -⟩ := hpost
      exact heq
    · refine (Tree.ensures_reassign henv.moves target hnone).relates hrefl .reassignment
        fun s found added s' hs hfound h hout => ?_
      obtain ⟨⟨place, hplace, hpid, hph⟩, hassets, hobserved⟩ := Tree.observe_eq_ok hs.formed hfound
      obtain ⟨row, rfl, hmoved⟩ := move_eq_ok hs.toSteady h
      have hsamerow := hs.formed.eq_of_id hplace hmoved.known hpid
      have hw : s.Within found.1 found.2 := hs.within fun link hlink => by
        rw [hobserved] at hlink
        obtain ⟨hold, hin⟩ := mem_attachmentsOf.1 hlink
        exact ⟨hold, hassets _ hin⟩
      refine hmoved.spares hs hw (hsamerow ▸ hph) hassets fun heq => hout ⟨place, ?_, hpid⟩
      exact mem_rowsOf.2 ⟨hplace, hph.trans heq.symm⟩
  | reconcile id =>
    refine (Tree.ensures_repair henv.moves id).relates hrefl .report
      fun s c report s' hs _ h hout => ?_
    exact reconcile_spares hs hout h
  | flush => exact absurd rfl hflush
  | _ => exact hsame (ensures_asks rfl)

/-- Jobs spare the hierarchies that have none. -/
theorem runJobs_spares (henv : env.Passive) {jobs : List HierarchyId} (hout : other ∉ jobs)
    (hs : w.tree.store.Sound) :
    Spares other w.tree.store (Tree.runJobs jobs env w).2.tree.store := by
  induction jobs generalizing w with
  | nil => exact Spares.refl ..
  | cons first rest ih =>
    rw [List.mem_cons, not_or] at hout
    obtain ⟨hne, hrest⟩ := hout
    have hrepair : Spares other w.tree.store (Tree.reconcile first .repair env w).2.tree.store := by
      have hflush : Request.reconcile first ≠ .flush := by simp
      have hspares : Spares other w.tree.store
          ((Request.reconcile first).run env w).2.tree.store :=
        (ensures_spares henv hflush w rfl).2 hs hne
      rwa [run, map_run] at hspares
    have hsound := (Tree.repair_mends henv first w hs).1
    rw [Tree.runJobs_cons]
    exact hrepair.trans (ih (w := (Tree.reconcile first .repair env w).2.finished _) hrest hsound)

/-- Every request spares the hierarchies that it does not work in. -/
theorem run_spares (henv : env.Passive) (request : Request) (hs : w.tree.store.Sound)
    (hout : ¬request.Affects w.tree.store w.tree.queue.jobs other) :
    Spares other w.tree.store (request.run env w).2.tree.store := by
  by_cases hflush : request = .flush
  · subst hflush
    rw [run_flush]
    exact runJobs_spares henv (w := w.queued fun q => (q.hasten 0).takeDue 0)
      (fun hin => hout ((Queue.running_hasten _).1 hin)) hs
  · refine (ensures_spares henv hflush w rfl).2 hs fun haffects => hout ?_
    cases request with
    | flush => exact absurd rfl hflush
    | _ => exact haffects

/-! ## Questions about a hierarchy -/

/-- The request only asks, and it asks about the hierarchy, its nodes or its assets. -/
def Regards (s : Store) (host : HierarchyId) : Request → Prop
  | hierarchy id | root id | nodes id | nodeByKey _ id | computedCounts id | check id => id = host
  | node id | children id | directAssets id | subtreeCount id | nodeAssetIds id =>
    ∃ row ∈ s.rowsOf host, row.id = id
  | asset id | assetNodes id => ∃ asset ∈ s.assetsOf host, asset.id = id
  | _ => False

theorem check_run (env : Surroundings σ) (host : HierarchyId) (w : World σ) :
    ((check host).run env w).1 = .report <$> (w.tree.store.requireHierarchy host >>= fun _ =>
      (·.1) <$> Store.reconcile host .checkOnly w.tree.store) := by
  rw [run, map_run, Tree.reconcile]
  refine congrArg (Answer.report <$> ·) ?_
  have hfirst : ((fun _ => ⟨⟩) <$> Action.read (·.requireHierarchy host) : Action σ PUnit) env w =
      ((fun _ => ⟨⟩) <$> w.tree.store.requireHierarchy host, w) := map_run ..
  cases hknown : w.tree.store.requireHierarchy host with
  | error e => exact congrArg Prod.fst (bind_of_error (hfirst.trans (by rw [hknown]; rfl)))
  | ok found => exact congrArg Prod.fst (bind_of_ok (hfirst.trans (by rw [hknown]; rfl)))

/-- The answer to a question about a hierarchy depends on nothing but the share of it. -/
theorem run_regards {question : Request} {v : World σ} (hs : w.tree.store.Formed)
    (ht : v.tree.store.Formed) (h : Spares host w.tree.store v.tree.store)
    (hquestion : question.Regards w.tree.store host) :
    (question.run env v).1 = (question.run env w).1 := by
  have hrows : v.tree.store.rowsOf host = w.tree.store.rowsOf host := congrArg Store.nodes h
  have hassets : v.tree.store.assetsOf host = w.tree.store.assetsOf host := congrArg Store.assets h
  -- an answer that either share gives as well is the same, for the shares are
  have hsame : ∀ {α : Type} (ask : Store → α), ask (w.tree.store.share host) = ask w.tree.store →
      ask (v.tree.store.share host) = ask v.tree.store → ask v.tree.store = ask w.tree.store := by
    intro α ask hask hask'
    rw [← hask', h, hask]
  have hview : ∀ {α : Type} (wrap : α → Answer) (ask : Store → α),
      ask (w.tree.store.share host) = ask w.tree.store →
        ask (v.tree.store.share host) = ask v.tree.store →
          (Except.ok (wrap (ask v.tree.store)) : Except Error Answer) =
            .ok (wrap (ask w.tree.store)) :=
    fun wrap ask hask hask' => congrArg (Except.ok ∘ wrap) (hsame ask hask hask')
  have hread : ∀ {α : Type} (wrap : α → Answer) (ask : Store → Except Error α),
      ask (w.tree.store.share host) = ask w.tree.store →
        ask (v.tree.store.share host) = ask v.tree.store →
          ((wrap <$> read ask : Action σ Answer) env v).1 =
            ((wrap <$> read ask : Action σ Answer) env w).1 := by
    intro α wrap ask hask hask'
    rw [map_run, map_run]
    exact congrArg (wrap <$> ·) (hsame ask hask hask')
  cases question with
  | hierarchy id =>
    cases hquestion
    exact hview .hierarchy (·.hierarchy? host) (hierarchy?_share _ _) (hierarchy?_share _ _)
  | root id =>
    cases hquestion
    exact hread _ _ (requireRoot_share _ _) (requireRoot_share _ _)
  | nodes id =>
    cases hquestion
    exact hread _ _ (nodesOf_share _ _) (nodesOf_share _ _)
  | nodeByKey key id =>
    cases hquestion
    exact hread _ _ (nodeByKey?_share _ _ key) (nodeByKey?_share _ _ key)
  | computedCounts id =>
    cases hquestion
    exact hread _ _ (computedCounts_share _ _) (computedCounts_share _ _)
  | check id =>
    cases hquestion
    have hknown := hsame (·.requireHierarchy host) (requireHierarchy_share _ _)
      (requireHierarchy_share _ _)
    have hchecked := hsame (fun s => (·.1) <$> Store.reconcile host .checkOnly s)
      (check_share _ _) (check_share _ _)
    rw [check_run, check_run]
    exact congrArg₂ (fun known checked => Answer.report <$> (known >>= fun _ => checked))
      hknown hchecked
  | node id =>
    obtain ⟨row, hrow, rfl⟩ := hquestion
    exact hread _ _ (node?_share hs hrow) (node?_share ht (hrows ▸ hrow))
  | children id =>
    obtain ⟨row, hrow, rfl⟩ := hquestion
    exact hread _ _ (childrenOf_share hs hrow) (childrenOf_share ht (hrows ▸ hrow))
  | directAssets id =>
    obtain ⟨row, hrow, rfl⟩ := hquestion
    exact hview .ids (·.directAssets row.id) (directAssets_share hrow)
      (directAssets_share (hrows ▸ hrow))
  | subtreeCount id =>
    obtain ⟨row, hrow, rfl⟩ := hquestion
    exact hread _ _ (subtreeCount_share hs hrow) (subtreeCount_share ht (hrows ▸ hrow))
  | nodeAssetIds id =>
    obtain ⟨row, hrow, rfl⟩ := hquestion
    exact hread _ _ (assetIdsOf_share hs hrow) (assetIdsOf_share ht (hrows ▸ hrow))
  | asset id =>
    obtain ⟨known, hknown, rfl⟩ := hquestion
    exact hview .assetFound (·.asset? known.id) (asset?_share hs hknown)
      (asset?_share ht (hassets ▸ hknown))
  | assetNodes id =>
    obtain ⟨known, hknown, rfl⟩ := hquestion
    exact hview .ids (·.nodesOfAsset known.id) (nodesOfAsset_share hknown)
      (nodesOfAsset_share (hassets ▸ hknown))
  | _ => cases hquestion

end Request

namespace Store

/-- Whatever a request does, answered or refused, and whatever ids it is given, a hierarchy in which
it does not work keeps its nodes with their amounts, its assets, its attachments and its mark, and
every question about it is answered as before. -/
theorem Reachable.isolated (h : s.Reachable) (henv : env.Passive) (request : Request)
    (hw : w.tree.store = s) (hout : ¬request.Affects s w.tree.queue.jobs other) :
    (request.run env w).2.tree.store.share other = s.share other ∧
      ∀ question : Request, question.Regards s other →
        (question.run env (request.run env w).2).1 = (question.run env w).1 := by
  subst hw
  have hspares := request.run_spares henv h.sound hout
  have hsound := ((request.ensures_effect henv w rfl).2 h.sound).sound
  exact ⟨hspares, fun question hquestion =>
    Request.run_regards h.sound.formed hsound.formed hspares hquestion⟩

/-- Two hierarchies with an asset each. -/
def neighbours : List Request :=
  [.createHierarchy "A", .createHierarchy "B", .createAsset 1 "a" [1], .createAsset 2 "b" [2]]

/-- Both assets are to be detached from the root of the first hierarchy. -/
theorem isolated_neighbours :
    ((Request.detach 1 [1, 2]).run Surroundings.quiet
        ⟨({} : Tree).after neighbours, ()⟩).2.tree.store.share 2 =
        (({} : Tree).after neighbours).store.share 2 ∧
      ((Request.subtreeCount 2).run Surroundings.quiet
          ((Request.detach 1 [1, 2]).run Surroundings.quiet ⟨({} : Tree).after neighbours, ()⟩).2).1 =
        ((Request.subtreeCount 2).run Surroundings.quiet ⟨({} : Tree).after neighbours, ()⟩).1 := by
  have hout : ¬(Request.detach 1 [1, 2]).Affects (({} : Tree).after neighbours).store
      (({} : Tree).after neighbours).queue.jobs 2 := by
    rw [Request.Affects]
    decide +kernel
  have hasked : (Request.subtreeCount 2).Regards (({} : Tree).after neighbours).store 2 := by
    rw [Request.Regards]
    decide +kernel
  have hreachable : (({} : Tree).after neighbours).store.Reachable :=
    Tree.reachable_after Reachable.empty neighbours
  have hisolated := hreachable.isolated Surroundings.passive_quiet (.detach 1 [1, 2])
    (w := ⟨({} : Tree).after neighbours, ()⟩) rfl hout
  exact ⟨hisolated.1, hisolated.2 _ hasked⟩

end Store
end Inventory
