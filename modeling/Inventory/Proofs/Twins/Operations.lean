import Inventory.Proofs.Store.Repair
import Inventory.Proofs.Twins.Tree

/-! # Each operation on twin trees

No operation tells twin trees apart, as long as nobody disturbs it. -/
namespace Inventory
set_option autoImplicit false
open Inventory.Store Inventory.Action

variable {σ τ α β : Type} {env : Surroundings σ} {env' : Surroundings τ} {tree tree' : Tree}

/-- The actions do the same on the two trees, up to what is told apart, and leave them twins. -/
abbrev Action.Agrees (env : Surroundings σ) (env' : Surroundings τ) (tree tree' : Tree)
    (agree : α → β → Prop) (act : Action σ α) (act' : Action τ β) : Prop :=
  Pairs env env' (At tree tree') (At tree tree') (fun a b u u' => agree a b ∧ Twins {} [] u u') act act'

/-- What an edit has marked is the hierarchy whose job it owes. -/
theorem Store.marked_of_marking {s u : Store} (hu : u.marked = s.marked) {propagated : Bool}
    {hierarchy : HierarchyId} :
    ∀ host ∈ (u.marking propagated hierarchy).marked,
      host ∈ s.marked ∨ host ∈ owing propagated hierarchy := by
  intro host hhost
  rcases mem_marking.1 hhost with hold | ⟨rfl, rfl⟩
  · exact Or.inl (hu ▸ hold)
  · exact Or.inr (List.mem_singleton_self _)

namespace Tree

section
variable (henv : env.Passive) (henv' : env'.Passive) (h : Twins {} [] tree tree')
  (hs : tree.store.Tidy)
include h

/-! ## Structure -/

theorem pairs_hierarchyOf (node : NodeId) :
    Pairs env env' (At tree tree') (At tree tree')
      (fun a b u u' => (b = a ∧ ∃ found, tree.store.requireNode node = .ok found ∧
        found.hierarchy = a) ∧ At tree tree' u u')
      (hierarchyOf node) (hierarchyOf node) := by
  refine Pairs.map _ _ (pairs_read (requireNode_agree h.bare node)) ?_
  rintro found found' u u' ⟨⟨hfound, -, hsame⟩, hat⟩
  exact ⟨⟨(Node.bare_congr (·.hierarchy) (fun _ => rfl) hsame).symm, found, hfound, rfl⟩, hat⟩

include henv henv'

/-- A transaction under a lease, which marks nothing. -/
theorem agrees_held (hierarchy : HierarchyId) {change : Transaction α} {change' : Transaction β}
    {agree : α → β → Prop} (hmatches : Matches agree (change tree.store) (change' tree'.store))
    (hmarks : ∀ a s, change tree.store = .ok (a, s) → ∀ host ∈ s.marked, host ∈ tree.store.marked) :
    Agrees env env' tree tree' agree (holding hierarchy (write change))
      (holding hierarchy (write change')) := by
  refine Pairs.holding henv henv' h hierarchy fun {u u'} hu hu' htwins => ?_
  exact pairs_write htwins (fun _ => []) (hu ▸ hu' ▸ hmatches) fun a s hrun host hhost =>
    Or.inl (hu ▸ hmarks a s (hu ▸ hrun) host hhost)

omit henv henv' in
theorem agrees_nothing {agree : α → β → Prop} {a : α} {b : β} (hagree : agree a b) :
    Agrees env env' tree tree' agree (pure a) (pure b) := by
  refine (pairs_pure a b).weaken ?_
  rintro _ _ u u' ⟨⟨rfl, rfl⟩, rfl, rfl⟩
  exact ⟨hagree, h⟩

theorem agrees_attached {p q : Bool} {change change' : Transaction (HierarchyId × Outcome)}
    (hmatches : Matches (fun made made' => made.1 = made'.1 ∧ made.2.bare = made'.2.bare)
      (change tree.store) (change' tree'.store))
    (hmarks : ∀ made s, change tree.store = .ok (made, s) →
      ∀ host ∈ s.marked, host ∈ tree.store.marked ∨ host ∈ owing p made.1) :
    Agrees env env' tree tree' (fun outcome outcome' => outcome.bare = outcome'.bare)
      (do
        let (hierarchy, outcome) ← write change
        deferUnless p hierarchy
        announce .afterAdd hierarchy outcome.changes
        return outcome)
      (do
        let (hierarchy, outcome) ← write change'
        deferUnless q hierarchy
        announce .afterAdd hierarchy outcome.changes
        return outcome) := by
  refine (pairs_write h (fun made => owing p made.1) hmatches hmarks).bind
    fun made made' => .given fun hmade => ?_
  refine (pairs_deferUnless p q made.1 made'.1).bind fun _ _ => ?_
  refine (pairs_announce henv henv' .afterAdd _ _ _ _).bind fun _ _ => ?_
  refine (pairs_pure made.2 made'.2).weaken ?_
  rintro _ _ _ _ ⟨⟨rfl, rfl⟩, htwins⟩
  exact ⟨hmade.2, htwins⟩

theorem agrees_detached {p q : Bool} {hierarchy : HierarchyId} {change change' : Transaction Outcome}
    (hmatches : Matches (fun outcome outcome' => outcome.bare = outcome'.bare) (change tree.store)
      (change' tree'.store))
    (hmarks : ∀ outcome s, change tree.store = .ok (outcome, s) →
      ∀ host ∈ s.marked, host ∈ tree.store.marked ∨ host ∈ owing p hierarchy) :
    Agrees env env' tree tree' (fun outcome outcome' => outcome.bare = outcome'.bare)
      (do
        let outcome ← write change
        deferUnless p hierarchy
        announce .afterRemove hierarchy outcome.changes
        announce .afterAdd hierarchy outcome.rehomed
        return outcome)
      (do
        let outcome ← write change'
        deferUnless q hierarchy
        announce .afterRemove hierarchy outcome.changes
        announce .afterAdd hierarchy outcome.rehomed
        return outcome) := by
  refine (pairs_write h (fun _ => owing p hierarchy) hmatches hmarks).bind
    fun outcome outcome' => .given fun houtcome => ?_
  refine (pairs_deferUnless p q hierarchy hierarchy).bind fun _ _ => ?_
  refine (pairs_announce henv henv' .afterRemove _ _ _ _).bind fun _ _ => ?_
  refine (pairs_announce henv henv' .afterAdd _ _ _ _).bind fun _ _ => ?_
  refine (pairs_pure outcome outcome').weaken ?_
  rintro _ _ _ _ ⟨⟨rfl, rfl⟩, htwins⟩
  exact ⟨houtcome, htwins⟩

omit henv henv' in
include hs in
theorem agrees_createHierarchy (name : String) :
    Agrees env env' tree tree' Eq (createHierarchy name) (createHierarchy name) := by
  refine (pairs_lift (Name.validate name)).bind fun valid valid' => .given fun hsame => ?_
  subst hsame
  exact pairs_write h (fun _ => []) (matches_createHierarchy h.bare _) fun made s hrun host hhost =>
    Or.inl ((createHierarchy_eq_ok hs.toSound hrun).marked ▸ hhost)

include hs

theorem agrees_createChild (parent : NodeId) (value : Option String) :
    Agrees env env' tree tree' Eq (createChild parent value) (createChild parent value) := by
  refine (pairs_hierarchyOf h parent).bind fun host host' => .given ?_
  rintro ⟨rfl, -⟩
  refine (pairs_view fun tree => tree.options.newNodeName).bind fun preset preset' => .given ?_
  rintro ⟨rfl, rfl⟩
  have hpreset := congrArg Options.newNodeName h.options
  have hsame : tree.options.newNodeName = tree'.options.newNodeName := hpreset
  rw [hsame]
  exact agrees_held henv henv' h host' (matches_createChild h.bare parent value _)
    fun made s hrun host hhost => (createChild_eq_ok hs.toSound hrun).marked ▸ hhost

theorem agrees_getOrCreateChild (parent : NodeId) (value : String) :
    Agrees env env' tree tree' (fun made made' => made.1.bare = made'.1.bare ∧ made.2 = made'.2)
      (getOrCreateChild parent value) (getOrCreateChild parent value) := by
  refine (pairs_lift (Name.validate value)).bind fun name name' => .given ?_
  rintro rfl
  refine (pairs_hierarchyOf h parent).bind fun host host' => .given ?_
  rintro ⟨rfl, -⟩
  refine agrees_held henv henv' h host' ?_ fun made s hrun host hhost => ?_
  · rw [Transaction.get_bind, Transaction.get_bind]
    exact .ask (requireNode_agree h.bare parent) fun node node' _ _ hnode => matches_getOrInsertChild hnode h.bare name'
  · rw [Transaction.get_bind] at hrun
    obtain ⟨node, hnode, hrun⟩ := Transaction.lift_bind_eq_ok.1 hrun
    have hin := isIn_of_row (hs.formed.requireNode hnode).1
    exact (getOrInsertChild_eq_ok hs.toSound hin hrun).1.marked ▸ hhost

theorem agrees_createPath (hierarchy : HierarchyId) (path : String) :
    Agrees env env' tree tree' (fun last last' => last.bare = last'.bare)
      (createPath hierarchy path) (createPath hierarchy path) :=
  agrees_held henv henv' h hierarchy (matches_createPath h.bare path)
    fun _ _ hrun _ hhost => (createPath_eq_ok hs.toSound hrun).marked ▸ hhost

theorem agrees_deleteNode (id : NodeId) :
    Agrees env env' tree tree' (fun _ _ => True) (deleteNode id) (deleteNode id) := by
  refine (pairs_hierarchyOf h id).bind fun host host' => .given ?_
  rintro ⟨rfl, -⟩
  refine agrees_held henv henv' h host' (matches_removeNode h.bare id) fun made s hrun host hhost => ?_
  obtain ⟨row, -, -, rfl, -⟩ := removeNode_eq_ok hs.formed hrun
  exact hhost

/-! ## Assets and attachments -/

theorem agrees_createAsset (hierarchy : HierarchyId) (name : String) (nodes : List NodeId) :
    Agrees env env' tree tree' Eq (createAsset hierarchy name nodes) (createAsset hierarchy name nodes) := by
  refine (pairs_lift (Name.validate name)).bind fun valid valid' => .given ?_
  rintro rfl
  refine (pairs_view fun tree => tree.options.propagates nodes.eraseDups.length).bind
    fun p q => .given fun _ => ?_
  refine (pairs_write h (fun _ => owing p hierarchy) (matches_createAsset h.bare _ _)
    fun made s hrun => ?_).bind fun made made' => .given ?_
  · obtain ⟨-, -, -, -, -, hadded⟩ := createAsset_eq_ok hs.toSteady hrun
    rw [hadded.result]
    exact marked_of_marking rfl
  rintro rfl
  refine (pairs_deferUnless p q hierarchy hierarchy).bind fun _ _ => ?_
  refine (pairs_announce henv henv' .afterAdd _ _ _ _).bind fun _ _ => ?_
  exact (pairs_pure _ _).weaken fun _ _ _ _ hpost => ⟨hpost.1.1.trans hpost.1.2.symm, hpost.2⟩

theorem agrees_deleteAsset (id : AssetId) :
    Agrees env env' tree tree' (fun _ _ => True) (deleteAsset id) (deleteAsset id) := by
  refine (pairs_read_same (bare_congr (fun s : Store => (do
    return (← s.requireAsset id, s.nodesOfAsset id) : Except Error (Asset × List NodeId)))
    (fun _ => rfl) h.bare)).bind fun found found' => .given ?_
  rintro ⟨rfl, hread⟩
  obtain ⟨asset, hasset, hpair⟩ := Inventory.bind_eq_ok.1 hread
  cases hpair
  obtain ⟨hknown, rfl⟩ := requireAsset_eq_ok hasset
  refine (pairs_announce henv henv' .beforeRemove _ _ _ _).bind fun _ _ => ?_
  refine (pairs_view fun tree => tree.options).bind fun options options' => .given fun _ => ?_
  refine (pairs_write h (fun removed => owing removed.2 asset.hierarchy)
    (matches_removeAsset h.bare (hs.formed.owned asset hknown) asset.id _ _) fun removed s hrun => ?_).bind
    fun removed removed' => .given fun _ => ?_
  · obtain ⟨-, hnodes, hresult, -⟩ := removeAsset_eq_ok hs.toSteady hrun
    rw [hresult (hs.toSound.within_asset hknown fun node => (hnodes node).1)]
    exact marked_of_marking rfl
  refine (pairs_deferUnless removed.2 removed'.2 _ _).bind fun _ _ => ?_
  exact (pairs_announce henv henv' .afterRemove _ _ _ _).weaken fun _ _ _ _ hpost => ⟨trivial, hpost⟩

theorem agrees_attach (node : NodeId) (assets : List AssetId) :
    Agrees env env' tree tree' (fun outcome outcome' => outcome.bare = outcome'.bare)
      (attach node assets) (attach node assets) := by
  rw [attach, attach]
  by_cases hnone : assets.eraseDups.isEmpty = true
  · rw [if_pos hnone, if_pos hnone]
    exact agrees_nothing h rfl
  · rw [if_neg hnone, if_neg hnone]
    refine (pairs_view fun tree => tree.options.propagates assets.eraseDups.length).bind
      fun p q => .given fun _ => ?_
    refine agrees_attached henv henv' h (matches_attachAll hs.formed h.bare node _) fun made s hrun => ?_
    rw [(attachAll_eq_ok hs.formed hrun).1.result]
    exact marked_of_marking rfl

theorem agrees_attachToNodes (asset : AssetId) (nodes : List NodeId) :
    Agrees env env' tree tree' (fun outcome outcome' => outcome.bare = outcome'.bare)
      (attachToNodes asset nodes) (attachToNodes asset nodes) := by
  rw [attachToNodes, attachToNodes]
  by_cases hnone : nodes.eraseDups.isEmpty = true
  · rw [if_pos hnone, if_pos hnone]
    exact agrees_nothing h rfl
  · rw [if_neg hnone, if_neg hnone]
    refine (pairs_view fun tree => tree.options.propagates nodes.eraseDups.length).bind
      fun p q => .given fun _ => ?_
    refine agrees_attached henv henv' h (matches_attachToAll hs.formed h.bare asset _)
      fun made s hrun => ?_
    obtain ⟨_, -, hattached, -⟩ := attachToAll_eq_ok hs.formed hrun
    rw [hattached.result]
    exact marked_of_marking rfl

theorem agrees_detach (node : NodeId) (assets : List AssetId) :
    Agrees env env' tree tree' (fun outcome outcome' => outcome.bare = outcome'.bare)
      (detach node assets) (detach node assets) := by
  rw [detach, detach]
  by_cases hnone : assets.eraseDups.isEmpty = true
  · rw [if_pos hnone, if_pos hnone]
    exact agrees_nothing h rfl
  · rw [if_neg hnone, if_neg hnone]
    have hquestion : ∀ s : Store,
        (do return ((← s.bare.requireNode node).hierarchy,
          assets.eraseDups.filter (s.bare.isAttached · node)) :
            Except Error (HierarchyId × List AssetId)) =
          do return ((← s.requireNode node).hierarchy, assets.eraseDups.filter (s.isAttached · node)) := by
      intro s
      rw [requireNode_bare, bind_map_left]
      rfl
    refine (pairs_read_same (bare_congr _ hquestion h.bare)).bind fun found found' => .given ?_
    rintro ⟨rfl, hread⟩
    obtain ⟨top, hfound, hpair⟩ := Inventory.bind_eq_ok.1 hread
    cases hpair
    refine (pairs_announce henv henv' .beforeRemove _ _ _ _).bind fun _ _ => ?_
    refine (pairs_view fun tree => tree.options.propagates assets.eraseDups.length).bind
      fun p q => .given fun _ => ?_
    refine agrees_detached henv henv' h (matches_detachAll h.bare ?_ node _) fun outcome s hrun => ?_
    · exact hs.formed.hosted top.row (hs.formed.requireNode hfound).1
    · rw [(detachAll_eq_ok hs.formed hrun).1.result]
      exact marked_of_marking rfl

theorem agrees_detachFromNodes (asset : AssetId) (nodes : List NodeId) :
    Agrees env env' tree tree' (fun outcome outcome' => outcome.bare = outcome'.bare)
      (detachFromNodes asset nodes) (detachFromNodes asset nodes) := by
  rw [detachFromNodes, detachFromNodes]
  by_cases hnone : nodes.eraseDups.isEmpty = true
  · rw [if_pos hnone, if_pos hnone]
    exact agrees_nothing h rfl
  · rw [if_neg hnone, if_neg hnone]
    refine (pairs_read_same (bare_congr (fun s : Store => (do
      return ((← s.requireAsset asset).hierarchy, s.nodesOfAsset asset) :
        Except Error (HierarchyId × List NodeId))) (fun _ => rfl) h.bare)).bind
      fun found found' => .given ?_
    rintro ⟨rfl, hread⟩
    obtain ⟨known, hfound, hpair⟩ := Inventory.bind_eq_ok.1 hread
    cases hpair
    refine (pairs_announce henv henv' .beforeRemove _ _ _ _).bind fun _ _ => ?_
    refine (pairs_view fun tree => tree.options.propagates nodes.eraseDups.length).bind
      fun p q => .given fun _ => ?_
    refine agrees_detached henv henv' h (matches_detachFromAll h.bare ?_ asset _) fun outcome s hrun => ?_
    · exact hs.formed.owned known (requireAsset_eq_ok hfound).1
    · obtain ⟨_, -, -, -, hdetached, -⟩ := detachFromAll_eq_ok hs.formed hrun
      rw [hdetached.result]
      exact marked_of_marking rfl

end

/-! ## Moving -/

section
variable {leases : Leases} {hierarchy : HierarchyId} (henv : env.Passive) (henv' : env'.Passive)
  (h : Twins leases [] tree tree') (hs : tree.store.Tidy)
  (hhost : ∃ host ∈ tree.store.hierarchies, host.id = hierarchy)
include henv henv' h hs hhost

theorem pairs_moveSeen (target : NodeId) (assets : List AssetId) (observed : List Attachment) :
    Pairs env env' (At tree tree') (At tree tree')
      (fun moved moved' u u' => moved.bare = moved'.bare ∧ Twins leases [] u u')
      (moveSeen hierarchy target assets observed) (moveSeen hierarchy target assets observed) := by
  refine (pairs_announce henv henv' .beforeRemove _ _ _ _).bind fun _ _ => ?_
  refine (pairs_view fun tree => tree.options.propagates (observed.length + assets.length)).bind
    fun p q => .given fun _ => ?_
  refine (pairs_write h (fun _ => owing p hierarchy)
    (matches_move h.bare hhost hs.legible target assets observed) fun added s hrun => ?_).bind
    fun added added' => .given fun hadded => ?_
  · obtain ⟨_, -, hmoved⟩ := move_eq_ok hs.toSteady hrun
    obtain ⟨t, ht, rfl⟩ := hmoved.result
    exact marked_of_marking ht.marked
  refine (pairs_announce henv henv' .afterRemove _ _ _ _).bind fun _ _ => ?_
  refine (pairs_announce henv henv' .afterAdd _ _ _ _).bind fun _ _ => ?_
  refine (pairs_deferUnless p q hierarchy hierarchy).bind fun _ _ => ?_
  refine (pairs_pure _ _).weaken ?_
  rintro _ _ _ _ ⟨⟨rfl, rfl⟩, htwins⟩
  refine ⟨?_, htwins⟩
  rw [Reassignment.bare, Reassignment.bare, hadded]

theorem pairs_moveObserved (target : NodeId) (assets : List AssetId) (observed : List Attachment) :
    Pairs env env' (At tree tree') (At tree tree')
      (fun moved moved' u u' => moved.bare = moved'.bare ∧ Twins leases [] u u')
      (moveObserved hierarchy target assets observed)
      (moveObserved hierarchy target assets observed) := by
  rw [moveObserved_eq, moveObserved_eq]
  refine (pairs_read_same (bare_congr (fun s : Store =>
    (.ok (s.attachmentsOf assets) : Except Error (List Attachment))) (fun _ => rfl) h.bare)).bind
    fun snapshot snapshot' => .given ?_
  rintro ⟨rfl, -⟩
  by_cases hsame : snapshot' = observed
  · rw [if_pos hsame, if_pos hsame]
    exact pairs_moveSeen henv henv' h hs hhost target assets observed
  · rw [if_neg hsame, if_neg hsame]
    refine (pairs_lift _).weaken ?_
    rintro moved _ _ _ ⟨rfl, rfl, rfl⟩
    exact ⟨rfl, h⟩

end

section
variable (henv : env.Passive) (henv' : env'.Passive) (h : Twins {} [] tree tree')
  (hs : tree.store.Tidy)
include henv henv' h hs

theorem agrees_reassign (assets : List AssetId) (target : NodeId) :
    Agrees env env' tree tree' (fun moved moved' => moved.bare = moved'.bare)
      (reassign assets target) (reassign assets target) := by
  rw [reassign, reassign]
  refine (pairs_hierarchyOf h target).bind fun host host' => .given ?_
  rintro ⟨rfl, top, hfound, rfl⟩
  by_cases hnone : assets.eraseDups.isEmpty = true
  · rw [if_pos hnone, if_pos hnone]
    exact agrees_nothing h rfl
  · rw [if_neg hnone, if_neg hnone]
    refine (pairs_read_same (bare_congr (rowsToMove assets.eraseDups top.hierarchy)
      (fun _ => rfl) h.bare)).bind fun observed observed' => .given ?_
    rintro ⟨rfl, -⟩
    have hhost := hs.formed.hosted top.row (hs.formed.requireNode hfound).1
    refine Pairs.holding henv henv' h top.hierarchy fun {u u'} hu hu' htwins => ?_
    exact pairs_moveObserved henv henv' htwins (hu ▸ hs) (hu ▸ hhost) target assets.eraseDups observed'

/-! ## Reconciliation -/

omit henv henv' hs in
theorem agrees_schedule (hierarchy : HierarchyId) :
    Agrees env env' tree tree' (fun _ _ => True) (schedule hierarchy) (schedule hierarchy) := by
  rintro w v ⟨rfl, rfl⟩
  refine Or.inr ⟨_, _, rfl, rfl, trivial, h.options, h.bare, h.first, h.second, fun host hhost => ?_⟩
  have hjob := (h.covered host hhost).resolve_left List.not_mem_nil
  exact Or.inr ((Queue.mem_jobs_schedule ..).2 (Or.inr hjob))

theorem agrees_reconcile (hierarchy : HierarchyId) (mode : Mode) :
    Agrees env env' tree tree' (fun report report' => report.bare = report'.bare)
      (reconcile hierarchy mode) (reconcile hierarchy mode) := by
  have hhost : tree.store.requireHierarchy hierarchy = tree'.store.requireHierarchy hierarchy :=
    bare_congr (·.requireHierarchy hierarchy) (fun _ => rfl) h.bare
  have hmatches : ∀ mode, Matches (fun report report' => report.bare = report'.bare)
      (Store.reconcile hierarchy mode tree.store) (Store.reconcile hierarchy mode tree'.store) :=
    matches_reconcile hs.placed h.bare
  have hfirst : Pairs env env' (At tree tree') (At tree tree') (fun _ _ => At tree tree')
      (discard (Action.read (·.requireHierarchy hierarchy)) : Action σ PUnit)
      (discard (Action.read (·.requireHierarchy hierarchy)) : Action τ PUnit) :=
    Pairs.map _ _ (pairs_read_same hhost) fun _ _ _ _ hpost => hpost.2
  refine hfirst.bind fun _ _ => ?_
  cases mode with
  | repair =>
    refine agrees_held henv henv' h hierarchy (hmatches .repair) fun report s hrun host hmarked => ?_
    obtain ⟨-, -, -, hleft⟩ := reconcile_sound hs.toSound hrun
    exact List.mem_of_mem_filter (hleft ▸ hmarked)
  | checkOnly =>
    have hanswers := (hmatches .checkOnly).answers
    refine (pairs_read hanswers).weaken ?_
    rintro report report' _ _ ⟨⟨-, -, hsame⟩, rfl, rfl⟩
    exact ⟨hsame, h⟩

end
end Tree
end Inventory
