import Inventory.Proofs.Tree.Phases
import Inventory.Tree.Reassigning
import Inventory.Tree.Reconciling
import Inventory.Tree.Structure

/-! # The phases of each operation

Every operation that changes a tree reads what it needs, lets others act if it has to wait or to
tell observers of removals, and carries out one transaction. -/
namespace Inventory.Tree
set_option autoImplicit false
open Inventory.Action
variable {σ : Type} {env : Surroundings σ} {moves : Store → Store → Prop} {options : Options}

/-! ## Structure -/

theorem hierarchyOf_eq (id : NodeId) :
    (hierarchyOf id : Action σ HierarchyId) = Action.read fun s => (·.hierarchy) <$> s.requireNode id :=
  map_read _ _

theorem ensures_hierarchyOf (node : NodeId) :
    Ensures env options (hierarchyOf node : Action σ HierarchyId) fun s r s' =>
      r = (·.hierarchy) <$> s.requireNode node ∧ s' = s :=
  ensures_map_read (·.hierarchy) (·.requireNode node)

theorem ensures_createHierarchy (henv : env.Moves moves) (name : String) :
    Ensures env options (createHierarchy name)
      (Phased moves (fun _ => Name.validate name) Store.createHierarchy fun _ made => made) :=
  (ensures_lift _).phased fun name => ensures_write_ends henv (Store.createHierarchy name)

theorem ensures_createChild (henv : env.Moves moves) (parent : NodeId) (value : Option String) :
    Ensures env options (createChild parent value)
      (Phased moves (fun s => (·.hierarchy) <$> s.requireNode parent)
        (fun hierarchy => Store.createChild hierarchy parent value options.newNodeName)
        fun _ child => child) :=
  (ensures_hierarchyOf parent).phased fun hierarchy =>
    ensures_options (·.newNodeName) ((ensures_write_ends henv _).held henv hierarchy)

theorem ensures_createPath (henv : env.Moves moves) (hierarchy : HierarchyId) (path : String) :
    Ensures env options (createPath hierarchy path)
      (Finishes moves (Store.createPath hierarchy path) id) :=
  (ensures_write_ends henv _).held henv hierarchy

theorem ensures_deleteNode (henv : env.Moves moves) (id : NodeId) :
    Ensures env options (deleteNode id)
      (Phased moves (fun s => (·.hierarchy) <$> s.requireNode id)
        (fun hierarchy => Store.removeNode hierarchy id) fun _ _ => ()) :=
  (ensures_hierarchyOf id).phased fun hierarchy =>
    (ensures_write_ends henv _).held henv hierarchy

theorem ensures_getOrCreateChild (henv : env.Moves moves) (parent : NodeId) (value : String) :
    Ensures env options (getOrCreateChild parent value)
      (Phased moves
        (fun s => do
          let value ← Name.validate value
          let hierarchy ← (·.hierarchy) <$> s.requireNode parent
          return (value, hierarchy))
        (fun p => do Store.getOrInsertChild (← (← get).requireNode parent) p.1)
        fun _ child => child) :=
  Ensures.asks (fun value _ => do Store.getOrInsertChild (← (← get).requireNode parent) value)
    (fun _ _ child => child) (ensures_lift _) fun _ => (ensures_hierarchyOf parent).phased fun hierarchy =>
    (ensures_write_ends henv _).held henv hierarchy

/-! ## Assets and attachments -/

theorem ensures_createAsset (henv : env.Moves moves) (hierarchy : HierarchyId) (name : String)
    (nodes : List NodeId) :
    Ensures env options (createAsset hierarchy name nodes)
      (Phased moves (fun _ => Name.validate name)
        (fun name => Store.createAsset hierarchy name nodes.eraseDups
          (options.propagates nodes.eraseDups.length))
        fun _ made => made.1) :=
  (ensures_lift _).phased fun name => ensures_propagates nodes.eraseDups.length <|
    (ensures_write_ends henv _).ends Prod.fst fun made =>
      ensures_quietly (ensures_deferUnless _ _) <|
        ensures_quietly (ensures_announce_after henv .afterAdd (by decide) _ _) (ensures_pure made.1)

/-- What the deletion of an asset does once observers have been told of it. -/
def deleteTold (hierarchy : HierarchyId) (id : AssetId) : Action σ Unit := do
  let options ← Action.view (·.options)
  let removed ← Action.write (Store.removeAsset hierarchy id options.propagates)
  Action.deferUnless removed.2 hierarchy
  Action.announce .afterRemove hierarchy [⟨id, removed.1⟩]

theorem ensures_deleteTold (henv : env.Moves moves) {stops : Error → Prop} (hierarchy : HierarchyId)
    (id : AssetId) :
    Ensures env options (deleteTold hierarchy id)
      (Ends stops Eq (Store.removeAsset hierarchy id options.propagates) fun _ => ()) :=
  ensures_options (fun options => options) <|
    (ensures_write_here _).ends (fun _ => ()) fun removed =>
      ensures_quietly (ensures_deferUnless _ _) (ensures_announce_after henv .afterRemove (by decide) _ _)

theorem ensures_deleteAsset (henv : env.Moves moves) (id : AssetId) :
    Ensures env options (deleteAsset id)
      (Phased moves (fun s => do return (← s.requireAsset id, s.nodesOfAsset id))
        (fun found => Store.removeAsset found.1.hierarchy id options.propagates) fun _ _ => ()) :=
  (ensures_read _).phased fun found => (ensures_announce_before henv _ _).moved henv fun _ =>
    (ensures_deleteTold henv found.1.hierarchy id).of_here henv

theorem ensures_attach (henv : env.Moves moves) (node : NodeId) {assets : List AssetId}
    (hne : assets.eraseDups ≠ []) :
    Ensures env options (attach node assets)
      (Finishes moves
        (Store.attachAll node assets.eraseDups (options.propagates assets.eraseDups.length))
        Prod.snd) := by
  rw [attach, if_neg (by simpa using hne)]
  refine ensures_propagates assets.eraseDups.length ?_
  refine (ensures_write_ends henv _).ends Prod.snd fun made => ?_
  exact ensures_quietly (ensures_deferUnless _ _) <|
    ensures_quietly (ensures_announce_after henv .afterAdd (by decide) _ _) (ensures_pure made.2)

theorem ensures_attachToNodes (henv : env.Moves moves) (asset : AssetId) {nodes : List NodeId}
    (hne : nodes.eraseDups ≠ []) :
    Ensures env options (attachToNodes asset nodes)
      (Finishes moves
        (Store.attachToAll asset nodes.eraseDups (options.propagates nodes.eraseDups.length))
        Prod.snd) := by
  rw [attachToNodes, if_neg (by simpa using hne)]
  refine ensures_propagates nodes.eraseDups.length ?_
  refine (ensures_write_ends henv _).ends Prod.snd fun made => ?_
  exact ensures_quietly (ensures_deferUnless _ _) <|
    ensures_quietly (ensures_announce_after henv .afterAdd (by decide) _ _) (ensures_pure made.2)

/-- What a detachment does once observers have been told of it. -/
def detachTold (hierarchy : HierarchyId) (batch : Nat) (change : Bool → Transaction Outcome) :
    Action σ Outcome := do
  let propagate ← Action.propagates batch
  let outcome ← Action.write (change propagate)
  Action.deferUnless propagate hierarchy
  Action.announce .afterRemove hierarchy outcome.changes
  Action.announce .afterAdd hierarchy outcome.rehomed
  return outcome

theorem ensures_detachTold (henv : env.Moves moves) {stops : Error → Prop} (hierarchy : HierarchyId)
    (batch : Nat) (change : Bool → Transaction Outcome) :
    Ensures env options (detachTold hierarchy batch change)
      (Ends stops Eq (change (options.propagates batch)) fun outcome => outcome) := by
  refine ensures_propagates batch ?_
  refine (ensures_write_here _).ends id fun outcome => ?_
  exact ensures_quietly (ensures_deferUnless _ _) <|
    ensures_quietly (ensures_announce_after henv .afterRemove (by decide) _ _) <|
      ensures_quietly (ensures_announce_after henv .afterAdd (by decide) _ _) (ensures_pure outcome)

theorem ensures_detach (henv : env.Moves moves) (node : NodeId) {assets : List AssetId}
    (hne : assets.eraseDups ≠ []) :
    Ensures env options (detach node assets)
      (Phased moves
        (fun s => do
          return ((← s.requireNode node).hierarchy, assets.eraseDups.filter (s.isAttached · node)))
        (fun found => Store.detachAll found.1 node assets.eraseDups
          (options.propagates assets.eraseDups.length))
        fun _ outcome => outcome) := by
  rw [detach, if_neg (by simpa using hne)]
  refine (ensures_read _).phased fun found => (ensures_announce_before henv _ _).moved henv fun _ => ?_
  exact (ensures_detachTold henv found.1 assets.eraseDups.length
    (Store.detachAll found.1 node assets.eraseDups)).of_here henv

theorem ensures_detachFromNodes (henv : env.Moves moves) (asset : AssetId) {nodes : List NodeId}
    (hne : nodes.eraseDups ≠ []) :
    Ensures env options (detachFromNodes asset nodes)
      (Phased moves
        (fun s => do return ((← s.requireAsset asset).hierarchy, s.nodesOfAsset asset))
        (fun found => Store.detachFromAll found.1 asset nodes.eraseDups
          (options.propagates nodes.eraseDups.length))
        fun _ outcome => outcome) := by
  rw [detachFromNodes, if_neg (by simpa using hne)]
  refine (ensures_read _).phased fun found => (ensures_announce_before henv _ _).moved henv fun _ => ?_
  exact (ensures_detachTold henv found.1 nodes.eraseDups.length
    (Store.detachFromAll found.1 asset nodes.eraseDups)).of_here henv

/-! ## Moving -/

/-- The rows of a batch, all of whose assets must belong to the hierarchy. -/
def rowsToMove (assets : List AssetId) (hierarchy : HierarchyId) (s : Store) :
    Except Error (List Attachment) := do
  s.ensureAssetsIn hierarchy assets
  return s.attachmentsOf assets

/-- The reads of a move: the hierarchy of the target and the rows of the batch. -/
def observe (assets : List AssetId) (target : NodeId) (s : Store) :
    Except Error (HierarchyId × List Attachment) := do
  let hierarchy ← (·.hierarchy) <$> s.requireNode target
  let observed ← rowsToMove assets hierarchy s
  return (hierarchy, observed)

theorem observe_eq_ok {s : Store} (hs : s.Formed) {assets : List AssetId} {id : NodeId}
    {found : HierarchyId × List Attachment} (h : observe assets id s = .ok found) :
    (∃ target ∈ s.nodes, target.id = id ∧ target.hierarchy = found.1) ∧
      (∀ id ∈ assets, ∃ asset ∈ s.assets, asset.id = id ∧ asset.hierarchy = found.1) ∧
      found.2 = s.attachmentsOf assets := by
  obtain ⟨hierarchy, hfound, h⟩ := Inventory.bind_eq_ok.1 h
  obtain ⟨node, hnode, rfl⟩ := Inventory.map_eq_ok.1 hfound
  obtain ⟨observed, hobserved, h⟩ := Inventory.bind_eq_ok.1 h
  obtain ⟨_, hassets, hrows⟩ := Inventory.bind_eq_ok.1 hobserved
  cases h
  cases hrows
  obtain ⟨hin, hid⟩ := hs.requireNode hnode
  exact ⟨⟨node.row, hin, hid, rfl⟩, hs.ensureAssetsIn_iff.1 hassets, rfl⟩

/-- What a move reports. -/
def reassignment (options : Options) (assets : List AssetId) (target : NodeId)
    (observed : List Attachment) (added : Edited AssetId) : Reassignment :=
  { target
    moved := assets
    rowsRemoved := observed.length
    rowsAdded := added.changed.length
    nodesUpdated := added.nodesUpdated
    deferred := !options.propagates (observed.length + assets.length) }

/-- A move once the rows seen before have been seen again. -/
def moveSeen (hierarchy : HierarchyId) (target : NodeId) (assets : List AssetId)
    (observed : List Attachment) : Action σ Reassignment := do
  Action.announce .beforeRemove hierarchy (Change.group observed)
  let propagate ← Action.propagates (observed.length + assets.length)
  let added ← Action.write (Store.move hierarchy target assets observed propagate)
  Action.announce .afterRemove hierarchy (Change.group observed)
  Action.announce .afterAdd hierarchy (Change.perAsset added.changed target)
  Action.deferUnless propagate hierarchy
  return {
    target
    moved := assets
    rowsRemoved := observed.length
    rowsAdded := added.changed.length
    nodesUpdated := added.nodesUpdated
    deferred := !propagate }

theorem moveObserved_eq (hierarchy : HierarchyId) (target : NodeId) (assets : List AssetId)
    (observed : List Attachment) :
    (moveObserved hierarchy target assets observed : Action σ Reassignment) =
      Action.read (fun s => .ok (s.attachmentsOf assets)) >>= fun snapshot =>
        if snapshot = observed then moveSeen hierarchy target assets observed
        else Action.lift (.error (.conflict observed.length snapshot.length)) := by
  rw [moveObserved]
  congr 1
  funext snapshot
  by_cases hsame : snapshot = observed
  · rw [if_neg (not_not.2 hsame), if_pos hsame, hsame]
    rfl
  · rw [if_pos hsame, if_neg hsame]
    rfl

/-- What a move does once observers have been told of it. -/
def moveTold (hierarchy : HierarchyId) (target : NodeId) (assets : List AssetId)
    (observed : List Attachment) : Action σ Reassignment := do
  let propagate ← Action.propagates (observed.length + assets.length)
  let added ← Action.write (Store.move hierarchy target assets observed propagate)
  Action.announce .afterRemove hierarchy (Change.group observed)
  Action.announce .afterAdd hierarchy (Change.perAsset added.changed target)
  Action.deferUnless propagate hierarchy
  return {
    target
    moved := assets
    rowsRemoved := observed.length
    rowsAdded := added.changed.length
    nodesUpdated := added.nodesUpdated
    deferred := !propagate }

theorem moveSeen_run (hierarchy : HierarchyId) (target : NodeId) (assets : List AssetId)
    (observed : List Attachment) (w : World σ) :
    moveSeen hierarchy target assets observed env w =
      moveTold hierarchy target assets observed env
        (w.forewarned env hierarchy (Change.group observed)) := rfl

theorem ensures_moveTold (henv : env.Moves moves) {stops : Error → Prop} (hierarchy : HierarchyId)
    (target : NodeId) (assets : List AssetId) (observed : List Attachment) :
    Ensures env options (moveTold hierarchy target assets observed)
      (Ends stops Eq
        (Store.move hierarchy target assets observed
          (options.propagates (observed.length + assets.length)))
        (reassignment options assets target observed)) := by
  refine ensures_propagates (observed.length + assets.length) ?_
  refine (ensures_write_here _).ends
    (reassignment options assets target observed) fun added => ?_
  exact ensures_quietly (ensures_announce_after henv .afterRemove (by decide) _ _) <|
    ensures_quietly (ensures_announce_after henv .afterAdd (by decide) _ _) <|
      ensures_quietly (ensures_deferUnless _ _) (ensures_pure _)

theorem ensures_moveSeen (henv : env.Moves moves) {stops : Error → Prop} (hierarchy : HierarchyId)
    (target : NodeId) (assets : List AssetId) (observed : List Attachment) :
    Ensures env options (moveSeen hierarchy target assets observed)
      (Ends stops moves
        (Store.move hierarchy target assets observed
          (options.propagates (observed.length + assets.length)))
        (reassignment options assets target observed)) :=
  (ensures_announce_before henv _ _).moved henv fun _ =>
    (ensures_moveTold henv hierarchy target assets observed).of_here henv

theorem ensures_moveObserved (henv : env.Moves moves) (hierarchy : HierarchyId) (target : NodeId)
    (assets : List AssetId) (observed : List Attachment) :
    Ensures env options (moveObserved hierarchy target assets observed)
      (Finishes moves
        (Store.move hierarchy target assets observed
          (options.propagates (observed.length + assets.length)))
        (reassignment options assets target observed)) := by
  rw [moveObserved_eq]
  refine Ensures.after (fun _ => True) ((ensures_read _).weaken fun s r s' hpost =>
    ⟨⟨s.attachmentsOf assets, trivial, hpost.1⟩, hpost.2⟩) fun snapshot _ => ?_
  by_cases hsame : snapshot = observed
  · rw [if_pos hsame]
    exact ensures_moveSeen henv hierarchy target assets observed
  · rw [if_neg hsame]
    exact fun w hw => ⟨hw, w.tree.store, henv.refl _, Or.inl ⟨_, rfl, rfl, Or.inr (Or.inl rfl)⟩⟩

theorem ensures_reassign_nil (target : NodeId) :
    Ensures env options (reassign [] target : Action σ Reassignment) fun s r s' =>
      s' = s ∧ ∀ moved, r = .ok moved → moved = { target } := by
  refine ((ensures_hierarchyOf target).bind fun _ => ensures_pure _).weaken fun s r s' hpost => ?_
  rcases hpost with ⟨_, ⟨-, hs⟩, rfl⟩ | ⟨_, _, ⟨-, rfl⟩, rfl, hs⟩
  · exact ⟨hs, fun _ h => nomatch h⟩
  · exact ⟨hs, fun _ h => (Except.ok.inj h).symm⟩

theorem ensures_reassign (henv : env.Moves moves) {assets : List AssetId} (target : NodeId)
    (hne : assets.eraseDups ≠ []) :
    Ensures env options (reassign assets target)
      (Phased moves (observe assets.eraseDups target)
        (fun found => Store.move found.1 target assets.eraseDups found.2
          (options.propagates (found.2.length + assets.eraseDups.length)))
        fun found => reassignment options assets.eraseDups target found.2) := by
  rw [reassign]
  refine Ensures.asks
    (fun hierarchy observed => Store.move hierarchy target assets.eraseDups observed
      (options.propagates (observed.length + assets.eraseDups.length)))
    (fun _ observed => reassignment options assets.eraseDups target observed)
    (ensures_hierarchyOf target) fun hierarchy => ?_
  rw [if_neg (by simpa using hne)]
  exact (ensures_read _).phased fun observed =>
    (ensures_moveObserved henv hierarchy target assets.eraseDups observed).held henv hierarchy

/-! ## Reconciliation -/

theorem ensures_repair (henv : env.Moves moves) (hierarchy : HierarchyId) :
    Ensures env options (reconcile hierarchy .repair)
      (Phased moves (fun s => (fun _ => ()) <$> s.requireHierarchy hierarchy)
        (fun _ => Store.reconcile hierarchy .repair) fun _ report => report) :=
  (ensures_map_read (fun _ => ()) (·.requireHierarchy hierarchy)).phased fun _ =>
    (ensures_write_ends henv _).held henv hierarchy

theorem ensures_check (hierarchy : HierarchyId) :
    Ensures env options (reconcile hierarchy .checkOnly : Action σ Report) fun s _ s' => s' = s := by
  refine ((ensures_map_read (fun _ => ()) (·.requireHierarchy hierarchy)).bind fun _ =>
    ensures_read _).weaken fun s r s' hpost => ?_
  rcases hpost with ⟨_, ⟨-, hs⟩, -⟩ | ⟨_, t, ⟨-, ht⟩, -, hs⟩
  · exact hs
  · rw [hs, ht]

end Inventory.Tree
