import Inventory.Proofs.Store.Shape
import Inventory.Proofs.Tree.Effects

/-! # Every request has its effect

One case for each request: the phases of its operation, and what its transaction does to a sound
store. -/
namespace Inventory
set_option autoImplicit false
open Inventory.Store Inventory.Action
variable {σ : Type} {env : Surroundings σ} {options : Options} {s s' : Store}

/-! ## Transactions that leave attachments alone -/

theorem Store.Grown.effect {request : Request} {answer : Answer} (h : Grown s s')
    (hs : s.Sound) (hneutral : request.Neutral) : s'.Sound ∧ request.Refines answer s s' :=
  ⟨h.sound hs, hneutral.refines h.attachments h.assets answer⟩

/-- The world after the worker has noted how its first job ended. -/
def World.finished (w : World σ) (failed : Bool) : World σ :=
  { w with tree := { w.tree with queue := w.tree.queue.finish failed } }

namespace Tree

theorem runJobs_cons (env : Surroundings σ) (first : HierarchyId) (rest : List HierarchyId)
    (w : World σ) : runJobs (first :: rest) env w =
      runJobs rest env ((reconcile first .repair env w).2.finished
        (!(reconcile first .repair env w).1.toBool)) := by
  rw [runJobs]
  dsimp only
  cases reconcile first .repair env w with
  | mk result w' =>
    cases result with
    | ok report => rfl
    | error e => rfl

/-- A sound store stays sound, with the assets and attachments that it has. -/
def Mends (s t : Store) : Prop :=
  s.Sound → t.Sound ∧ t.attachments = s.attachments ∧ t.assets = s.assets

theorem Mends.refl (s : Store) : Mends s s := fun hs => ⟨hs, rfl, rfl⟩

theorem Mends.trans (s t u : Store) (h : Mends s t) (h' : Mends t u) : Mends s u := by
  intro hs
  obtain ⟨hsound, hattached, hassets⟩ := h hs
  obtain ⟨hsound', hattached', hassets'⟩ := h' hsound
  exact ⟨hsound', hattached'.trans hattached, hassets'.trans hassets⟩

theorem repair_mends (henv : env.Passive) (hierarchy : HierarchyId) (w : World σ) :
    Mends w.tree.store (reconcile hierarchy .repair env w).2.tree.store := by
  intro hs
  obtain ⟨-, hphases⟩ := ensures_repair henv.moves hierarchy w rfl
  rcases hphases with ⟨_, -, -, heq⟩ | ⟨_, -, t, rfl, ⟨_, -, heq, -⟩ | ⟨report, hreport, -⟩⟩
  · rw [heq]
    exact ⟨hs, rfl, rfl⟩
  · rw [heq]
    exact ⟨hs, rfl, rfl⟩
  · obtain ⟨hsound, hattached, hassets, -⟩ := reconcile_sound hs hreport
    exact ⟨hsound, hattached, hassets⟩

section Jobs
variable {relates : Store → Store → Prop}

/-- Jobs that are run one after another do to a store what repairs do. -/
theorem ensures_runJobs (henv : env.Passive) (hrefl : ∀ s, relates s s)
    (htrans : ∀ s t u, relates s t → relates t u → relates s u)
    (hrepair : ∀ hierarchy (w : World σ),
      relates w.tree.store (reconcile hierarchy .repair env w).2.tree.store)
    (jobs : List HierarchyId) :
    Ensures env options (runJobs jobs : Action σ Unit) fun s r s' => r = .ok () ∧ relates s s' := by
  induction jobs with
  | nil => exact fun w hw => ⟨hw, rfl, hrefl _⟩
  | cons hierarchy rest ih =>
    intro w hw
    have hoptions := (ensures_repair henv.moves hierarchy w hw).1
    obtain ⟨ho, hok, hrest⟩ := ih ((reconcile hierarchy .repair env w).2.finished _) hoptions
    rw [runJobs_cons]
    exact ⟨ho, hok, htrans _ _ _ (hrepair hierarchy w) hrest⟩

theorem ensures_updateQueue (change : Queue → Queue) :
    Ensures env options (updateQueue change : Action σ Unit) fun s r s' => r = .ok () ∧ s' = s :=
  fun _ hw => ⟨hw, rfl, rfl⟩

theorem ensures_flush (henv : env.Passive) (hrefl : ∀ s, relates s s)
    (htrans : ∀ s t u, relates s t → relates t u → relates s u)
    (hrepair : ∀ hierarchy (w : World σ),
      relates w.tree.store (reconcile hierarchy .repair env w).2.tree.store) :
    Ensures env options (flush : Action σ Unit) fun s r s' => r = .ok () ∧ relates s s' := by
  rw [flush]
  refine ensures_quietly (ensures_updateQueue _) ?_
  refine Ensures.after (fun _ => True) ((ensures_view _).weaken fun _ _ _ hpost =>
    ⟨hpost.1.imp fun _ hr => ⟨trivial, hr⟩, hpost.2⟩) fun jobs _ => ?_
  refine (Ensures.before id (ensures_runJobs henv hrefl htrans hrepair jobs) fun _ =>
    ensures_updateQueue _).weaken fun s r s' hpost => ?_
  obtain ⟨_, ⟨rfl, hrelated⟩, hr⟩ := hpost
  exact ⟨hr, hrelated⟩

end Jobs

end Tree

namespace Request

/-! ## Requests that ask or leave attachments alone -/

/-- The requests that leave the store as it is. -/
def asks : Request → Bool
  | hierarchy _ | hierarchies | root _ | node _ | nodeByKey _ _ | children _ | nodes _ | asset _
  | assetNodes _ | directAssets _ | subtreeCount _ | nodeAssetIds _ | assetsUnder _
  | computedCounts _ | check _ | schedule _ | pending | queue | .options | locked | overview => true
  | _ => false

theorem ensures_asks {request : Request} (h : request.asks = true) :
    Ensures env options (request.run : Action σ Answer) fun s _ s' => s' = s := by
  have hread : ∀ {α : Type} (f : α → Answer) (question : Store → Except Error α),
      Ensures env options (f <$> read question : Action σ Answer) fun s _ s' => s' = s :=
    fun f question => (ensures_map_read f question).weaken fun _ _ _ hpost => hpost.2
  have hview : ∀ question : Tree → Answer,
      Ensures env options (view question : Action σ Answer) fun s _ s' => s' = s :=
    fun question => (ensures_view question).weaken fun _ _ _ hpost => hpost.2
  cases request with
  | root | node | nodeByKey | children | nodes | subtreeCount | nodeAssetIds | assetsUnder
  | computedCounts => exact hread _ _
  | hierarchy | hierarchies | asset | assetNodes | directAssets | pending | queue | options
  | locked => exact hview _
  | check host =>
    refine ((Tree.ensures_check host).map Answer.report).weaken fun s r s' hpost => ?_
    obtain ⟨_, hsame, -⟩ := hpost
    exact hsame
  | schedule | overview => exact fun _ hw => ⟨hw, rfl⟩
  | _ => cases h

/-- The requests that do not concern attachments. -/
def isNeutral : Request → Bool
  | createAsset _ _ _ | deleteAsset _ | attach _ _ | detach _ _ | attachToNodes _ _
  | detachFromNodes _ _ | reassign _ _ => false
  | _ => true

theorem neutral {request : Request} (h : request.isNeutral = true) : request.Neutral := by
  cases request
  all_goals first
    | exact ⟨rfl, fun _ _ => rfl, fun _ _ => rfl, fun _ _ => trivial⟩
    | cases h

/-! ## All requests -/

/-- What an operation on attachments does when there is nothing to do. -/
theorem ensures_nothing {request : Request} (answer : Answer) (hgone : request.gone = ∅)
    (h : ∀ s, request.come s answer = ∅ ∧ request.assetsAfter s.assets answer = s.assets ∧
      request.Reports s answer) :
    Ensures env options (pure answer : Action σ Answer) fun s r s' =>
      s.Sound → request.Effect s r s' := by
  intro w hw
  refine ⟨hw, fun hs => ⟨hs, fun _ _ => rfl, fun other hother => ?_⟩⟩
  cases hother
  obtain ⟨hcome, hassets, hreports⟩ := h w.tree.store
  refine ⟨?_, hassets.symm, hreports⟩
  rw [hgone, hcome, Set.sdiff_empty, Set.union_empty]
  rfl

theorem effect_reassign_nil (options : Options) (target : NodeId) :
    Ensures env options ((Request.reassign [] target).run : Action σ Answer) fun s r s' =>
      s.Sound → (Request.reassign [] target).Effect s r s' := by
  refine ((Tree.ensures_reassign_nil target).map Answer.reassignment).weaken
    fun s r s' hpost hs => ?_
  obtain ⟨first, ⟨rfl, hmoved⟩, rfl⟩ := hpost
  cases first with
  | error e => exact ⟨hs, fun _ _ => rfl, fun _ h => nomatch h⟩
  | ok moved =>
    refine ⟨hs, fun _ h => (nomatch h), fun answer h => ?_⟩
    cases h
    cases hmoved moved rfl
    refine ⟨?_, rfl, rfl, rfl, ?_, rfl⟩
    · show s'.relation = s'.relation \ {link | link.1 ∈ []} ∪ pairs [] [target]
      rw [pairs_nil_left, Set.union_empty]
      simp
    · simp

theorem run_createHierarchy (name : String) : (createHierarchy name).run =
    (fun made => .newHierarchy made.1 made.2) <$> (Tree.createHierarchy name : Action σ _) := rfl

theorem run_getOrCreateChild (parent : NodeId) (value : String) :
    (getOrCreateChild parent value).run =
      (fun made => .child made.1 made.2) <$> (Tree.getOrCreateChild parent value : Action σ _) := rfl

/-- Every request has its effect on a sound store. -/
theorem ensures_effect (henv : env.Passive) (request : Request) :
    Ensures env options (request.run : Action σ Answer) fun s r s' =>
      s.Sound → request.Effect s r s' := by
  cases request with
  | createHierarchy name =>
    rw [run_createHierarchy]
    refine (Tree.ensures_createHierarchy henv.moves name).effect _ fun s c a s' hs _ h => ?_
    exact (createHierarchy_eq_ok hs h).effect hs (neutral rfl)
  | createChild parent value =>
    refine (Tree.ensures_createChild henv.moves parent value).effect .node
      fun s c a s' hs _ h => ?_
    exact (createChild_eq_ok hs h).effect hs (neutral rfl)
  | getOrCreateChild parent value =>
    rw [run_getOrCreateChild]
    refine (Tree.ensures_getOrCreateChild henv.moves parent value).effect _
      fun s c a s' hs _ h => ?_
    rw [Transaction.get_bind] at h
    obtain ⟨node, hnode, h⟩ := Transaction.lift_bind_eq_ok.1 h
    obtain ⟨hin, -⟩ := hs.formed.requireNode hnode
    exact (getOrInsertChild_eq_ok hs (isIn_of_row hin) h).1.effect hs (neutral rfl)
  | createPath host path =>
    refine (Tree.ensures_createPath henv.moves host path).unasked.effect .node
      fun s c a s' hs _ h => ?_
    exact (createPath_eq_ok hs h).effect hs (neutral rfl)
  | deleteNode id =>
    refine (Tree.ensures_deleteNode henv.moves id).effect (fun _ => .done)
      fun s c a s' hs hc h => ?_
    obtain ⟨node, hnode, rfl⟩ := Inventory.map_eq_ok.1 hc
    have hshapes := removeNode_shapes hs hnode h
    obtain ⟨hattached, hassets⟩ := hshapes.contents
    exact ⟨hshapes.sound hs, (neutral rfl).refines hattached hassets _⟩
  | createAsset host name places =>
    exact (Tree.ensures_createAsset henv.moves host name places).effect .asset
      fun s c a s' hs _ h => refines_createAsset hs h
  | deleteAsset id =>
    refine (Tree.ensures_deleteAsset henv.moves id).effect (fun _ => .done)
      fun s c a s' hs hc h => ?_
    obtain ⟨asset, hasset, hc⟩ := Inventory.bind_eq_ok.1 hc
    cases hc
    exact refines_deleteAsset hs hasset h
  | attach place batch =>
    by_cases hnone : batch.eraseDups = []
    · cases eq_nil_of_eraseDups hnone
      refine ensures_nothing (.outcome {}) rfl fun s => ?_
      show pairs [] [place] = ∅ ∧ _ ∧ Change.Lists [] (pairs [] [place] \ s.relation) ∧ _
      rw [pairs_nil_left, Set.empty_sdiff]
      exact ⟨rfl, rfl, Change.lists_nil, rfl⟩
    · exact (Tree.ensures_attach henv.moves place hnone).unasked.effect .outcome
        fun s c a s' hs _ h => refines_attach hs h
  | detach place batch =>
    by_cases hnone : batch.eraseDups = []
    · cases eq_nil_of_eraseDups hnone
      refine ensures_nothing (.outcome {}) (pairs_nil_left [place]) fun s => ?_
      show s.homecoming (pairs [] [place]) = ∅ ∧ _ ∧
        Change.Lists [] (s.relation ∩ pairs [] [place]) ∧
        Change.Lists [] (s.homecoming (pairs [] [place]))
      rw [pairs_nil_left, Set.inter_empty, homecoming_empty]
      exact ⟨rfl, rfl, Change.lists_nil, Change.lists_nil⟩
    · refine (Tree.ensures_detach henv.moves place hnone).effect .outcome fun s c a s' hs hc h => ?_
      obtain ⟨node, hnode, hc⟩ := Inventory.bind_eq_ok.1 hc
      cases hc
      exact refines_detach hs hnode h
  | attachToNodes id places =>
    by_cases hnone : places.eraseDups = []
    · cases eq_nil_of_eraseDups hnone
      refine ensures_nothing (.outcome {}) rfl fun s => ?_
      show pairs [id] [] = ∅ ∧ _ ∧ Change.Lists [] (pairs [id] [] \ s.relation) ∧ _
      rw [pairs_nil_right, Set.empty_sdiff]
      exact ⟨rfl, rfl, Change.lists_nil, rfl⟩
    · exact (Tree.ensures_attachToNodes henv.moves id hnone).unasked.effect .outcome
        fun s c a s' hs _ h => refines_attachToNodes hs h
  | detachFromNodes id places =>
    by_cases hnone : places.eraseDups = []
    · cases eq_nil_of_eraseDups hnone
      refine ensures_nothing (.outcome {}) (pairs_nil_right [id]) fun s => ?_
      show s.homecoming (pairs [id] []) = ∅ ∧ _ ∧
        Change.Lists [] (s.relation ∩ pairs [id] []) ∧ Change.Lists [] (s.homecoming (pairs [id] []))
      rw [pairs_nil_right, Set.inter_empty, homecoming_empty]
      exact ⟨rfl, rfl, Change.lists_nil, Change.lists_nil⟩
    · exact (Tree.ensures_detachFromNodes henv.moves id hnone).effect .outcome
        fun s c a s' hs _ h => refines_detachFromNodes hs h
  | reassign batch target =>
    by_cases hnone : batch.eraseDups = []
    · cases eq_nil_of_eraseDups hnone
      exact effect_reassign_nil options target
    · exact (Tree.ensures_reassign henv.moves target hnone).effect .reassignment
        fun s c a s' hs hc h => refines_reassign hs options hc h
  | reconcile host =>
    refine (Tree.ensures_repair henv.moves host).effect .report fun s c a s' hs _ h => ?_
    obtain ⟨hsound, hattached, hassets, -⟩ := reconcile_sound hs h
    exact ⟨hsound, (neutral rfl).refines hattached hassets _⟩
  | flush =>
    refine ((Tree.ensures_flush henv Tree.Mends.refl Tree.Mends.trans
      (Tree.repair_mends henv)).map fun _ => Answer.done).weaken fun s r s' hpost hs => ?_
    obtain ⟨_, ⟨rfl, hmends⟩, rfl⟩ := hpost
    obtain ⟨hsound, hattached, hassets⟩ := hmends hs
    exact (neutral rfl).effect hsound hattached hassets fun e he => nomatch he
  | _ => exact (ensures_asks rfl).effect_of_question (neutral rfl)

end Request
end Inventory
