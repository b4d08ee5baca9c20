import Inventory.Proofs.Store.Shape
import Inventory.Proofs.Tree.Requests

/-! # Requests that change the forest and requests that leave it alone

The structural requests change the forest step by step, and touch nothing else. All other requests,
repairs and flushes among them, leave it as it is. -/
namespace Inventory
set_option autoImplicit false
open Inventory.Store Inventory.Action Relation
variable {σ : Type} {env : Surroundings σ} {options : Options}

namespace Tree

/-- A sound store stays sound, and its forest as it is. -/
def Spares (s t : Store) : Prop := s.Sound → t.Sound ∧ Still s t

theorem Spares.refl (s : Store) : Spares s s := fun hs => ⟨hs, Still.refl s⟩

theorem Spares.trans (s t u : Store) (h : Spares s t) (h' : Spares t u) : Spares s u := by
  intro hs
  obtain ⟨ht, hstill⟩ := h hs
  obtain ⟨hu, hstill'⟩ := h' ht
  exact ⟨hu, hstill.trans hstill'⟩

theorem repair_spares (henv : env.Passive) (hierarchy : HierarchyId) (w : World σ) :
    Spares w.tree.store (reconcile hierarchy .repair env w).2.tree.store := by
  intro hs
  have hsound := (repair_mends henv hierarchy w hs).1
  obtain ⟨-, hphases⟩ := ensures_repair henv.moves hierarchy w rfl
  rcases hphases with ⟨_, -, -, heq⟩ | ⟨_, -, t, rfl, ⟨_, -, heq, -⟩ | ⟨report, hreport, -⟩⟩
  · rw [heq] at hsound ⊢
    exact ⟨hsound, Still.refl _⟩
  · rw [heq] at hsound ⊢
    exact ⟨hsound, Still.refl _⟩
  · exact ⟨hsound, (Transaction.stays_reconcile _ _ _ _ hreport).toStill⟩

end Tree

namespace Request

/-- The requests that create or delete nodes. -/
def isStructural : Request → Bool
  | createHierarchy _ | createChild _ _ | getOrCreateChild _ _ | createPath _ _ | deleteNode _ => true
  | _ => false

theorem ensures_shapes (henv : env.Passive) {request : Request}
    (h : request.isStructural = true) :
    Ensures env options (request.run : Action σ Answer) fun s _ s' =>
      s.Sound → ReflTransGen Shapes s s' := by
  cases request with
  | createHierarchy name =>
    rw [run_createHierarchy]
    refine (Tree.ensures_createHierarchy henv.moves name).relates (fun _ => ReflTransGen.refl) _
      fun s c a s' hs _ h => ?_
    exact .single (createHierarchy_shapes hs h)
  | createChild parent value =>
    refine (Tree.ensures_createChild henv.moves parent value).relates (fun _ => ReflTransGen.refl) .node
      fun s c a s' hs hc h => ?_
    obtain ⟨node, hnode, rfl⟩ := Inventory.map_eq_ok.1 hc
    exact .single (createChild_shapes hs hnode h)
  | getOrCreateChild parent value =>
    rw [run_getOrCreateChild]
    refine (Tree.ensures_getOrCreateChild henv.moves parent value).relates
      (fun _ => ReflTransGen.refl) _ fun s c a s' hs hc h => ?_
    obtain ⟨name, hname, hc⟩ := Inventory.bind_eq_ok.1 hc
    obtain ⟨_, -, hc⟩ := Inventory.bind_eq_ok.1 hc
    cases hc
    rw [Transaction.get_bind] at h
    obtain ⟨node, hnode, h⟩ := Transaction.lift_bind_eq_ok.1 h
    have hin := (hs.formed.requireNode hnode).1
    exact (getOrInsertChild_shapes hs hin (Name.plain_of_validate hname) h).1
  | createPath host path =>
    refine (Tree.ensures_createPath henv.moves host path).unasked.relates (fun _ => ReflTransGen.refl) .node
      fun s c a s' hs _ h => ?_
    exact createPath_shapes hs h
  | deleteNode id =>
    refine (Tree.ensures_deleteNode henv.moves id).relates (fun _ => ReflTransGen.refl) (fun _ => .done)
      fun s c a s' hs hc h => ?_
    obtain ⟨node, hnode, rfl⟩ := Inventory.map_eq_ok.1 hc
    exact .single (removeNode_shapes hs hnode h)
  | _ => cases h

theorem ensures_still (henv : env.Passive) {request : Request}
    (h : request.isStructural = false) :
    Ensures env options (request.run : Action σ Answer) fun s _ s' => s.Sound → Still s s' := by
  have hnothing : Ensures env options (pure (.outcome {}) : Action σ Answer)
      fun s _ s' => s.Sound → Still s s' := fun w hw => ⟨hw, fun _ => Still.refl _⟩
  cases request with
  | createAsset host name places =>
    exact (Tree.ensures_createAsset henv.moves host name places).relates Still.refl .asset
      fun s c a s' _ _ h => (Transaction.stays_createAsset _ _ _ _ a s' h).toStill
  | deleteAsset id =>
    exact (Tree.ensures_deleteAsset henv.moves id).relates Still.refl (fun _ => .done)
      fun s c a s' _ _ h => (Transaction.stays_removeAsset h).toStill
  | attach place batch =>
    by_cases hnone : batch.eraseDups = []
    · cases eq_nil_of_eraseDups hnone
      exact hnothing
    · exact (Tree.ensures_attach henv.moves place hnone).unasked.relates Still.refl .outcome
        fun s c a s' _ _ h => (Transaction.stays_attachAll h).toStill
  | detach place batch =>
    by_cases hnone : batch.eraseDups = []
    · cases eq_nil_of_eraseDups hnone
      exact hnothing
    · exact (Tree.ensures_detach henv.moves place hnone).relates Still.refl .outcome
        fun s c a s' _ _ h => (Transaction.stays_detachAll _ _ _ _ a s' h).toStill
  | attachToNodes id places =>
    by_cases hnone : places.eraseDups = []
    · cases eq_nil_of_eraseDups hnone
      exact hnothing
    · exact (Tree.ensures_attachToNodes henv.moves id hnone).unasked.relates Still.refl .outcome
        fun s c a s' _ _ h => (Transaction.stays_attachToAll h).toStill
  | detachFromNodes id places =>
    by_cases hnone : places.eraseDups = []
    · cases eq_nil_of_eraseDups hnone
      exact hnothing
    · exact (Tree.ensures_detachFromNodes henv.moves id hnone).relates Still.refl .outcome
        fun s c a s' _ _ h => (Transaction.stays_detachFromAll _ _ _ _ a s' h).toStill
  | reassign batch target =>
    by_cases hnone : batch.eraseDups = []
    · cases eq_nil_of_eraseDups hnone
      refine ((Tree.ensures_reassign_nil target).map Answer.reassignment).weaken
        fun s r s' hpost _ => ?_
      obtain ⟨_, ⟨rfl, -⟩, -⟩ := hpost
      exact Still.refl _
    · exact (Tree.ensures_reassign henv.moves target hnone).relates Still.refl .reassignment
        fun s c a s' _ _ h => (Transaction.stays_move _ _ _ _ _ a s' h).toStill
  | reconcile host =>
    exact (Tree.ensures_repair henv.moves host).relates Still.refl .report
      fun s c a s' _ _ h => (Transaction.stays_reconcile _ _ a s' h).toStill
  | flush =>
    refine ((Tree.ensures_flush henv Tree.Spares.refl Tree.Spares.trans
      (Tree.repair_spares henv)).map fun _ => Answer.done).weaken fun s r s' hpost hs => ?_
    obtain ⟨_, ⟨-, hspares⟩, -⟩ := hpost
    exact (hspares hs).2
  | createHierarchy | createChild | getOrCreateChild | createPath | deleteNode => cases h
  | _ =>
    refine (ensures_asks rfl).weaken fun s r s' heq _ => ?_
    rw [heq]
    exact Still.refl s

theorem ensures_tidy (henv : env.Passive) (request : Request) :
    Ensures env options (request.run : Action σ Answer) fun s _ s' => s.Tidy → s'.Tidy := by
  intro w hw
  have heffect := request.ensures_effect henv w hw
  refine ⟨heffect.1, fun hs => ?_⟩
  cases hkind : request.isStructural with
  | true => exact tidy_of_shapes ((ensures_shapes henv hkind w hw).2 hs.toSound) hs
  | false => exact ((ensures_still henv hkind w hw).2 hs.toSound).tidy hs (heffect.2 hs.toSound).sound

end Request
end Inventory
