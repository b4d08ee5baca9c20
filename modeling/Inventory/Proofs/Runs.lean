import Inventory.Proofs.Tree.Requests

/-! # Reachable stores

A store is reached from the empty one by requests, one after another. Each of them may meet other
options, leases and queued jobs than the one before, may be refused or answered, and may be watched
by observers that do not act on the tree. -/
namespace Inventory
set_option autoImplicit false
open Relation

namespace Store

/-- A request of the given kind, to a tree with the store, leads to the other store. -/
def Serves (kind : Request → Bool) (s s' : Store) : Prop :=
  ∃ (σ : Type) (env : Surroundings σ) (w : World σ) (request : Request), env.Passive ∧
    kind request = true ∧ w.tree.store = s ∧ (request.run env w).2.tree.store = s'

/-- Any request leads from one store to the other. -/
abbrev ServesAny : Store → Store → Prop := Serves fun _ => true

/-- The stores that requests lead to. -/
inductive Reachable : Store → Prop
  | empty : Reachable {}
  | serve {s s' : Store} : Reachable s → ServesAny s s' → Reachable s'

variable {kind : Request → Bool} {s s' : Store}

theorem Serves.any (h : Serves kind s s') : ServesAny s s' := by
  obtain ⟨σ, env, w, request, henv, -, hs, hs'⟩ := h
  exact ⟨σ, env, w, request, henv, rfl, hs, hs'⟩

theorem Serves.sound (h : Serves kind s s') (hs : s.Sound) : s'.Sound := by
  obtain ⟨_, env, w, request, henv, -, rfl, rfl⟩ := h
  exact ((request.ensures_effect henv w rfl).2 hs).sound

theorem Reachable.sound (h : Reachable s) : s.Sound := by
  induction h with
  | empty => exact sound_empty
  | serve _ hserves ih => exact hserves.sound ih

theorem Reachable.serves (h : Reachable s) (hserves : ReflTransGen (Serves kind) s s') :
    Reachable s' := by
  induction hserves with
  | refl => exact h
  | tail _ hstep ih => exact ih.serve hstep.any

/-! ## Questions -/

/-- Whatever tree holds the store and whoever watches it, a request has this answer and leaves
everything as it is. -/
def Answers (s : Store) (request : Request) (answer : Answer) : Prop :=
  ∀ (σ : Type) (env : Surroundings σ) (w : World σ), w.tree.store = s →
    request.run env w = (.ok answer, w)

theorem answers_of_read {α : Type} (wrap : α → Answer) (question : Store → Except Error α)
    {request : Request}
    (h : ∀ {σ : Type}, (request.run : Action σ Answer) = wrap <$> Action.read question) {found : α}
    (hfound : question s = .ok found) : s.Answers request (wrap found) := by
  intro σ env w hw
  rw [h, Action.map_run]
  show (wrap <$> question w.tree.store, w) = _
  rw [hw, hfound]
  rfl

theorem Answers.unique {request : Request} {answer other : Answer} (h : s.Answers request answer)
    (h' : s.Answers request other) : answer = other := by
  have hrun := h Unit Surroundings.quiet (World.mk { store := s } ()) rfl
  rw [h' Unit Surroundings.quiet (World.mk { store := s } ()) rfl] at hrun
  cases hrun
  rfl

end Store

/-! ## Runs that nobody watches -/

/-- The tree after requests that nobody watches. -/
def Tree.after (tree : Tree) (requests : List Request) : Tree :=
  requests.foldl (fun tree request => (request.run Surroundings.quiet (World.mk tree ())).2.tree) tree

section
variable {σ : Type} {kind : Request → Bool} {tree : Tree} {requests : List Request}

theorem Tree.serves_after (h : ∀ request ∈ requests, kind request = true) :
    ReflTransGen (Store.Serves kind) tree.store (tree.after requests).store := by
  induction requests generalizing tree with
  | nil => exact ReflTransGen.refl
  | cons request rest ih =>
    refine ReflTransGen.head ?_ (ih fun other hother => h other (List.mem_cons_of_mem _ hother))
    exact ⟨Unit, _, ⟨tree, ()⟩, request, Surroundings.passive_quiet, h request List.mem_cons_self,
      rfl, rfl⟩

theorem Tree.reachable_after (h : tree.store.Reachable) (requests : List Request) :
    (tree.after requests).store.Reachable := by
  have hserves : ReflTransGen Store.ServesAny tree.store (tree.after requests).store :=
    serves_after fun _ _ => rfl
  exact h.serves hserves

theorem Tree.options_after (requests : List Request) :
    (tree.after requests).options = tree.options := by
  induction requests generalizing tree with
  | nil => rfl
  | cons request rest ih =>
    exact ih.trans (request.ensures_effect Surroundings.passive_quiet (World.mk tree ()) rfl).1

/-- A hierarchy with a child, and an asset on that. -/
def library : List Request :=
  [.createHierarchy "Library", .createChild 1 (some "Maps"), .createAsset 1 "Atlas" [2]]

/-- An observer that makes requests whenever rows are about to be removed. -/
def Surroundings.answering (script : List Request) : Surroundings σ
  | .notice notice, w =>
    if notice.phase = .beforeRemove then { w with tree := w.tree.after script } else w
  | .waiting _, w => w

theorem Surroundings.answering_moves (h : ∀ request ∈ requests, kind request = true) :
    (answering requests : Surroundings σ).Moves (ReflTransGen (Store.Serves kind)) where
  refl _ := ReflTransGen.refl
  trans _ _ _ := ReflTransGen.trans
  window m w hm := by
    cases m with
    | waiting => exact ReflTransGen.refl
    | notice notice =>
      have hphase : notice.phase = .beforeRemove := hm
      rw [answering, if_pos hphase]
      exact Tree.serves_after h
  still m w hm := by
    cases m with
    | waiting => rfl
    | notice notice =>
      have hphase : ¬notice.phase = .beforeRemove := hm
      rw [answering, if_neg hphase]
  options m w := by
    cases m with
    | waiting => rfl
    | notice notice =>
      by_cases hphase : notice.phase = .beforeRemove
      · rw [answering, if_pos hphase]
        exact Tree.options_after requests
      · rw [answering, if_neg hphase]

end
end Inventory
