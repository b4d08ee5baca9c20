import Inventory.Proofs.Tree.Repair
import Inventory.Proofs.Twins.Attachments
import Inventory.Proofs.Twins.Nodes

/-! # Operations on twin trees

Twin trees are the same up to amounts, marks, queues and the size of the batches that are adjusted
at once. An operation that nobody disturbs does the same on both: it is refused on both for the
same reason, or it goes through on both with the same result, up to amounts, and leaves them twins.
One rule for each way of putting steps together. Of the two trees it is the first whose marks are
watched: each of them has its job in the queue when an operation ends. -/
namespace Inventory
set_option autoImplicit false
open Inventory.Store

/-- The options apart from the size of batches. -/
def Options.unlimited (options : Options) : Options := { options with batchLimit := 0 }

/-- Every marked hierarchy waits for its job, or is one whose job is still to be asked for. -/
def Tree.Covered (owed : List HierarchyId) (tree : Tree) : Prop :=
  ∀ h ∈ tree.store.marked, h ∈ owed ∨ h ∈ tree.queue.jobs

/-- The trees differ in amounts, marks, queues and the size of batches at most. -/
structure Twins (leases : Leases) (owed : List HierarchyId) (tree tree' : Tree) : Prop where
  options : tree.options.unlimited = tree'.options.unlimited
  bare : tree.store.bare = tree'.store.bare
  first : tree.leases = leases
  second : tree'.leases = leases
  covered : tree.Covered owed

/-- These trees and no others. -/
def At (tree tree' : Tree) (u u' : Tree) : Prop := u = tree ∧ u' = tree'

variable {σ τ α β γ δ : Type} {env : Surroundings σ} {env' : Surroundings τ}
  {tree tree' : Tree} {leases : Leases}

namespace Action

/-- Two actions, begun in worlds whose trees are related: they fail with the same error and leave
the trees as stated for that, or both go through, with results and trees as stated. -/
def Pairs (env : Surroundings σ) (env' : Surroundings τ) (fails before : Tree → Tree → Prop)
    (after : α → β → Tree → Tree → Prop) (act : Action σ α) (act' : Action τ β) : Prop :=
  ∀ (w : World σ) (v : World τ), before w.tree v.tree →
    (∃ e, (act env w).1 = .error e ∧ (act' env' v).1 = .error e ∧
      fails (act env w).2.tree (act' env' v).2.tree) ∨
    ∃ a b, (act env w).1 = .ok a ∧ (act' env' v).1 = .ok b ∧
      after a b (act env w).2.tree (act' env' v).2.tree

variable {fails before : Tree → Tree → Prop}

/-! ## Steps put together -/

theorem Pairs.bind {act : Action σ α} {act' : Action τ β} {next : α → Action σ γ}
    {next' : β → Action τ δ} {between : α → β → Tree → Tree → Prop}
    {after : γ → δ → Tree → Tree → Prop} (h : Pairs env env' fails before between act act')
    (hnext : ∀ a b, Pairs env env' fails (between a b) after (next a) (next' b)) :
    Pairs env env' fails before after (act >>= next) (act' >>= next') := by
  intro w v hbefore
  have hfirst := h w v hbefore
  cases hrun : act env w with
  | mk r w₁ =>
    cases hrun' : act' env' v with
    | mk r' v₁ =>
      rw [hrun, hrun'] at hfirst
      rcases hfirst with ⟨e, hr, hr', hfails⟩ | ⟨a, b, hr, hr', hbetween⟩
      · cases hr
        cases hr'
        rw [bind_of_error hrun, bind_of_error hrun']
        exact Or.inl ⟨e, rfl, rfl, hfails⟩
      · cases hr
        cases hr'
        rw [bind_of_ok hrun, bind_of_ok hrun']
        exact hnext a b w₁ v₁ hbetween

theorem Pairs.given {act : Action σ α} {act' : Action τ β} {after : α → β → Tree → Tree → Prop}
    {fact : Prop} (h : fact → Pairs env env' fails before after act act') :
    Pairs env env' fails (fun u u' => fact ∧ before u u') after act act' :=
  fun w v hbefore => h hbefore.1 w v hbefore.2

theorem Pairs.weaken {act : Action σ α} {act' : Action τ β} {after after' : α → β → Tree → Tree → Prop}
    (h : Pairs env env' fails before after act act')
    (himp : ∀ a b u u', after a b u u' → after' a b u u') :
    Pairs env env' fails before after' act act' := by
  intro w v hbefore
  refine (h w v hbefore).imp_right ?_
  rintro ⟨a, b, hr, hr', hafter⟩
  exact ⟨a, b, hr, hr', himp _ _ _ _ hafter⟩

theorem pairs_pure (a : α) (b : β) :
    Pairs env env' fails before (fun a' b' u u' => (a' = a ∧ b' = b) ∧ before u u')
      (pure a : Action σ α) (pure b : Action τ β) :=
  fun _ _ hbefore => Or.inr ⟨a, b, rfl, rfl, ⟨rfl, rfl⟩, hbefore⟩

theorem Pairs.map {act : Action σ α} {act' : Action τ β} {after : α → β → Tree → Tree → Prop}
    {after' : γ → δ → Tree → Tree → Prop} (f : α → γ) (g : β → δ)
    (h : Pairs env env' fails before after act act')
    (himp : ∀ a b u u', after a b u u' → after' (f a) (g b) u u') :
    Pairs env env' fails before after' (f <$> act) (g <$> act') := by
  rw [map_eq, map_eq]
  refine h.bind fun a b => (pairs_pure (f a) (g b)).weaken ?_
  rintro _ _ u u' ⟨⟨rfl, rfl⟩, hafter⟩
  exact himp a b u u' hafter

/-! ## Single steps -/

/-- Steps that only ask, and get answers that are the same as far as they go on to matter. -/
theorem pairs_ask {x : Except Error α} {y : Except Error β} {f : α → γ} {g : β → γ}
    (h : f <$> x = g <$> y) {act : Action σ α} {act' : Action τ β}
    (hact : ∀ w, w.tree = tree → act env w = (x, w))
    (hact' : ∀ v, v.tree = tree' → act' env' v = (y, v)) :
    Pairs env env' (At tree tree') (At tree tree')
      (fun a b u u' => (x = .ok a ∧ y = .ok b ∧ f a = g b) ∧ At tree tree' u u') act act' := by
  rintro w v ⟨hw, hv⟩
  rw [hact w hw, hact' v hv]
  cases x with
  | error e =>
    cases y with
    | error e' =>
      cases h
      exact Or.inl ⟨e, rfl, rfl, hw, hv⟩
    | ok b => cases h
  | ok a =>
    cases y with
    | error e => cases h
    | ok b => exact Or.inr ⟨a, b, rfl, rfl, ⟨rfl, rfl, Except.ok.inj h⟩, hw, hv⟩

theorem pairs_read {question : Store → Except Error α} {question' : Store → Except Error β}
    {f : α → γ} {g : β → γ} (h : f <$> question tree.store = g <$> question' tree'.store) :
    Pairs env env' (At tree tree') (At tree tree')
      (fun a b u u' => (question tree.store = .ok a ∧ question' tree'.store = .ok b ∧ f a = g b) ∧
        At tree tree' u u') (read question) (read question') :=
  pairs_ask h (fun w hw => by rw [read, hw]) fun v hv => by rw [read, hv]

theorem pairs_read_same {question question' : Store → Except Error α}
    (h : question tree.store = question' tree'.store) :
    Pairs env env' (At tree tree') (At tree tree')
      (fun a b u u' => (b = a ∧ question tree.store = .ok a) ∧ At tree tree' u u')
      (read question) (read question') :=
  (pairs_read (f := id) (g := id) (congrArg (id <$> ·) h)).weaken
    fun _ _ _ _ hpost => ⟨⟨hpost.1.2.2.symm, hpost.1.1⟩, hpost.2⟩

theorem pairs_lift (x : Except Error α) :
    Pairs env env' (At tree tree') (At tree tree')
      (fun a b u u' => b = a ∧ At tree tree' u u') (lift x) (lift x) :=
  (pairs_ask (f := id) (g := id) rfl (fun _ _ => rfl) fun _ _ => rfl).weaken
    fun _ _ _ _ h => ⟨h.1.2.2.symm, h.2⟩

theorem pairs_view (question : Tree → α) :
    Pairs env env' (At tree tree') (At tree tree')
      (fun a b u u' => (a = question tree ∧ b = question tree') ∧ At tree tree' u u')
      (view question) (view question) := by
  rintro w v ⟨hw, hv⟩
  exact Or.inr ⟨_, _, rfl, rfl, ⟨congrArg question hw, congrArg question hv⟩, hw, hv⟩

/-- Observers that do not act on the tree leave both trees as they are. -/
theorem pairs_announce (henv : env.Passive) (henv' : env'.Passive) (phase : Phase)
    (hierarchy hierarchy' : HierarchyId) (changes changes' : List Change) :
    Pairs env env' fails before (fun _ _ => before) (announce phase hierarchy changes)
      (announce phase hierarchy' changes') := by
  intro w v hbefore
  have htree : (announce phase hierarchy changes env w).2.tree = w.tree := by
    rw [announce]
    by_cases hnone : changes.isEmpty = true
    · rw [if_pos hnone]
    · rw [if_neg hnone]
      exact henv _ _
  have htree' : (announce phase hierarchy' changes' env' v).2.tree = v.tree := by
    rw [announce]
    by_cases hnone : changes'.isEmpty = true
    · rw [if_pos hnone]
    · rw [if_neg hnone]
      exact henv' _ _
  rw [htree, htree']
  exact Or.inr ⟨(), (), rfl, rfl, hbefore⟩

/-- Transactions that match, of which the first marks no hierarchy but one whose job is owed. -/
theorem pairs_write (h : Twins leases [] tree tree') (owed : α → List HierarchyId)
    {change : Transaction α} {change' : Transaction β} {agree : α → β → Prop}
    (hmatches : Matches agree (change tree.store) (change' tree'.store))
    (hmarks : ∀ a s, change tree.store = .ok (a, s) →
      ∀ host ∈ s.marked, host ∈ tree.store.marked ∨ host ∈ owed a) :
    Pairs env env' (At tree tree') (At tree tree')
      (fun a b u u' => agree a b ∧ Twins leases (owed a) u u') (write change) (write change') := by
  rintro w v ⟨rfl, rfl⟩
  rw [write, write]
  generalize hrun : change w.tree.store = r at hmatches
  generalize change' v.tree.store = r' at hmatches
  cases hmatches with
  | refused e => exact Or.inl ⟨e, rfl, rfl, rfl, rfl⟩
  | @done a b s t hagree hbare =>
    refine Or.inr ⟨a, b, rfl, rfl, hagree, h.options, hbare, h.first, h.second, fun host hhost => ?_⟩
    rcases hmarks a s hrun host hhost with hold | hnew
    · exact Or.inr ((h.covered host hold).resolve_left List.not_mem_nil)
    · exact Or.inl hnew

theorem pairs_deferUnless (p q : Bool) (hierarchy hierarchy' : HierarchyId) :
    Pairs env env' fails (Twins leases (owing p hierarchy)) (fun _ _ => Twins leases [])
      (deferUnless p hierarchy) (deferUnless q hierarchy') := by
  intro w v h
  have hright : (deferUnless q hierarchy' env' v).1 = .ok () ∧
      (deferUnless q hierarchy' env' v).2.tree.options = v.tree.options ∧
      (deferUnless q hierarchy' env' v).2.tree.store = v.tree.store ∧
      (deferUnless q hierarchy' env' v).2.tree.leases = v.tree.leases := by
    cases q with
    | true => exact ⟨rfl, rfl, rfl, rfl⟩
    | false => exact ⟨rfl, rfl, rfl, rfl⟩
  obtain ⟨hresult, hoptions, hstore, hleases⟩ := hright
  refine Or.inr ⟨(), (), ?_, hresult, ?_⟩
  · cases p with
    | true => rfl
    | false => rfl
  cases p with
  | true =>
    exact ⟨h.options.trans (congrArg Options.unlimited hoptions.symm),
      h.bare.trans (congrArg Store.bare hstore.symm), h.first, hleases.trans h.second, h.covered⟩
  | false =>
    refine ⟨h.options.trans (congrArg Options.unlimited hoptions.symm),
      h.bare.trans (congrArg Store.bare hstore.symm), h.first, hleases.trans h.second,
      fun host hhost => Or.inr ?_⟩
    refine (Queue.mem_jobs_schedule ..).2 ?_
    exact (h.covered host hhost).imp_left List.mem_singleton.1

/-- While all leases are free, both actions run under the lease that they ask for. -/
theorem Pairs.holding (henv : env.Passive) (henv' : env'.Passive) (h : Twins {} [] tree tree')
    (hierarchy : HierarchyId) {act : Action σ α} {act' : Action τ β} {agree : α → β → Prop}
    (hact : ∀ {u u' : Tree}, u.store = tree.store → u'.store = tree'.store →
      Twins (({} : Leases).grant hierarchy) [] u u' →
      Pairs env env' (At u u') (At u u')
        (fun a b u u' => agree a b ∧ Twins (({} : Leases).grant hierarchy) [] u u') act act') :
    Pairs env env' (At tree tree') (At tree tree')
      (fun a b u u' => agree a b ∧ Twins {} [] u u')
      (Action.holding hierarchy act) (Action.holding hierarchy act') := by
  rintro w v ⟨rfl, rfl⟩
  have hquiet := henv (.waiting hierarchy) w
  have hquiet' := henv' (.waiting hierarchy) v
  generalize hw : env (.waiting hierarchy) w = w₀ at hquiet
  generalize hv : env' (.waiting hierarchy) v = v₀ at hquiet'
  have hfree : w₀.tree.leases.isHeld hierarchy = false := by
    rw [hquiet, h.first]
    rfl
  have hfree' : v₀.tree.leases.isHeld hierarchy = false := by
    rw [hquiet', h.second]
    rfl
  have hgranted : Twins (({} : Leases).grant hierarchy) [] (w₀.granted hierarchy).tree
      (v₀.granted hierarchy).tree := by
    rw [World.granted, World.granted, hquiet, hquiet']
    exact ⟨h.options, h.bare, congrArg (·.grant hierarchy) h.first,
      congrArg (·.grant hierarchy) h.second, h.covered⟩
  have hrelease : (({} : Leases).grant hierarchy).release hierarchy = {} := Leases.release_grant rfl
  rw [holding_granted hw hfree, holding_granted hv hfree']
  have hstore : (w₀.granted hierarchy).tree.store = w.tree.store := by
    rw [← hquiet]
    rfl
  have hstore' : (v₀.granted hierarchy).tree.store = v.tree.store := by
    rw [← hquiet']
    rfl
  rcases hact hstore hstore' hgranted (w₀.granted hierarchy) (v₀.granted hierarchy) ⟨rfl, rfl⟩ with
    ⟨e, hr, hr', htree, htree'⟩ | ⟨a, b, hr, hr', hagree, htwins⟩
  · refine Or.inl ⟨e, hr, hr', ?_, ?_⟩
    · rw [World.released, htree]
      have hback := congrArg World.tree (World.released_granted hfree)
      exact hback.trans hquiet
    · rw [World.released, htree']
      have hback := congrArg World.tree (World.released_granted hfree')
      exact hback.trans hquiet'
  · refine Or.inr ⟨a, b, hr, hr', hagree, htwins.options, htwins.bare, ?_, ?_, htwins.covered⟩
    · show (act env (w₀.granted hierarchy)).2.tree.leases.release hierarchy = {}
      rw [htwins.first, hrelease]
    · show (act' env' (v₀.granted hierarchy)).2.tree.leases.release hierarchy = {}
      rw [htwins.second, hrelease]

end Action
end Inventory
