import Inventory.CommandLine.Plan
import Inventory.Proofs.AtRest

/-! # Commands

A command does what a request of the tree does, and only gives the answer in another form. Its tree
is opened for it alone: whatever was marked before is repaired then, what the command leaves for
later is done by the flush, and a command that fails has left nothing. So the tree is closed at
rest. -/
namespace Inventory.CommandLine.Command
set_option autoImplicit false
open Inventory.Store Inventory.Action
variable {σ : Type} {env : Surroundings σ} {options : Options} {s : Store}

/-- The request that does what the command does. -/
def request : Command → Request
  | init name => .createHierarchy name
  | mkdir hierarchy path => .createPath hierarchy path
  | asset hierarchy name nodes => .createAsset hierarchy name nodes
  | attach node assets => .attach node assets
  | detach node assets => .detach node assets
  | reassign target assets => .reassign assets target
  | count id => .subtreeCount id
  | reconcile hierarchy true => .check hierarchy
  | reconcile hierarchy false => .reconcile hierarchy
  | tree hierarchy => .nodes hierarchy

/-- The first action leaves the world as the second does, and fails only if that fails. -/
def Follows {α β : Type} (act : Action σ α) (other : Action σ β) : Prop :=
  ∀ env w, (act env w).2 = (other env w).2 ∧
    ∀ e, (act env w).1 = .error e → (other env w).1 = .error e

theorem follows_map {α β γ : Type} (f : α → β) (g : α → γ) (act : Action σ α) :
    Follows (f <$> act) (g <$> act) := by
  intro env w
  rw [map_run, map_run]
  refine ⟨rfl, fun e h => ?_⟩
  cases hrun : (act env w).1 with
  | ok a =>
    rw [hrun] at h
    cases h
  | error e' =>
    rw [hrun] at h
    cases h
    rfl

theorem run_count (id : NodeId) (env : Surroundings σ) (w : World σ) :
    (count id).run env w = ((do
      let node ← w.tree.store.requireNode id
      let computed ← w.tree.store.subtreeCount id
      return .count id node.key node.amount computed), w) := by
  show Action.bind (Action.read (·.requireNode id)) _ env w = _
  rw [Action.bind, Action.read]
  cases w.tree.store.requireNode id with
  | error e => rfl
  | ok node =>
    show Action.bind (Action.read (·.subtreeCount id)) _ env w = _
    rw [Action.bind, Action.read]
    cases w.tree.store.subtreeCount id with
    | error e => rfl
    | ok n => rfl

/-- A count that does not find its node cannot count below it either. -/
theorem follows_count (id : NodeId) :
    Follows ((count id).run : Action σ Output) (count id).request.run := by
  intro env w
  have hrequest : (count id).request.run env w =
      (Answer.count <$> w.tree.store.subtreeCount id, w) := map_run _ (Action.read _) env w
  rw [hrequest, run_count]
  refine ⟨rfl, fun e h => ?_⟩
  dsimp only at h ⊢
  cases hnode : w.tree.store.requireNode id with
  | error e' =>
    rw [hnode] at h
    cases h
    rw [subtreeCount, totalsBelow, hnode]
    rfl
  | ok node =>
    rw [hnode] at h
    cases hcount : w.tree.store.subtreeCount id with
    | error e' =>
      rw [hcount] at h
      cases h
      rfl
    | ok n =>
      rw [hcount] at h
      cases h

theorem follows (command : Command) :
    Follows (command.run : Action σ Output) command.request.run := by
  cases command with
  | init name =>
    exact follows_map (fun made => Output.made made.1 made.2)
      (fun made => Answer.newHierarchy made.1 made.2) (Tree.createHierarchy name)
  | mkdir hierarchy path => exact follows_map _ _ _
  | asset hierarchy name nodes => exact follows_map _ _ _
  | attach node assets => exact follows_map _ _ _
  | detach node assets => exact follows_map _ _ _
  | reassign target assets => exact follows_map _ _ _
  | count id => exact follows_count id
  | reconcile hierarchy check =>
    cases check with
    | false => exact follows_map _ _ _
    | true => exact follows_map _ _ _
  | tree hierarchy => exact follows_map _ _ _

/-! ## Before the flush -/

theorem calm (command : Command) (henv : env.Passive) {w : World σ} (h : w.tree.Calm) :
    (command.run env w).2.tree.Calm := by
  rw [(command.follows env w).1]
  exact h.serve henv command.request

/-- A command that fails leaves the tree as it is. -/
theorem tree_of_error (command : Command) (henv : env.Passive) {w : World σ} {e : Error}
    (h : (command.run env w).1 = .error e) : (command.run env w).2.tree = w.tree := by
  obtain ⟨hworld, hfails⟩ := command.follows env w
  rw [hworld]
  exact (command.request.withdraws henv w e (hfails e h)).tree

/-! ## From opening to closing -/

theorem serve_eq (command : Command) {t : Store} (hopen : Tree.openStore s options =
    (.ok { options, store := t }, t)) : command.serve options s =
      ((command.runAndSettle Surroundings.quiet (World.mk { options, store := t } ())).1,
        (command.runAndSettle Surroundings.quiet (World.mk { options, store := t } ())).2.tree.close) := by
  rw [serve, hopen]

/-- A command that succeeds is followed by the flush. -/
theorem runAndSettle_of_ok {command : Command} (henv : env.Passive) {w v : World σ} {output : Output}
    (hrun : command.run env w = (.ok output, v)) (hv : v.tree.Calm) :
    ∃ t queue, t.AtRest ∧ t.bare = v.tree.store.bare ∧ (command.runAndSettle env w).1 = .ok output ∧
      (command.runAndSettle env w).2.tree = { v.tree with store := t, queue } := by
  obtain ⟨t, queue, htidy, hmarked, hbare, hok, htree⟩ := hv.exists_flush henv
  refine ⟨t, queue, ⟨htidy, hmarked⟩, hbare, ?_⟩
  cases hflush : Tree.flush env v with
  | mk done u =>
    rw [hflush] at hok htree
    dsimp only at hok htree
    subst hok
    rw [runAndSettle, bind_of_ok hrun, bind_of_ok hflush]
    exact ⟨rfl, htree⟩

/-- A command ends with a tree at rest, whether it fails or is followed by the flush. -/
theorem runAndSettle_atRest (command : Command) (henv : env.Passive) {w : World σ}
    (hs : w.tree.store.AtRest) (hfree : w.tree.leases = {}) :
    (command.runAndSettle env w).2.tree.store.AtRest ∧ (command.runAndSettle env w).2.tree.leases = {} := by
  cases hrun : command.run env w with
  | mk result v =>
    cases result with
    | error e =>
      have hsame : v.tree = w.tree := by
        have htree := command.tree_of_error henv (w := w) (e := e) (by rw [hrun])
        rwa [hrun] at htree
      rw [runAndSettle, bind_of_error hrun]
      dsimp only
      rw [hsame]
      exact ⟨hs, hfree⟩
    | ok output =>
      have hv : v.tree.Calm := by
        have hcalm := command.calm henv (Tree.calm_of_atRest hs hfree)
        rwa [hrun] at hcalm
      obtain ⟨t, queue, ht, -, -, htree⟩ := runAndSettle_of_ok henv hrun hv
      rw [htree]
      exact ⟨ht, hv.free⟩

/-- Whatever a command does and however it ends, it leaves a store at rest. -/
theorem serve_atRest (command : Command) (options : Options) (hs : s.Tidy) :
    (command.serve options s).2.AtRest := by
  obtain ⟨t, ht, -, hopen⟩ := hs.exists_opened options
  obtain ⟨hrest, hfree⟩ := command.runAndSettle_atRest Surroundings.passive_quiet
    (w := World.mk { options, store := t } ()) ht rfl
  rw [command.serve_eq hopen]
  dsimp only
  rw [Tree.close_eq hrest hfree]
  exact hrest

/-- A count of a node in a store at rest gives the same number twice, and leaves the store as it
is. -/
theorem serve_count (hs : s.AtRest) (options : Options) {row : NodeRow} (hrow : row ∈ s.nodes) :
    ∃ key : Key, row.key = key.text ∧ (count row.id).serve options s =
      (.ok (.count row.id key (s.holdings row.hierarchy row.key).card
        (s.holdings row.hierarchy row.key).card), s) := by
  have horderly := hs.sturdy.orderly row.hierarchy
  have hof := mem_rowsOf.2 ⟨hrow, rfl⟩
  obtain ⟨t, ht, hbare, hopen⟩ := hs.toTidy.exists_opened options
  obtain rfl := hs.eq_of_bare ht hbare
  let w : World Unit := World.mk { options, store := t } ()
  have hamount : row.node.amount = (t.holdings row.hierarchy row.key).card := hs.amount_eq_card hrow
  have hrun : (count row.id).run Surroundings.quiet w =
      (.ok (.count row.id row.node.key row.node.amount (t.holdings row.hierarchy row.key).card), w) := by
    rw [run_count, requireNode_eq hs.formed.nodeIds hrow (horderly.legible row hof),
      horderly.subtreeCount_eq hrow]
    rfl
  obtain ⟨u, queue, hu, hbare', hok, htree⟩ := runAndSettle_of_ok Surroundings.passive_quiet hrun
    (Tree.calm_of_atRest hs rfl)
  obtain rfl := hs.eq_of_bare hu hbare'
  refine ⟨row.node.key, horderly.text_node hof, ?_⟩
  rw [serve_eq _ hopen, hok, htree, Tree.close_eq hs rfl, hamount]

end Inventory.CommandLine.Command
