import Inventory.Proofs.Transparency
import Inventory.Proofs.Tree.Mistakes

/-! # What a refusal means

A request that is refused has changed nothing, in whatever state it has found the tree. On a tree
that nobody else has touched, a refusal is always a mistake of the caller. -/
namespace Inventory
set_option autoImplicit false
open Relation

/-! ## Refusals change nothing -/

/-- A request that fails leaves the tree as it is, its tables, queue and leases, and observers have
heard at most of rows that were about to go. The tables may hold anything. -/
theorem Request.refused_unchanged (request : Request) (tree : Tree) :
    (∀ {σ : Type} (env : Surroundings σ) (outside : σ) (e : Error), env.Passive →
      (request.run env ⟨tree, outside⟩).1 = .error e →
        World.Unchanged env ⟨tree, outside⟩ (request.run env ⟨tree, outside⟩).2) ∧
    ∀ (log : List Notice) (e : Error),
      (request.run Surroundings.journal ⟨tree, log⟩).1 = .error e →
        ∃ said : List Notice,
          (request.run Surroundings.journal ⟨tree, log⟩).2 = ⟨tree, log ++ said⟩ ∧
            ∀ n ∈ said, n.phase = .beforeRemove := by
  refine ⟨fun env outside e henv h => request.withdraws henv _ e h, fun log e h => ?_⟩
  have hundone := request.withdraws Surroundings.passive_journal _ e h
  obtain ⟨said, hsaid, hbefore⟩ := Surroundings.journal_forewarned hundone.outside
  exact ⟨said, congrArg₂ World.mk hundone.tree hsaid, hbefore⟩

/-- Tables that somebody else has edited: a node of the library has a key that cannot be read, and
the annex has no root. -/
def Tree.edited : Tree where
  store.hierarchies := [⟨1, "Library"⟩, ⟨2, "Annex"⟩]
  store.nodes := [⟨1, 1, "1", "", "Library", "/Library", 0⟩,
    ⟨2, 1, "x", "1:1", "Maps", "/Library/?/Maps", 0⟩,
    ⟨3, 2, "2:1", "2", "Globes", "/Annex/Globes", 0⟩]
  store.assets := [⟨1, 1, "Atlas"⟩, ⟨2, 2, "Globe"⟩]
  store.attachments := [(1, 2), (2, 3)]

/-- A path of which one node has been inserted, a batch that has lost its rows, and an asset that
has no root to go to. -/
theorem Request.refused_edited :
    ∀ request ∈ [Request.createPath 1 "/Shelves/Top", .reassign [1] 1, .detach 3 [2]],
      (∃ e, (request.run Surroundings.journal ⟨Tree.edited, []⟩).1 = .error e) ∧
      ∃ said : List Notice,
        (request.run Surroundings.journal ⟨Tree.edited, []⟩).2 = ⟨Tree.edited, [] ++ said⟩ ∧
          ∀ n ∈ said, n.phase = .beforeRemove := by
  have hpath : ((Request.createPath 1 "/Shelves/Top").run Surroundings.journal
      ⟨Tree.edited, []⟩).1 = .error (.unreadableKey 2 "x") := by decide +kernel
  have hmove : ((Request.reassign [1] 1).run Surroundings.journal ⟨Tree.edited, []⟩).1 =
      .error (.unreadableKey 2 "x") := by decide +kernel
  have hdetach : ((Request.detach 3 [2]).run Surroundings.journal ⟨Tree.edited, []⟩).1 =
      .error (.noRoot 2 1) := by decide +kernel
  intro request hrequest
  have hfails : ∃ e, (request.run Surroundings.journal ⟨Tree.edited, []⟩).1 = .error e := by
    simp only [List.mem_cons, List.not_mem_nil, or_false] at hrequest
    rcases hrequest with rfl | rfl | rfl
    · exact ⟨_, hpath⟩
    · exact ⟨_, hmove⟩
    · exact ⟨_, hdetach⟩
  obtain ⟨e, he⟩ := hfails
  exact ⟨⟨e, he⟩, (Request.refused_unchanged request _).2 [] e he⟩

/-! ## Refusals are mistakes -/

namespace Tree
variable {tree last : Tree} {log : List Served}

/-- A request leaves a tree at rest. -/
theorem Calm.serve {σ : Type} {env : Surroundings σ} {w : World σ} (h : w.tree.Calm)
    (henv : env.Passive) (request : Request) : (request.run env w).2.tree.Calm :=
  ((Level.mk h h rfl rfl).serve henv henv request).first

theorem Executes.mistakes (h : tree.Executes log last) (hcalm : tree.Calm) :
    ∀ served ∈ log, Fair (served.store.Exhausted tree.options.newNodeName) served.result := by
  induction h with
  | done _ => exact fun served hserved => absurd hserved List.not_mem_nil
  | @serve σ env w tree last log hidle henv request _ ih =>
    obtain ⟨hcalm, -, hset⟩ := calm_of_idles hidle hcalm
    have hname : w.tree.options.newNodeName = tree.options.newNodeName :=
      (congrArg Options.newNodeName hset : w.tree.options.unlimited.newNodeName = _)
    have hkept : (request.run env w).2.tree.options = w.tree.options :=
      (Request.ensures_tidy henv request w rfl).1
    intro served hserved
    rcases List.mem_cons.1 hserved with rfl | hlater
    · intro e he
      have hfair := Request.run_fair henv hcalm.tidy hcalm.free request e he
      have hundone := (request.withdraws henv w e he).tree
      rw [← hname]
      dsimp only
      rwa [hundone]
    · have hrest := ih (hcalm.serve henv request) served hlater
      rwa [hkept, hname] at hrest

/-- Whatever is asked of a tree that starts from empty tables, with jobs and closings in between,
nothing fails but requests for what is not there or not allowed. The tables never turn out to be
corrupt, keys do not collide, nothing is contended for, and numbers run out only where the largest
one is in use. -/
theorem Executes.only_mistakes {options : Options} (h : ({ options } : Tree).Executes log last) :
    ∀ served ∈ log, ∀ e, served.result = .error e →
      e.kind ∈ [ErrorKind.notFound, .invalid, .duplicateSibling, .nodeNotEmpty] ∧
        (e = .overflow → served.store.Exhausted options.newNodeName) :=
  h.mistakes ⟨Store.tidy_empty, rfl, fun _ hmarked => absurd hmarked List.not_mem_nil⟩

/-- The root of a library is not to be deleted, nor is a node with an asset; a sibling of the same
name is not to be created. -/
theorem only_mistakes_library :
    ∃ log : List Served, log.map (·.result.isOk) = [true, true, true, false, false, false] ∧
      ∀ served ∈ log, ∀ e, served.result = .error e →
        e.kind ∈ [ErrorKind.notFound, .invalid, .duplicateSibling, .nodeNotEmpty] ∧
          (e = .overflow → served.store.Exhausted "New node") := by
  refine ⟨({} : Tree).served (library ++
    [.deleteNode 1, .deleteNode 2, .createChild 1 (some "Maps")]), by decide +kernel, ?_⟩
  exact Executes.only_mistakes (executes_after {} _)

end Tree
end Inventory
