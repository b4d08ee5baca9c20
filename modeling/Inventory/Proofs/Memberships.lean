import Inventory.Proofs.Runs

/-! # Memberships

The requests refine changes of a plain relation between assets and nodes. Every asset of a reachable
store is attached to a node, and every attachment joins an asset and a node of one hierarchy. -/
namespace Inventory.Store
set_option autoImplicit false
variable {s : Store}

/-- A request that is answered takes the pairs that it names out of the relation, puts others in,
and reports them; no asset is ever without a node, and no pair joins different hierarchies. -/
theorem Reachable.request_refines (h : s.Reachable) :
    (∀ {σ : Type} (env : Surroundings σ) (w : World σ) (request : Request) (answer : Answer),
      env.Passive → w.tree.store = s → (request.run env w).1 = .ok answer →
        request.Refines answer s (request.run env w).2.tree.store) ∧
      s.Placed ∧ s.Joined := by
  refine ⟨fun env w request answer henv hw hanswer => ?_, h.sound.placed, h.sound.joined⟩
  subst hw
  have heffect := (request.ensures_effect henv w rfl).2 h.sound
  exact heffect.refines answer hanswer

/-- Detached from its only node, the asset of the library goes to the root. -/
theorem request_refines_library :
    (Request.detach 2 [1]).Refines
      (.outcome { changes := [⟨1, [2]⟩], rehomed := [⟨1, [1]⟩], nodesUpdated := 2 })
      (({} : Tree).after library).store (({} : Tree).after (library ++ [.detach 2 [1]])).store :=
  (Tree.reachable_after Reachable.empty library).request_refines.1 Surroundings.quiet
    ⟨({} : Tree).after library, ()⟩ (.detach 2 [1]) _ Surroundings.passive_quiet rfl
    (by decide +kernel)

end Inventory.Store
