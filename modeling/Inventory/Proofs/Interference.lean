import Inventory.Proofs.Runs
import Inventory.Proofs.Store.Displaced
import Inventory.Proofs.Tree.Windows

/-! # Operations in two phases

Several operations read a row first, take its hierarchy from it, and use that in a transaction later
on. What others do in between may delete the row and give its id to a row of another hierarchy. Each
operation is safe on a condition on the store that its transaction finds, and only then. -/
namespace Inventory
set_option autoImplicit false
open Inventory.Store Inventory.Action Relation
variable {σ : Type} {env : Surroundings σ} {options : Options}

namespace Request

/-- The requests that use in a transaction what they have read before. -/
def isTwoPhase : Request → Bool
  | detach _ _ | detachFromNodes _ _ | deleteAsset _ | reassign _ _ | createChild _ _
  | deleteNode _ => true
  | _ => false

/-- The hierarchy that a request has read in the store. -/
def Captures (s : Store) (host : HierarchyId) : Request → Prop
  | detach id _ | deleteNode id | createChild id _ | reassign _ id =>
    ∃ row ∈ s.nodes, row.id = id ∧ row.hierarchy = host
  | deleteAsset id | detachFromNodes id _ =>
    ∃ asset ∈ s.assets, asset.id = id ∧ asset.hierarchy = host
  | _ => False

/-- What has to hold of the store that the transaction finds. The request has read its hierarchy,
and a move its rows, in the first store; the transaction leads from the second to the third. -/
def Safe (options : Options) (host : HierarchyId) (s t t' : Store) : Request → Prop
  | detach id batch => ∀ row ∈ t.nodes, row.id = id → row.hierarchy = host ∨
      (∀ asset ∈ batch, (asset, id) ∈ t.attachments →
        ∃ node, node ≠ id ∧ (asset, node) ∈ t.attachments) ∧
      (options.propagates batch.eraseDups.length = true ∨ row.hierarchy ∈ t.marked ∨
        HoldsSame row.hierarchy t t')
  | deleteAsset id => ∀ asset ∈ t.assets, asset.id = id →
      asset.hierarchy = host ∨ asset.hierarchy ∈ t.marked
  | deleteNode id => ∀ row ∈ t.nodes, row.id = id → ∀ child ∈ t.nodes,
      child.hierarchy = row.hierarchy → child.parentKey ≠ row.key
  | reassign batch id => ∀ row ∈ t.nodes, row.id = id →
      (∀ id ∈ batch, ∃ asset ∈ t.assets, asset.id = id ∧ asset.hierarchy = row.hierarchy) ∧
      (row.hierarchy = host ∨ row.hierarchy ∈ t.marked ∨
        if options.propagates ((s.attachmentsOf batch).length + batch.eraseDups.length) then
          HoldsSame row.hierarchy t (t.minus (s.attachmentsOf batch))
        else HoldsSame row.hierarchy t t')
  | _ => True

end Request

/-- The store as the surroundings leave it at the last window of a request; where there is none, the
store that the request starts with. -/
def Request.handover (request : Request) (env : Surroundings σ) (w : World σ) : Store :=
  ((request.run : Action (σ × Store) Answer) env.keeping (w.keeping w.tree.store)).2.outside.2

/-- What becomes of the first store when others make requests in the windows and hand over the
second: the request leaves it so, or carries out its transaction there. All is well after that
exactly if what was read still fits, as it does where nothing has changed. -/
def Request.Interleaved (request : Request) (options : Options) (s t s' : Store) : Prop :=
  ReflTransGen ServesAny s t ∧ t.Intact ∧
    (s' = t ∨ ∃ host, request.Captures s host ∧ (s'.Intact ↔ request.Safe options host s t s') ∧
      (t = s → request.Safe options host s t s'))

namespace Request

theorem captures_node {s : Store} (hs : s.Sound) {id : NodeId} {node : Node}
    (h : s.requireNode id = .ok node) :
    ∃ row ∈ s.nodes, row.id = id ∧ row.hierarchy = node.hierarchy := by
  obtain ⟨hin, hid⟩ := hs.formed.requireNode h
  exact ⟨node.row, hin, hid, rfl⟩

theorem captures_asset {s : Store} {id : AssetId} {asset : Asset}
    (h : s.requireAsset id = .ok asset) :
    ∃ known ∈ s.assets, known.id = id ∧ known.hierarchy = asset.hierarchy := by
  obtain ⟨hin, hid⟩ := requireAsset_eq_ok h
  exact ⟨asset, hin, hid, rfl⟩

/-- The transaction of a request is safe on a condition on the store that it finds. -/
theorem lands_safe (henv : env.Moves (ReflTransGen ServesAny)) {request : Request}
    (hphases : request.isTwoPhase = true) :
    Lands env options (ReflTransGen ServesAny) (fun _ => request.run) fun s t s' =>
      s.Sound → t.Sound → ∃ host, request.Captures s host ∧
        (s'.Intact ↔ request.Safe options host s t s') ∧
        (t = s → request.Safe options host s t s') := by
  cases request with
  | createChild parent value =>
    refine ((Tree.lands_createChild henv parent value).map Answer.node).weaken ?_
    rintro s t s' ⟨host, hc, _, h⟩ hs ht
    obtain ⟨node, hnode, rfl⟩ := Inventory.map_eq_ok.1 hc
    have hsound := (createChild_eq_ok ht h).sound ht
    exact ⟨_, captures_node hs hnode, iff_of_true hsound.intact trivial, fun _ => trivial⟩
  | deleteNode id =>
    refine ((Tree.lands_deleteNode henv id).map fun _ => Answer.done).weaken ?_
    rintro s t s' ⟨host, hc, _, h⟩ hs ht
    obtain ⟨node, hnode, rfl⟩ := Inventory.map_eq_ok.1 hc
    have hsafe := removeNode_intact_iff ht h
    refine ⟨_, captures_node hs hnode, hsafe, ?_⟩
    rintro rfl
    exact hsafe.1 ((removeNode_shapes hs hnode h).sound hs).intact
  | deleteAsset id =>
    refine ((Tree.lands_deleteAsset henv id).map fun _ => Answer.done).weaken ?_
    rintro s t s' ⟨found, hc, removed, h⟩ hs ht
    obtain ⟨asset, hasset, hc⟩ := Inventory.bind_eq_ok.1 hc
    cases hc
    obtain ⟨hin, rfl⟩ := requireAsset_eq_ok hasset
    refine ⟨_, captures_asset hasset, removeAsset_intact_iff ht h, ?_⟩
    rintro rfl other hother hid
    exact Or.inl (congrArg Asset.hierarchy (hs.formed.asset_eq_of_id hother hin hid))
  | detach id batch =>
    by_cases hnone : batch.eraseDups = []
    · cases eq_nil_of_eraseDups hnone
      exact (lands_pure henv ({} : Outcome)).map Answer.outcome
    · refine ((Tree.lands_detach henv id hnone).map Answer.outcome).weaken ?_
      rintro s t s' ⟨found, hc, outcome, h⟩ hs ht
      obtain ⟨node, hnode, hc⟩ := Inventory.bind_eq_ok.1 hc
      cases hc
      obtain ⟨hin, rfl⟩ := hs.formed.requireNode hnode
      have hsafe := detachAll_intact_iff ht h
      simp only [List.mem_eraseDups] at hsafe
      refine ⟨_, captures_node hs hnode, hsafe, ?_⟩
      rintro rfl row hrow hid
      exact Or.inl (congrArg NodeRow.hierarchy (hs.formed.eq_of_id hrow hin hid))
  | detachFromNodes id places =>
    by_cases hnone : places.eraseDups = []
    · cases eq_nil_of_eraseDups hnone
      exact (lands_pure henv ({} : Outcome)).map Answer.outcome
    · refine ((Tree.lands_detachFromNodes henv id hnone).map Answer.outcome).weaken ?_
      rintro s t s' ⟨found, hc, outcome, h⟩ hs ht
      obtain ⟨asset, hasset, hc⟩ := Inventory.bind_eq_ok.1 hc
      cases hc
      have hsound := (refines_detachFromNodes ht h).1
      exact ⟨_, captures_asset hasset, iff_of_true hsound.intact trivial, fun _ => trivial⟩
  | reassign batch target =>
    by_cases hnone : batch.eraseDups = []
    · cases eq_nil_of_eraseDups hnone
      exact (Tree.lands_reassign_nil henv target).map Answer.reassignment
    · refine ((Tree.lands_reassign henv target hnone).map Answer.reassignment).weaken ?_
      rintro s t s' ⟨found, hc, added, h⟩ hs ht
      obtain ⟨⟨place, hplace, hid, hhost⟩, hassets, hobserved⟩ := Tree.observe_eq_ok hs.formed hc
      -- the rows of the snapshot, and not those of the transaction, are what is counted
      have hrows : ∀ link ∈ found.2, link.1 ∈ batch.eraseDups := by
        rw [hobserved]
        exact fun link hlink => (mem_attachmentsOf.1 hlink).2
      have hsame : s.attachmentsOf batch.eraseDups = s.attachmentsOf batch := by
        rw [attachmentsOf, attachmentsOf, eraseDups_of_nodup (nodup_eraseDups batch)]
      have hsafe := move_intact_iff ht hrows h
      rw [hobserved, hsame] at hsafe
      simp only [List.mem_eraseDups] at hsafe hassets
      refine ⟨_, ⟨place, hplace, hid, hhost⟩, hsafe, ?_⟩
      rintro rfl row hrow hid'
      have hhere : row.hierarchy = found.1 := by
        rw [hs.formed.eq_of_id hrow hplace (hid'.trans hid.symm), hhost]
      exact ⟨fun id hin => hhere ▸ hassets id hin, Or.inl hhere⟩
  | _ => cases hphases

end Request
namespace Store
variable {s : Store}

/-- Whatever requests others make between the phases, the operation leaves the store as they have
left it, or carries out its transaction there; all is well after that exactly if what it had read
still fits. That the surroundings keep the store that they hand over makes no difference to it. -/
theorem Reachable.two_phase_interleaved (h : s.Reachable) (henv : env.Moves (ReflTransGen ServesAny))
    {request : Request} (hphases : request.isTwoPhase = true) {w : World σ}
    (hw : w.tree.store = s) :
    request.run env.keeping (w.keeping s) =
        ((request.run env w).1, (request.run env w).2.keeping (request.handover env w)) ∧
      request.Interleaved w.tree.options s (request.handover env w)
        (request.run env w).2.tree.store := by
  subst hw
  obtain ⟨t, hrun, hmoved, hend⟩ := Request.lands_safe henv hphases w rfl
  have ht : request.handover env w = t := congrArg (·.2.outside.2) hrun
  have hsound := (h.serves hmoved).sound
  rw [ht]
  exact ⟨hrun, hmoved, hsound.intact, hend.imp_right fun hsafe => hsafe h.sound hsound⟩

/-- Two hierarchies, the first with a node that an asset is attached to. -/
def shelves : List Request :=
  [.createHierarchy "A", .createHierarchy "B", .createChild 1 (some "x"), .createAsset 1 "a" [3]]

/-- The node is emptied and deleted, and its id goes to a node of the other hierarchy. -/
def exchange : List Request :=
  [.detach 3 [1], .deleteNode 3, .createChild 2 (some "y"), .createAsset 2 "b" [3]]

theorem not_intact_of_unplaced (asset : Asset) (hasset : asset ∈ s.assets)
    (hnone : ∀ link ∈ s.attachments, link.1 ≠ asset.id) : ¬s.Intact := by
  intro hintact
  obtain ⟨node, hnode⟩ := hintact.placed asset hasset
  exact hnone _ hnode rfl

/-- What the detachment has read does not fit the exchanged node, and an asset is left without any. -/
theorem two_phase_interleaved_exchange :
    ¬(Request.detach 3 [1, 2]).Safe {} 1 (({} : Tree).after shelves).store
        ((Request.detach 3 [1, 2]).handover (Surroundings.answering exchange)
          ⟨({} : Tree).after shelves, ()⟩)
        ((Request.detach 3 [1, 2]).run (Surroundings.answering exchange)
          ⟨({} : Tree).after shelves, ()⟩).2.tree.store ∧
      ¬((Request.detach 3 [1, 2]).run (Surroundings.answering exchange)
          ⟨({} : Tree).after shelves, ()⟩).2.tree.store.Intact := by
  have hlost : ¬((Request.detach 3 [1, 2]).run (Surroundings.answering exchange)
      ⟨({} : Tree).after shelves, ()⟩).2.tree.store.Intact := by
    apply not_intact_of_unplaced ⟨2, 2, "b"⟩
    · decide +kernel
    · decide +kernel
  have hchanged : ((Request.detach 3 [1, 2]).run (Surroundings.answering exchange)
      ⟨({} : Tree).after shelves, ()⟩).2.tree.store ≠
        (Request.detach 3 [1, 2]).handover (Surroundings.answering exchange)
          ⟨({} : Tree).after shelves, ()⟩ := by decide +kernel
  have hread : ∀ row ∈ (({} : Tree).after shelves).store.nodes, row.id = 3 → row.hierarchy = 1 := by
    decide +kernel
  have hoptions : (({} : Tree).after shelves).options = {} := Tree.options_after shelves
  have hends : (Request.detach 3 [1, 2]).Interleaved (({} : Tree).after shelves).options
      (({} : Tree).after shelves).store
      ((Request.detach 3 [1, 2]).handover (Surroundings.answering exchange)
        ⟨({} : Tree).after shelves, ()⟩)
      ((Request.detach 3 [1, 2]).run (Surroundings.answering exchange)
        ⟨({} : Tree).after shelves, ()⟩).2.tree.store :=
    ((Tree.reachable_after Reachable.empty shelves).two_phase_interleaved
      (Surroundings.answering_moves fun _ _ => rfl) rfl rfl).2
  obtain ⟨-, -, hleft | ⟨host, ⟨row, hrow, hid, rfl⟩, hsafe, -⟩⟩ := hends
  · exact absurd hleft hchanged
  · rw [hread row hrow hid, hoptions] at hsafe
    exact ⟨fun h => hlost (hsafe.2 h), hlost⟩

/-- Detaching from the node while it is exchanged leaves an asset without any node. -/
theorem not_intact_exchange :
    ¬∀ (s : Store) (env : Surroundings Unit) (request : Request) (w : World Unit),
      s.Reachable → env.Moves (ReflTransGen ServesAny) → request.isTwoPhase = true →
        w.tree.store = s → (request.run env w).2.tree.store.Intact := by
  intro hintact
  refine not_intact_of_unplaced ⟨2, 2, "b"⟩ ?_ ?_ <|
    hintact (({} : Tree).after shelves).store (Surroundings.answering exchange)
      (.detach 3 [1, 2]) ⟨({} : Tree).after shelves, ()⟩
      (Tree.reachable_after Reachable.empty shelves)
      (Surroundings.answering_moves fun _ _ => rfl) rfl rfl
  · decide +kernel
  · decide +kernel

end Store
end Inventory
