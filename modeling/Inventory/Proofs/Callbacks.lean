import Inventory.Proofs.Contention

/-! # Requests from inside a call of an observer

An observer that is called in the middle of an operation may make requests on the same tree. None of
them has to wait for the operation if that holds no lease during its calls. All operations keep to
that but one: a move calls observers while it holds the lease of its target's hierarchy. -/
namespace Inventory
set_option autoImplicit false
open Inventory.Action
variable {σ : Type} {env : Surroundings σ}

/-- Observers that make requests when they are called; what goes on during these may be anything that
gives back its leases, such as further requests. -/
def Surroundings.requesting (script : Notice → List (Request × Surroundings σ)) : Surroundings σ
  | .waiting _, w => w
  | .notice n, w => (script n).foldl (fun w call => (call.1.run call.2 w).2) w

theorem Surroundings.returning_requesting {script : Notice → List (Request × Surroundings σ)}
    (h : ∀ n, ∀ call ∈ script n, call.2.Returning) : (requesting script).Returning := by
  intro m w
  cases m with
  | waiting _ => rfl
  | notice n =>
    have hscript := h n
    rw [requesting]
    generalize script n = calls at hscript
    induction calls generalizing w with
    | nil => rfl
    | cons call rest ih =>
      rw [List.foldl_cons, ih _ fun other hother => hscript other (List.mem_cons_of_mem _ hother)]
      exact Request.run_leases (hscript call List.mem_cons_self) call.1 w

/-- Jobs call nobody. -/
theorem Tree.runJobs_recorded (henv : env.Returning) (jobs : List HierarchyId)
    (w : World (σ × List (Notice × Tree))) :
    (runJobs jobs env.recorded w).2.outside.2 = w.outside.2 := by
  induction jobs generalizing w with
  | nil => rfl
  | cons first rest ih =>
    obtain ⟨made, hmade, hcalls⟩ :=
      (@leasing_reconcile (σ × List (Notice × Tree)) False first).recorded henv w
    have hnone : made = [] := by
      refine List.eq_nil_iff_forall_not_mem.2 fun call hcall => ?_
      rcases hcalls call hcall with ⟨hask, -⟩ | ⟨_, -, hfalse, -⟩
      · obtain ⟨_, -, hhost⟩ := Inventory.bind_eq_ok.1 hask
        cases hhost
      · exact hfalse
    rw [runJobs_cons, ih]
    show (reconcile first .repair env.recorded w).2.outside.2 = _
    rw [hmade, hnone, List.append_nil]

namespace Request
variable {request : Request} {host : HierarchyId}

/-- The request holds the lease of the hierarchy while it calls observers. -/
def Guards (request : Request) (s : Store) (host : HierarchyId) : Prop :=
  request.isMove = true ∧ request.lease? s = .ok (some host)

/-- Observers find the leases that were held at the start and, while a move calls them, that of its
target's hierarchy. -/
theorem run_recorded (henv : env.Returning) (request : Request)
    (w : World (σ × List (Notice × Tree))) :
    ∃ made, (request.run env.recorded w).2.outside.2 = w.outside.2 ++ made ∧
      ∀ call ∈ made, ((∀ host, ¬request.Guards w.tree.store host) ∧
          call.2.leases = w.tree.leases) ∨
        ∃ host, request.Guards w.tree.store host ∧
          call.2.leases = w.tree.leases.grant host := by
  have hnone : (request.run env.recorded w).2.outside.2 = w.outside.2 →
      ∃ made, (request.run env.recorded w).2.outside.2 = w.outside.2 ++ made ∧
        ∀ call ∈ made, ((∀ host, ¬request.Guards w.tree.store host) ∧
            call.2.leases = w.tree.leases) ∨
          ∃ host, request.Guards w.tree.store host ∧
            call.2.leases = w.tree.leases.grant host := fun h =>
    ⟨[], h.trans (List.append_nil _).symm, fun _ hcall => absurd hcall List.not_mem_nil⟩
  rcases @apart_or_leasing (σ × List (Notice × Tree)) request with rfl | rfl | rfl | hleasing
  · refine hnone ?_
    rw [run_flush]
    exact Tree.runJobs_recorded henv _ _
  · exact hnone rfl
  · exact hnone rfl
  · obtain ⟨made, hmade, hcalls⟩ := hleasing.recorded henv w
    refine ⟨made, hmade, fun call hcall => ?_⟩
    rcases hcalls call hcall with ⟨hask, hleases⟩ | ⟨host, hask, hmove, hleases⟩
    · refine Or.inl ⟨fun host hguards => ?_, hleases⟩
      cases hask.symm.trans hguards.2
    · exact Or.inr ⟨host, ⟨hmove, hask⟩, hleases⟩

/-- A lease that is free when an operation starts is in the way of nobody whom the operation calls,
unless it is a move to that hierarchy. Then, and only then, whatever asks for the lease from inside a
call is refused it, or waits for it for ever. -/
theorem refused_in_call_iff (henv : env.Returning) (request : Request)
    {w : World (σ × List (Notice × Tree))} (hfree : host ∉ w.tree.leases.held) :
    ∃ made, (request.run env.recorded w).2.outside.2 = w.outside.2 ++ made ∧
      ∀ call ∈ made, ∀ {τ : Type} {within : Surroundings τ}, within.Returning →
        ∀ (inner : Request) (v : World τ), v.tree.leases = call.2.leases →
          (((inner.run within v).1 = .error (.lockTimeout host) ∨
              (inner.run within v).1 = .error (.waitsForever host)) ↔
            request.Guards w.tree.store host ∧ inner.lease? v.tree.store = .ok (some host)) := by
  obtain ⟨made, hmade, hcalls⟩ := run_recorded henv request w
  refine ⟨made, hmade, fun call hcall τ within hwithin inner v hv => ?_⟩
  have hheld : host ∈ v.tree.leases.held ↔ request.Guards w.tree.store host := by
    rw [hv]
    rcases hcalls call hcall with ⟨hnone, hleases⟩ | ⟨other, hguards, hleases⟩
    · rw [hleases]
      exact iff_of_false hfree (hnone host)
    · rw [hleases, Leases.mem_grant, or_iff_left hfree]
      constructor
      · rintro rfl
        exact hguards
      · intro hother
        exact Option.some.inj (Except.ok.inj (hother.2.symm.trans hguards.2))
  constructor
  · rintro (hresult | hresult)
    · obtain ⟨asked, hask, hin, he | he⟩ := run_refused hwithin hresult rfl
      · cases he
        exact ⟨hheld.1 hin, hask⟩
      · cases he
    · obtain ⟨asked, hask, hin, he | he⟩ := run_refused hwithin hresult rfl
      · cases he
      · cases he
        exact ⟨hheld.1 hin, hask⟩
  · rintro ⟨hguards, hask⟩
    rcases @apart_or_leasing τ inner with rfl | rfl | rfl | hleasing
    · cases hask
    · cases hask
    · cases hask
    · rw [hleasing.of_held hwithin hask (hheld.2 hguards)]
      cases (within (.waiting host) v).tree.options.lockTimeout with
      | none => exact Or.inr rfl
      | some _ => exact Or.inl rfl

/-- A tree with an asset, where the wait for a lease is bounded. -/
def patient : World (Unit × List (Notice × Tree)) :=
  ⟨({ options := { lockTimeout := some 40 } } : Tree).after library, ((), [])⟩

/-- An observer that adds a node whenever it is called. -/
def planting : Surroundings Unit :=
  .requesting fun _ => [(.createChild 1 (some "Globes"), .quiet)]

theorem returning_planting : planting.Returning := by
  refine Surroundings.returning_requesting fun n call hcall => ?_
  rw [List.mem_singleton.1 hcall]
  exact fun _ _ => rfl

/-- The node is added in the call of an operation that attaches. -/
theorem refused_in_call_attach :
    ∃ call ∈ ((attach 1 [1]).run planting.recorded patient).2.outside.2,
      ((createChild 1 (some "Globes")).run .quiet (World.mk call.2 ())).1 ≠
        .error (.lockTimeout 1) := by
  have hfree : (1 : HierarchyId) ∉ patient.tree.leases.held := by decide +kernel
  obtain ⟨made, hmade, hcalls⟩ := refused_in_call_iff returning_planting (attach 1 [1]) hfree
  have hsome : ((attach 1 [1]).run planting.recorded patient).2.outside.2 ≠ [] := by decide +kernel
  obtain ⟨call, hcall⟩ := List.exists_mem_of_ne_nil _ hsome
  refine ⟨call, hcall, fun hresult => ?_⟩
  rw [hmade, patient, List.nil_append] at hcall
  have hquiet : (Surroundings.quiet : Surroundings Unit).Returning := fun _ _ => rfl
  have hiff := hcalls call hcall hquiet (createChild 1 (some "Globes")) (World.mk call.2 ()) rfl
  obtain ⟨⟨hmove, -⟩, -⟩ := hiff.1 (Or.inl hresult)
  cases hmove

/-- In the calls of a move it is not: the move holds the lease. -/
theorem not_free_in_call_move :
    ¬∀ (env : Surroundings Unit) (request inner : Request)
      (w : World (Unit × List (Notice × Tree))) (host : HierarchyId), env.Returning →
        w.outside.2 = [] → host ∉ w.tree.leases.held →
          ∀ call ∈ (request.run env.recorded w).2.outside.2,
            (inner.run .quiet (World.mk call.2 ())).1 ≠ .error (.lockTimeout host) := by
  intro hfree
  have hrefused : ∃ call ∈ ((reassign [1] 1).run planting.recorded patient).2.outside.2,
      ((createChild 1 (some "Globes")).run .quiet (World.mk call.2 ())).1 =
        .error (.lockTimeout 1) := by decide +kernel
  obtain ⟨call, hcall, hresult⟩ := hrefused
  exact hfree planting (reassign [1] 1) (createChild 1 (some "Globes")) patient 1
    returning_planting rfl (by decide +kernel) call hcall hresult

end Request
end Inventory
