import Inventory.Proofs.Lease
import Inventory.Proofs.Store.Unrefused
import Inventory.Proofs.Tree.Operations

/-! # Operations and leases

An operation takes at most one lease, after reads that may stop it first. What it does before, under
and after the lease are plain steps: they neither look at leases nor take any. This is read off how
the operations are put together; what they do to leases, and what leases do to them, follows for all
of them at once. -/
namespace Inventory
set_option autoImplicit false
variable {σ α β γ : Type}

/-- The world with other leases held. -/
def World.leased (w : World σ) (leases : Leases) : World σ :=
  { w with tree := { w.tree with leases } }

namespace Surroundings

/-- Whatever leases the surroundings take they give back. -/
def Returning (env : Surroundings σ) : Prop := ∀ m w, (env m w).tree.leases = w.tree.leases

/-- Observers that keep notes of what they are told, and nobody else. -/
def listening (hear : Notice → σ → σ) : Surroundings σ
  | .waiting _, w => w
  | .notice n, w => { w with outside := hear n w.outside }

theorem returning_listening (hear : Notice → σ → σ) : (listening hear).Returning := by
  intro m w
  cases m with
  | waiting _ => rfl
  | notice _ => rfl

/-- The surroundings together with a record of the calls of observers and of the trees that these
find. -/
def recorded (env : Surroundings σ) : Surroundings (σ × List (Notice × Tree))
  | .waiting hierarchy, w =>
    let after := env (.waiting hierarchy) ⟨w.tree, w.outside.1⟩
    ⟨after.tree, (after.outside, w.outside.2)⟩
  | .notice n, w =>
    let after := env (.notice n) ⟨w.tree, w.outside.1⟩
    ⟨after.tree, (after.outside, w.outside.2 ++ [(n, w.tree)])⟩

theorem Returning.recorded {env : Surroundings σ} (henv : env.Returning) :
    env.recorded.Returning := by
  intro m w
  cases m with
  | waiting hierarchy => exact henv (.waiting hierarchy) ⟨w.tree, w.outside.1⟩
  | notice n => exact henv (.notice n) ⟨w.tree, w.outside.1⟩

end Surroundings

namespace Action

/-! ## Plain steps -/

/-- A step on a tree that neither looks at leases nor changes them, and complains of none. -/
structure Blind (f : Tree → Except Error α × Tree) : Prop where
  blind : ∀ (tree : Tree) (leases : Leases),
    f { tree with leases } = ((f tree).1, { (f tree).2 with leases })
  unrefused : ∀ tree, Unrefused (f tree).1

/-- What a change of the store makes of a tree. -/
def written (change : Transaction α) (tree : Tree) : Except Error α × Tree :=
  match change tree.store with
  | .ok (a, store) => (.ok a, { tree with store })
  | .error e => (.error e, tree)

theorem write_eq (change : Transaction α) :
    (write change : Action σ α) =
      fun _ w => ((written change w.tree).1, { w with tree := (written change w.tree).2 }) := by
  funext env w
  rw [write, written]
  cases change w.tree.store with
  | ok r => rfl
  | error e => rfl

theorem blind_written {change : Transaction α} (h : change.Unrefused) : Blind (written change) where
  blind tree leases := by
    rw [written, written]
    cases change tree.store with
    | ok r => rfl
    | error e => rfl
  unrefused tree := by
    rw [written]
    cases hrun : change tree.store with
    | ok r => exact unrefused_ok r.1
    | error e => exact unrefused_error (h tree.store e hrun)

/-- Actions put together from such steps and from calls of observers, where these are allowed. -/
inductive Plain (calls : Prop) {σ : Type} : {α : Type} → Action σ α → Prop
  | step {α : Type} {f : Tree → Except Error α × Tree} (hf : Blind f) :
    Plain calls fun _ w => ((f w.tree).1, { w with tree := (f w.tree).2 })
  | announce (hcalls : calls) (phase : Phase) (hierarchy : HierarchyId) (changes : List Change) :
    Plain calls (Action.announce phase hierarchy changes)
  | bind {α β : Type} {act : Action σ α} {next : α → Action σ β} (h : Plain calls act)
      (hnext : ∀ a, Plain calls (next a)) : Plain calls (act >>= next)

section Plain
variable {calls : Prop}

theorem plain_read {question : Store → Except Error α} (h : ∀ s, Unrefused (question s)) :
    Plain calls (read question : Action σ α) :=
  .step (f := fun tree => (question tree.store, tree)) ⟨fun _ _ => rfl, fun tree => h tree.store⟩

theorem plain_pure (a : α) : Plain calls (pure a : Action σ α) :=
  @plain_read σ α calls (fun _ => .ok a) fun _ => unrefused_ok a

theorem plain_lift {result : Except Error α} (h : Unrefused result) :
    Plain calls (lift result : Action σ α) := @plain_read σ α calls (fun _ => result) fun _ => h

theorem plain_view {question : Tree → α}
    (h : ∀ (tree : Tree) (leases : Leases), question { tree with leases } = question tree) :
    Plain calls (view question : Action σ α) :=
  .step (f := fun tree => (.ok (question tree), tree))
    ⟨fun tree leases => by rw [h], fun _ => unrefused_ok _⟩

theorem plain_propagates (batch : Nat) : Plain calls (propagates batch : Action σ Bool) :=
  plain_view fun _ _ => rfl

theorem plain_write {change : Transaction α} (h : change.Unrefused) :
    Plain calls (write change : Action σ α) :=
  write_eq (σ := σ) change ▸ .step (blind_written h)

theorem Plain.map {act : Action σ α} (h : Plain calls act) (f : α → β) : Plain calls (f <$> act) := by
  rw [map_eq]
  exact h.bind fun a => plain_pure (f a)

theorem plain_schedule (hierarchy : HierarchyId) :
    Plain calls (schedule hierarchy : Action σ Bool) :=
  .step (f := fun tree => (.ok (tree.queue.schedule hierarchy tree.options.coalesceWindow).1,
    { tree with queue := (tree.queue.schedule hierarchy tree.options.coalesceWindow).2 }))
    ⟨fun _ _ => rfl, fun _ => unrefused_ok _⟩

theorem plain_deferUnless (propagated : Bool) (hierarchy : HierarchyId) :
    Plain calls (deferUnless propagated hierarchy : Action σ Unit) := by
  cases propagated with
  | true => exact plain_pure ()
  | false => exact (plain_schedule hierarchy).map _

end Plain

/-! ## What plain actions keep -/

namespace Plain
variable {calls : Prop} {env : Surroundings σ} {act : Action σ α}

theorem unrefused (h : Plain calls act) (env : Surroundings σ) (w : World σ) :
    Unrefused (act env w).1 := by
  induction h generalizing w with
  | step hf => exact hf.unrefused w.tree
  | announce => exact unrefused_ok ()
  | @bind _ _ act next _ _ ih ihnext =>
    rcases bind_run_cases act next env w with ⟨a, w', hrun, hbind⟩ | ⟨e, w', hrun, hbind⟩
    · rw [hbind]
      exact ihnext a w'
    · rw [hbind]
      exact unrefused_error (ih w e (congrArg Prod.fst hrun))

theorem leases (h : Plain calls act) (henv : env.Returning) (w : World σ) :
    (act env w).2.tree.leases = w.tree.leases := by
  induction h generalizing w with
  | @step _ f hf => exact congrArg (fun r => r.2.leases) (hf.blind w.tree w.tree.leases)
  | announce _ phase hierarchy changes =>
    rw [Action.announce]
    by_cases hnone : changes.isEmpty = true
    · rw [if_pos hnone]
    · rw [if_neg hnone]
      exact henv _ w
  | @bind _ _ act next _ _ ih ihnext =>
    have hact := ih w
    rcases bind_run_cases act next env w with ⟨a, w', hrun, hbind⟩ | ⟨e, w', hrun, hbind⟩
    · rw [hrun] at hact
      rw [hbind]
      exact (ihnext a w').trans hact
    · rw [hrun] at hact
      rw [hbind]
      exact hact

/-- While observers only listen, a plain action does the same whatever leases are held. -/
theorem leased (h : Plain calls act) (hear : Notice → σ → σ) (w : World σ) (leases : Leases) :
    act (Surroundings.listening hear) (w.leased leases) =
      ((act (Surroundings.listening hear) w).1,
        (act (Surroundings.listening hear) w).2.leased leases) := by
  induction h generalizing w with
  | @step _ f hf =>
    dsimp only [World.leased]
    rw [hf.blind]
  | announce _ phase hierarchy changes =>
    simp only [Action.announce]
    by_cases hnone : changes.isEmpty = true
    · rw [if_pos hnone, if_pos hnone]
    · rw [if_neg hnone, if_neg hnone]
      rfl
  | @bind _ _ act next _ _ ih ihnext =>
    have hact := ih w
    rcases bind_run_cases act next (Surroundings.listening hear) w with
      ⟨a, w', hrun, hbind⟩ | ⟨e, w', hrun, hbind⟩
    · rw [hrun] at hact
      rw [bind_of_ok hact, hbind]
      exact ihnext a w'
    · rw [hrun] at hact
      rw [bind_of_error hact, hbind]

/-- Observers are called, where they are, while the leases of the start are held. -/
theorem recorded {env : Surroundings σ} {act : Action (σ × List (Notice × Tree)) α}
    (h : Plain calls act) (henv : env.Returning) (w : World (σ × List (Notice × Tree))) :
    ∃ made, (act env.recorded w).2.outside.2 = w.outside.2 ++ made ∧
      ∀ call ∈ made, calls ∧ call.2.leases = w.tree.leases := by
  induction h generalizing w with
  | step _ => exact ⟨[], (List.append_nil _).symm, fun _ hcall => absurd hcall List.not_mem_nil⟩
  | announce hcalls phase hierarchy changes =>
    rw [Action.announce]
    by_cases hnone : changes.isEmpty = true
    · rw [if_pos hnone]
      exact ⟨[], (List.append_nil _).symm, fun _ hcall => absurd hcall List.not_mem_nil⟩
    · rw [if_neg hnone]
      refine ⟨[(⟨phase, hierarchy, changes⟩, w.tree)], rfl, fun call hcall => ?_⟩
      rw [List.mem_singleton.1 hcall]
      exact ⟨hcalls, rfl⟩
  | @bind _ _ act next hact _ ih ihnext =>
    obtain ⟨made, hmade, hcalls⟩ := ih w
    have hleases := hact.leases henv.recorded w
    rcases bind_run_cases act next env.recorded w with ⟨a, w', hrun, hbind⟩ | ⟨e, w', hrun, hbind⟩
    · rw [hrun] at hmade hleases
      rw [hbind]
      obtain ⟨more, hmore, hmoreCalls⟩ := ihnext a w'
      refine ⟨made ++ more, ?_, fun call hcall => ?_⟩
      · rw [hmore, hmade, List.append_assoc]
      · rcases List.mem_append.1 hcall with hin | hin
        · exact hcalls call hin
        · exact ⟨(hmoreCalls call hin).1, (hmoreCalls call hin).2.trans hleases⟩
    · rw [hrun] at hmade
      rw [hbind]
      exact ⟨made, hmade, hcalls⟩

end Plain

/-! ## Actions that take a lease -/

/-- Actions that ask questions first, which may stop them, and then go on plainly, with a lease or
without one, as the answers say; under the lease observers are called where that is allowed. -/
inductive Leasing (calls : Prop) {σ : Type} :
    {α : Type} → (Store → Except Error (Option HierarchyId)) → Action σ α → Prop
  | free {α : Type} {act : Action σ α} (h : Plain True act) : Leasing calls (fun _ => .ok none) act
  | held {α : Type} {act : Action σ α} (host : HierarchyId) (h : Plain calls act) :
    Leasing calls (fun _ => .ok (some host)) (holding host act)
  | read {α γ : Type} {question : Store → Except Error γ} (hq : ∀ s, Unrefused (question s))
      {ask : γ → Store → Except Error (Option HierarchyId)} {next : γ → Action σ α}
      (h : ∀ c, Leasing calls (ask c) (next c)) :
    Leasing calls (fun s => question s >>= fun c => ask c s) (Action.read question >>= next)
  | view {α γ : Type} {ask : Store → Except Error (Option HierarchyId)} (question : Options → γ)
      {next : γ → Action σ α} (h : ∀ c, Leasing calls ask (next c)) :
    Leasing calls ask (Action.view (fun tree => question tree.options) >>= next)
  | map {α β : Type} {ask : Store → Except Error (Option HierarchyId)} {act : Action σ α}
      (f : α → β) (h : Leasing calls ask act) : Leasing calls ask (f <$> act)

theorem map_holding (f : α → β) (hierarchy : HierarchyId) (act : Action σ α) :
    f <$> holding hierarchy act = holding hierarchy (f <$> act) := by
  funext env w
  rw [map_run, holding, holding]
  dsimp only
  cases (env (.waiting hierarchy) w).tree.leases.acquire hierarchy
    (env (.waiting hierarchy) w).tree.options.lockTimeout with
  | error e => rfl
  | ok leases =>
    dsimp only
    rw [map_run]

/-- What the action amounts to on a tree whose store answers its questions in the given way. -/
def Resolves (calls : Prop) (act : Action σ α) (w : World σ) :
    Except Error (Option HierarchyId) → Prop
  | .error e => e.isRefusal = false ∧
      ∀ env leases, act env (w.leased leases) = (.error e, w.leased leases)
  | .ok none => ∃ body : Action σ α, Plain True body ∧
      ∀ env leases, act env (w.leased leases) = body env (w.leased leases)
  | .ok (some host) => ∃ body : Action σ α, Plain calls body ∧
      ∀ env leases, act env (w.leased leases) = holding host body env (w.leased leases)

namespace Resolves
variable {calls : Prop} {act : Action σ α} {w : World σ}
  {answer : Except Error (Option HierarchyId)}

theorem of_eq {act' : Action σ α} (h : Resolves calls act w answer)
    (heq : ∀ env leases, act' env (w.leased leases) = act env (w.leased leases)) :
    Resolves calls act' w answer := by
  cases answer with
  | error e => exact ⟨h.1, fun env leases => (heq env leases).trans (h.2 env leases)⟩
  | ok asked =>
    cases asked with
    | none =>
      obtain ⟨body, hbody, hrun⟩ := h
      exact ⟨body, hbody, fun env leases => (heq env leases).trans (hrun env leases)⟩
    | some host =>
      obtain ⟨body, hbody, hrun⟩ := h
      exact ⟨body, hbody, fun env leases => (heq env leases).trans (hrun env leases)⟩

theorem map (h : Resolves calls act w answer) (f : α → β) : Resolves calls (f <$> act) w answer := by
  cases answer with
  | error e =>
    refine ⟨h.1, fun env leases => ?_⟩
    rw [map_run, h.2]
    rfl
  | ok asked =>
    cases asked with
    | none =>
      obtain ⟨body, hbody, hrun⟩ := h
      refine ⟨f <$> body, hbody.map f, fun env leases => ?_⟩
      rw [map_run, map_run, hrun]
    | some host =>
      obtain ⟨body, hbody, hrun⟩ := h
      refine ⟨f <$> body, hbody.map f, fun env leases => ?_⟩
      rw [← map_holding, map_run, map_run, hrun]

end Resolves

namespace Leasing
variable {calls : Prop} {env : Surroundings σ} {act : Action σ α} {w : World σ}
  {ask : Store → Except Error (Option HierarchyId)} {host : HierarchyId}

theorem resolves (h : Leasing calls ask act) (w : World σ) :
    Resolves calls act w (ask w.tree.store) := by
  induction h with
  | @free _ act h => exact ⟨act, h, fun _ _ => rfl⟩
  | @held _ act host h => exact ⟨act, h, fun _ _ => rfl⟩
  | @read _ _ question hq ask next _ ih =>
    dsimp only
    cases hc : question w.tree.store with
    | error e =>
      refine ⟨hq _ e hc, fun env leases => bind_of_error ?_⟩
      exact congrArg (·, w.leased leases) hc
    | ok c =>
      exact (ih c).of_eq fun env leases => bind_of_ok (congrArg (·, w.leased leases) hc)
  | @view _ _ ask question next _ ih => exact ih (question w.tree.options)
  | @map _ _ ask act f _ ih => exact ih.map f

end Leasing

/-! ## Holding a lease -/

section Holding
variable {calls : Prop} {env : Surroundings σ} {w : World σ} {host : HierarchyId}
  {body : Action σ α}

theorem holding_of_held (henv : env.Returning) (hheld : host ∈ w.tree.leases.held) :
    holding host body env w =
      (.error (if (env (.waiting host) w).tree.options.lockTimeout.isSome then .lockTimeout host
        else .waitsForever host), env (.waiting host) w) := by
  have hstill : host ∈ (env (.waiting host) w).tree.leases.held := by rwa [henv]
  rw [holding]
  dsimp only
  rw [Leases.acquire_of_held hstill]

theorem holding_of_free (henv : env.Returning) (hfree : host ∉ w.tree.leases.held) :
    holding host body env w =
      ((body env ((env (.waiting host) w).granted host)).1,
        (body env ((env (.waiting host) w).granted host)).2.released host) := by
  refine holding_granted rfl ?_ body
  rw [henv, ← Bool.not_eq_true, Leases.isHeld_iff]
  exact hfree

theorem holding_leases (henv : env.Returning) (hbody : Plain calls body) :
    (holding host body env w).2.tree.leases = w.tree.leases := by
  by_cases hheld : host ∈ w.tree.leases.held
  · rw [holding_of_held henv hheld]
    exact henv _ w
  · rw [holding_of_free henv hheld]
    show (body env _).2.tree.leases.release host = _
    rw [hbody.leases henv]
    show ((env (.waiting host) w).tree.leases.grant host).release host = _
    rw [henv]
    refine Leases.release_grant ?_
    rwa [← Bool.not_eq_true, Leases.isHeld_iff]

/-- Only a lease that is held is refused. -/
theorem holding_refused (henv : env.Returning) (hbody : Plain calls body) {e : Error}
    (h : (holding host body env w).1 = .error e) (he : e.isRefusal = true) :
    host ∈ w.tree.leases.held ∧ (e = .lockTimeout host ∨ e = .waitsForever host) := by
  by_cases hheld : host ∈ w.tree.leases.held
  · rw [holding_of_held henv hheld] at h
    cases h
    refine ⟨hheld, ?_⟩
    cases (env (.waiting host) w).tree.options.lockTimeout with
    | none => exact Or.inr rfl
    | some _ => exact Or.inl rfl
  · rw [holding_of_free henv hheld] at h
    rw [hbody.unrefused env _ e h] at he
    cases he

/-- A lease that is free in either case does not tell them apart. -/
theorem holding_leased {leases : Leases} (hbody : Plain calls body) (hear : Notice → σ → σ)
    (hfree : host ∉ w.tree.leases.held) (hfree' : host ∉ leases.held) :
    holding host body (Surroundings.listening hear) (w.leased leases) =
      ((holding host body (Surroundings.listening hear) w).1,
        (holding host body (Surroundings.listening hear) w).2.leased leases) := by
  have henv := Surroundings.returning_listening hear
  rw [holding_of_free henv hfree, holding_of_free (w := w.leased leases) henv hfree']
  have hwaits : ∀ v : World σ, Surroundings.listening hear (.waiting host) v = v := fun _ => rfl
  rw [hwaits, hwaits]
  -- both runs of the body are that on `w`, with other leases
  have hrun := hbody.leased hear w (w.tree.leases.grant host)
  have hrun' := hbody.leased hear w (leases.grant host)
  have hreleased : (leases.grant host).release host = leases := by
    refine Leases.release_grant ?_
    rwa [← Bool.not_eq_true, Leases.isHeld_iff]
  show (_, World.released _ host) = _
  rw [show w.granted host = w.leased (w.tree.leases.grant host) from rfl, hrun,
    show (w.leased leases).granted host = w.leased (leases.grant host) from rfl, hrun']
  simp only [World.leased, World.released, hreleased]

theorem holding_recorded {env : Surroundings σ} {w : World (σ × List (Notice × Tree))}
    {body : Action (σ × List (Notice × Tree)) α} (henv : env.Returning)
    (hbody : Plain calls body) :
    ∃ made, (holding host body env.recorded w).2.outside.2 = w.outside.2 ++ made ∧
      ∀ call ∈ made, calls ∧ call.2.leases = w.tree.leases.grant host := by
  by_cases hheld : host ∈ w.tree.leases.held
  · rw [holding_of_held henv.recorded hheld]
    exact ⟨[], (List.append_nil _).symm, fun _ hcall => absurd hcall List.not_mem_nil⟩
  · rw [holding_of_free henv.recorded hheld]
    obtain ⟨made, hmade, hcalls⟩ :=
      hbody.recorded henv ((env.recorded (.waiting host) w).granted host)
    refine ⟨made, hmade, fun call hcall => ⟨(hcalls call hcall).1, ?_⟩⟩
    rw [(hcalls call hcall).2, World.granted]
    dsimp only
    rw [henv.recorded]

end Holding

namespace Leasing
variable {calls : Prop} {env : Surroundings σ} {act : Action σ α} {w : World σ}
  {ask : Store → Except Error (Option HierarchyId)} {host : HierarchyId}

/-- Questions that fail stop the action. -/
theorem of_error {e : Error} (h : Leasing calls ask act) (hask : ask w.tree.store = .error e) :
    act env w = (.error e, w) := by
  have hresolves := h.resolves w
  rw [hask] at hresolves
  exact hresolves.2 env w.tree.leases

/-- A lease that is held stops the action. -/
theorem of_held (h : Leasing calls ask act) (henv : env.Returning)
    (hask : ask w.tree.store = .ok (some host)) (hheld : host ∈ w.tree.leases.held) :
    act env w =
      (.error (if (env (.waiting host) w).tree.options.lockTimeout.isSome then .lockTimeout host
        else .waitsForever host), env (.waiting host) w) := by
  have hresolves := h.resolves w
  rw [hask] at hresolves
  obtain ⟨body, -, hrun⟩ := hresolves
  exact (hrun env w.tree.leases).trans (holding_of_held henv hheld)

theorem leases (h : Leasing calls ask act) (henv : env.Returning) (w : World σ) :
    (act env w).2.tree.leases = w.tree.leases := by
  have hresolves := h.resolves w
  cases hask : ask w.tree.store with
  | error e => rw [h.of_error hask]
  | ok asked =>
    rw [hask] at hresolves
    cases asked with
    | none =>
      obtain ⟨body, hbody, hrun⟩ := hresolves
      exact (congrArg (·.2.tree.leases) (hrun env w.tree.leases)).trans (hbody.leases henv w)
    | some host =>
      obtain ⟨body, hbody, hrun⟩ := hresolves
      exact (congrArg (·.2.tree.leases) (hrun env w.tree.leases)).trans (holding_leases henv hbody)

/-- The action is refused for no lease but the one that it asks for, and only if that is held. -/
theorem refused (h : Leasing calls ask act) (henv : env.Returning) {e : Error}
    (hresult : (act env w).1 = .error e) (he : e.isRefusal = true) :
    ∃ host, ask w.tree.store = .ok (some host) ∧ host ∈ w.tree.leases.held ∧
      (e = .lockTimeout host ∨ e = .waitsForever host) := by
  have hresolves := h.resolves w
  cases hask : ask w.tree.store with
  | error e' =>
    rw [hask] at hresolves
    rw [h.of_error hask] at hresult
    cases hresult
    rw [hresolves.1] at he
    cases he
  | ok asked =>
    rw [hask] at hresolves
    cases asked with
    | none =>
      obtain ⟨body, hbody, hrun⟩ := hresolves
      have hbodyResult := (congrArg Prod.fst (hrun env w.tree.leases)).symm.trans hresult
      rw [hbody.unrefused env _ e hbodyResult] at he
      cases he
    | some host =>
      obtain ⟨body, hbody, hrun⟩ := hresolves
      have hbodyResult := (congrArg Prod.fst (hrun env w.tree.leases)).symm.trans hresult
      exact ⟨host, rfl, holding_refused henv hbody hbodyResult he⟩

/-- While observers only listen, leases that the action does not ask for make no difference. -/
theorem leased (h : Leasing calls ask act) (hear : Notice → σ → σ) {leases : Leases}
    (hfree : ∀ host, ask w.tree.store = .ok (some host) →
      host ∉ w.tree.leases.held ∧ host ∉ leases.held) :
    act (Surroundings.listening hear) (w.leased leases) =
      ((act (Surroundings.listening hear) w).1,
        (act (Surroundings.listening hear) w).2.leased leases) := by
  have hresolves := h.resolves w
  cases hask : ask w.tree.store with
  | error e =>
    rw [h.of_error hask]
    exact h.of_error (w := w.leased leases) hask
  | ok asked =>
    rw [hask] at hresolves
    cases asked with
    | none =>
      obtain ⟨body, hbody, hrun⟩ := hresolves
      have hhere : act (Surroundings.listening hear) w = body (Surroundings.listening hear) w :=
        hrun _ w.tree.leases
      rw [hrun, hhere]
      exact hbody.leased hear w leases
    | some host =>
      obtain ⟨body, hbody, hrun⟩ := hresolves
      have hhere : act (Surroundings.listening hear) w =
          holding host body (Surroundings.listening hear) w := hrun _ w.tree.leases
      rw [hrun, hhere]
      exact holding_leased hbody hear (hfree host hask).1 (hfree host hask).2

/-- Observers are called while the leases of the start are held and, where calls under a lease are
allowed, that one. -/
theorem recorded {env : Surroundings σ} {act : Action (σ × List (Notice × Tree)) α}
    (h : Leasing calls ask act) (henv : env.Returning) (w : World (σ × List (Notice × Tree))) :
    ∃ made, (act env.recorded w).2.outside.2 = w.outside.2 ++ made ∧
      ∀ call ∈ made, (ask w.tree.store = .ok none ∧ call.2.leases = w.tree.leases) ∨
        ∃ host, ask w.tree.store = .ok (some host) ∧ calls ∧
          call.2.leases = w.tree.leases.grant host := by
  have hresolves := h.resolves w
  cases hask : ask w.tree.store with
  | error e =>
    rw [h.of_error hask]
    exact ⟨[], (List.append_nil _).symm, fun _ hcall => absurd hcall List.not_mem_nil⟩
  | ok asked =>
    rw [hask] at hresolves
    cases asked with
    | none =>
      obtain ⟨body, hbody, hrun⟩ := hresolves
      obtain ⟨made, hmade, hcalls⟩ := hbody.recorded henv w
      refine ⟨made, ?_, fun call hcall => Or.inl ⟨rfl, (hcalls call hcall).2⟩⟩
      exact (congrArg (·.2.outside.2) (hrun env.recorded w.tree.leases)).trans hmade
    | some host =>
      obtain ⟨body, hbody, hrun⟩ := hresolves
      obtain ⟨made, hmade, hcalls⟩ := @holding_recorded _ _ _ host _ w _ henv hbody
      refine ⟨made, ?_, fun call hcall => Or.inr ⟨host, rfl, hcalls call hcall⟩⟩
      exact (congrArg (·.2.outside.2) (hrun env.recorded w.tree.leases)).trans hmade

end Leasing

end Action
end Inventory
