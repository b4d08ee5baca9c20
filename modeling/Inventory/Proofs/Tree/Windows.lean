import Inventory.Proofs.Tree.Operations

/-! # The store that a transaction finds

Between the reads of an operation and its transaction others may act, in one window or in two. The
surroundings can be made to keep the store that they leave at each window. The operation does not
notice, and what they have kept in the end is the store that its transaction has found. -/
namespace Inventory
set_option autoImplicit false
variable {σ α β γ : Type}

/-- The world with a store that is kept beside. -/
def World.keeping (w : World σ) (t : Store) : World (σ × Store) := ⟨w.tree, w.outside, t⟩

instance : DecidablePred Moment.isWindow
  | .waiting _ => inferInstanceAs (Decidable True)
  | .notice n => inferInstanceAs (Decidable (n.phase = .beforeRemove))

/-- The surroundings also keep the store that they leave at a window. -/
def Surroundings.keeping (env : Surroundings σ) : Surroundings (σ × Store) := fun m w =>
  let after := env m ⟨w.tree, w.outside.1⟩
  after.keeping (if m.isWindow then after.tree.store else w.outside.2)

section
variable (env : Surroundings σ) (w : World σ) (t : Store)

theorem Surroundings.keeping_waiting (hierarchy : HierarchyId) :
    env.keeping (.waiting hierarchy) (w.keeping t) =
      (env (.waiting hierarchy) w).keeping (env (.waiting hierarchy) w).tree.store := rfl

theorem World.keeping_forewarned (hierarchy : HierarchyId) (changes : List Change) :
    (w.keeping w.tree.store).forewarned env.keeping hierarchy changes =
      (w.forewarned env hierarchy changes).keeping
        (w.forewarned env hierarchy changes).tree.store := by
  rw [World.forewarned, World.forewarned]
  by_cases hnone : changes.isEmpty = true
  · rw [if_pos hnone, if_pos hnone]
  · rw [if_neg hnone, if_neg hnone]
    rfl

end

namespace Action

/-! ## Actions without a window -/

/-- The action has no window, so that the surroundings keep what they have kept. -/
def Windowless (act : (σ : Type) → Action σ α) : Prop :=
  ∀ (σ : Type) (env : Surroundings σ) (w : World σ) (t : Store),
    act (σ × Store) env.keeping (w.keeping t) = ((act σ env w).1, (act σ env w).2.keeping t)

theorem Windowless.bind {act : (σ : Type) → Action σ α} {next : (σ : Type) → α → Action σ β}
    (h : Windowless act) (hnext : ∀ a, Windowless fun σ => next σ a) :
    Windowless fun σ => act σ >>= next σ := by
  intro σ env w t
  beta_reduce
  have hact := h σ env w t
  rcases bind_run_cases (act σ) (next σ) env w with ⟨a, w', hrun, hbind⟩ | ⟨e, w', hrun, hbind⟩
  · rw [hrun] at hact
    rw [hbind, bind_of_ok hact]
    exact hnext a σ env w' t
  · rw [hrun] at hact
    rw [hbind, bind_of_error hact]

theorem windowless_pure (a : α) : Windowless fun _ => pure a := fun _ _ _ _ => rfl

theorem windowless_view (question : Tree → α) : Windowless fun _ => view question :=
  fun _ _ _ _ => rfl

theorem windowless_write (change : Transaction α) : Windowless fun _ => write change := by
  intro σ env w t
  beta_reduce
  cases hchange : change w.tree.store with
  | ok made =>
    rw [write_of_ok hchange]
    exact write_of_ok (w := w.keeping t) hchange
  | error e =>
    rw [write_of_error hchange]
    exact write_of_error (w := w.keeping t) hchange

theorem windowless_deferUnless (propagated : Bool) (hierarchy : HierarchyId) :
    Windowless fun _ => deferUnless propagated hierarchy := by
  intro σ env w t
  beta_reduce
  cases propagated with
  | true => rfl
  | false => rfl

theorem windowless_announce {phase : Phase} (hphase : phase ≠ .beforeRemove)
    (hierarchy : HierarchyId) (changes : List Change) :
    Windowless fun _ => announce phase hierarchy changes := by
  intro σ env w t
  beta_reduce
  rw [announce, announce]
  by_cases hnone : changes.isEmpty = true
  · rw [if_pos hnone, if_pos hnone]
  · have hstill : ¬(Moment.notice ⟨phase, hierarchy, changes⟩).isWindow := hphase
    rw [if_neg hnone, if_neg hnone, Surroundings.keeping, if_neg hstill]
    rfl

/-! ## Up to the transaction -/

/-- The action does not notice that the surroundings keep stores. Others have moved the store to the
one that is kept in the end, and the action has left that as it is, or carried out its transaction
on it. What this makes is said of the stores at the start, in the middle and at the end. -/
def Lands (env : Surroundings σ) (options : Options) (moves : Store → Store → Prop)
    (act : (σ : Type) → Action σ α) (post : Store → Store → Store → Prop) : Prop :=
  ∀ w : World σ, w.tree.options = options → ∃ t,
    act (σ × Store) env.keeping (w.keeping w.tree.store) =
        ((act σ env w).1, (act σ env w).2.keeping t) ∧
      moves w.tree.store t ∧
      ((act σ env w).2.tree.store = t ∨ post w.tree.store t (act σ env w).2.tree.store)

section Lands
variable {env : Surroundings σ} {options : Options} {moves : Store → Store → Prop}
  {post post' : Store → Store → Store → Prop} {act : (σ : Type) → Action σ α}

theorem Lands.weaken (h : Lands env options moves act post)
    (himp : ∀ s t s', post s t s' → post' s t s') : Lands env options moves act post' := by
  intro w hw
  obtain ⟨t, hrun, hmoved, hend⟩ := h w hw
  exact ⟨t, hrun, hmoved, hend.imp_right (himp _ _ _)⟩

theorem lands_pure (henv : env.Moves moves) (a : α) :
    Lands env options moves (fun _ => pure a) post :=
  fun w _ => ⟨w.tree.store, rfl, henv.refl _, Or.inl rfl⟩

/-- Without a window the transaction finds the store that is there. -/
theorem lands_of_windowless (henv : env.Moves moves) (hact : Windowless act)
    {change : Transaction γ} {result : γ → α}
    (h : Ensures env options (act σ) (Finishes Eq change result)) :
    Lands env options moves act fun _ t s' => ∃ a, change t = .ok (a, s') := by
  intro w hw
  obtain ⟨t, rfl, hend⟩ := (h w hw).2
  refine ⟨w.tree.store, hact σ env w _, henv.refl _, ?_⟩
  rcases hend with ⟨_, -, hs, -⟩ | ⟨a, ha, -⟩
  · exact Or.inl hs
  · exact Or.inr ⟨a, ha⟩

theorem Lands.map (f : α → β) (h : Lands env options moves act post) :
    Lands env options moves (fun σ => f <$> act σ) post := by
  intro w hw
  beta_reduce
  obtain ⟨t, hrun, hmoved, hend⟩ := h w hw
  refine ⟨t, ?_, hmoved, ?_⟩
  · rw [map_run, map_run, hrun]
  · rw [map_run]
    exact hend

theorem Lands.asks (henv : env.Moves moves) {question : Store → Except Error γ}
    {next : (σ : Type) → γ → Action σ α} {post : γ → Store → Store → Store → Prop}
    (h : ∀ c, Lands env options moves (fun σ => next σ c) (post c)) :
    Lands env options moves (fun σ => read question >>= next σ) fun s t s' =>
      ∃ c, question s = .ok c ∧ post c s t s' := by
  intro w hw
  beta_reduce
  have hread : ∀ {τ : Type} (env : Surroundings τ) (u : World τ), u.tree.store = w.tree.store →
      read question env u = (question w.tree.store, u) := fun _ _ hu => by rw [read, hu]
  cases hc : question w.tree.store with
  | error e =>
    rw [hc] at hread
    rw [bind_of_error (hread env w rfl), bind_of_error (hread env.keeping (w.keeping _) rfl)]
    exact ⟨w.tree.store, rfl, henv.refl _, Or.inl rfl⟩
  | ok c =>
    rw [hc] at hread
    rw [bind_of_ok (hread env w rfl), bind_of_ok (hread env.keeping (w.keeping _) rfl)]
    obtain ⟨t, hrun, hmoved, hend⟩ := h c w hw
    exact ⟨t, hrun, hmoved, hend.imp_right fun hpost => ⟨c, rfl, hpost⟩⟩

/-- What is said of the rest need not say what was read. -/
theorem Lands.asked (henv : env.Moves moves) {question : Store → Except Error γ}
    {next : (σ : Type) → γ → Action σ α}
    (h : ∀ c, Lands env options moves (fun σ => next σ c) post) :
    Lands env options moves (fun σ => read question >>= next σ) post :=
  (Lands.asks henv h).weaken fun _ _ _ ⟨_, _, hpost⟩ => hpost

theorem lands_options (question : Options → γ) {next : (σ : Type) → γ → Action σ α}
    (h : Lands env options moves (fun σ => next σ (question options)) post) :
    Lands env options moves (fun σ => (view fun tree => question tree.options) >>= next σ) post := by
  intro w hw
  beta_reduce
  have hview : ∀ {τ : Type} (env : Surroundings τ) (u : World τ), u.tree = w.tree →
      view (fun tree => question tree.options) env u = (.ok (question options), u) := fun _ _ hu => by
    rw [view, hu, hw]
  rw [bind_of_ok (hview env w rfl), bind_of_ok (hview env.keeping (w.keeping _) rfl)]
  exact h w hw

/-- Observers may act when they are told of rows that are about to go. -/
theorem Lands.announced (henv : env.Moves moves) (hierarchy : HierarchyId) (changes : List Change)
    {next : (σ : Type) → Action σ α} {post : Store → Store → Prop}
    (h : Lands env options moves next fun _ => post) :
    Lands env options moves (fun σ => announce .beforeRemove hierarchy changes >>= fun _ => next σ)
      fun _ => post := by
  intro w hw
  beta_reduce
  obtain ⟨hbefore, hoptions⟩ := henv.forewarned w hierarchy changes
  obtain ⟨t, hrun, hafter, hend⟩ := h (w.forewarned env hierarchy changes) (hoptions.trans hw)
  rw [bind_of_ok (announce_before_run env hierarchy changes w),
    bind_of_ok (announce_before_run env.keeping hierarchy changes (w.keeping _)),
    World.keeping_forewarned]
  exact ⟨t, hrun, henv.trans _ _ _ hbefore hafter, hend⟩

/-- Others may act while the action waits for its lease. -/
theorem Lands.held (henv : env.Moves moves) (hierarchy : HierarchyId) {post : Store → Store → Prop}
    (h : Lands env options moves act fun _ => post) :
    Lands env options moves (fun σ => holding hierarchy (act σ)) fun _ => post := by
  intro w hw
  beta_reduce
  have hbefore := henv.window (.waiting hierarchy) w trivial
  have hoptions := (henv.options (.waiting hierarchy) w).trans hw
  rw [holding, holding, Surroundings.keeping_waiting]
  generalize env (.waiting hierarchy) w = u at hbefore hoptions ⊢
  dsimp only [World.keeping]
  cases hlease : u.tree.leases.acquire hierarchy u.tree.options.lockTimeout with
  | error e => exact ⟨u.tree.store, rfl, hbefore, Or.inl rfl⟩
  | ok leases =>
    obtain ⟨t, hrun, hafter, hend⟩ := h { u with tree := { u.tree with leases } } hoptions
    dsimp only [World.keeping] at hrun ⊢
    rw [hrun]
    exact ⟨t, rfl, henv.trans _ _ _ hbefore hafter, hend⟩

theorem lands_write (henv : env.Moves moves) (change : Transaction α) :
    Lands env options moves (fun _ => write change) fun _ t s' => ∃ a, change t = .ok (a, s') :=
  lands_of_windowless henv (windowless_write change) (ensures_write_here change)

end Lands
end Action

/-! ## Operations -/

namespace Tree
open Inventory.Action
variable {env : Surroundings σ} {options : Options} {moves : Store → Store → Prop}

theorem lands_hierarchyOf (henv : env.Moves moves) (id : NodeId)
    {next : (σ : Type) → HierarchyId → Action σ α}
    {post : HierarchyId → Store → Store → Store → Prop}
    (h : ∀ host, Lands env options moves (fun σ => next σ host) (post host)) :
    Lands env options moves (fun σ => hierarchyOf id >>= next σ) fun s t s' =>
      ∃ host, (·.hierarchy) <$> s.requireNode id = .ok host ∧ post host s t s' := by
  simp only [hierarchyOf_eq]
  exact Lands.asks henv h

theorem lands_createChild (henv : env.Moves moves) (parent : NodeId) (value : Option String) :
    Lands env options moves (fun _ => createChild parent value) fun s t s' =>
      ∃ host, (·.hierarchy) <$> s.requireNode parent = .ok host ∧
        ∃ a, Store.createChild host parent value options.newNodeName t = .ok (a, s') :=
  lands_hierarchyOf henv parent fun host =>
    lands_options (·.newNodeName) ((lands_write henv _).held henv host)

theorem lands_deleteNode (henv : env.Moves moves) (id : NodeId) :
    Lands env options moves (fun _ => deleteNode id) fun s t s' =>
      ∃ host, (·.hierarchy) <$> s.requireNode id = .ok host ∧
        ∃ a, Store.removeNode host id t = .ok (a, s') :=
  lands_hierarchyOf henv id fun host => (lands_write henv _).held henv host

theorem windowless_deleteTold (hierarchy : HierarchyId) (id : AssetId) :
    Windowless fun _ => deleteTold hierarchy id :=
  (windowless_view _).bind fun _ => (windowless_write _).bind fun _ =>
    (windowless_deferUnless _ _).bind fun _ => windowless_announce (by decide) _ _

theorem lands_deleteAsset (henv : env.Moves moves) (id : AssetId) :
    Lands env options moves (fun _ => deleteAsset id) fun s t s' =>
      ∃ found, (do return (← s.requireAsset id, s.nodesOfAsset id)) = .ok found ∧
        ∃ a, Store.removeAsset found.1.hierarchy id options.propagates t = .ok (a, s') :=
  Lands.asks henv fun found => Lands.announced henv _ _ <|
    lands_of_windowless henv (windowless_deleteTold found.1.hierarchy id)
      (ensures_deleteTold henv found.1.hierarchy id)

theorem windowless_detachTold (hierarchy : HierarchyId) (batch : Nat)
    (change : Bool → Transaction Outcome) :
    Windowless fun _ => detachTold hierarchy batch change :=
  (windowless_view _).bind fun _ => (windowless_write _).bind fun _ =>
    (windowless_deferUnless _ _).bind fun _ => (windowless_announce (by decide) _ _).bind fun _ =>
      (windowless_announce (by decide) _ _).bind fun _ => windowless_pure _

theorem lands_detach (henv : env.Moves moves) (node : NodeId) {assets : List AssetId}
    (hne : assets.eraseDups ≠ []) :
    Lands env options moves (fun _ => detach node assets) fun s t s' =>
      ∃ found, (do return ((← s.requireNode node).hierarchy,
        assets.eraseDups.filter (s.isAttached · node))) = .ok found ∧
        ∃ a, Store.detachAll found.1 node assets.eraseDups
          (options.propagates assets.eraseDups.length) t = .ok (a, s') := by
  have hsome : ¬assets.eraseDups.isEmpty = true := by simpa using hne
  simp only [detach, if_neg hsome]
  exact Lands.asks henv fun found => Lands.announced henv _ _ <|
    lands_of_windowless henv (windowless_detachTold found.1 _ _) (ensures_detachTold henv found.1 _ _)

theorem lands_detachFromNodes (henv : env.Moves moves) (asset : AssetId) {nodes : List NodeId}
    (hne : nodes.eraseDups ≠ []) :
    Lands env options moves (fun _ => detachFromNodes asset nodes) fun s t s' =>
      ∃ found, (do return ((← s.requireAsset asset).hierarchy, s.nodesOfAsset asset)) = .ok found ∧
        ∃ a, Store.detachFromAll found.1 asset nodes.eraseDups
          (options.propagates nodes.eraseDups.length) t = .ok (a, s') := by
  have hsome : ¬nodes.eraseDups.isEmpty = true := by simpa using hne
  simp only [detachFromNodes, if_neg hsome]
  exact Lands.asks henv fun found => Lands.announced henv _ _ <|
    lands_of_windowless henv (windowless_detachTold found.1 _ _) (ensures_detachTold henv found.1 _ _)

theorem windowless_moveTold (hierarchy : HierarchyId) (target : NodeId) (assets : List AssetId)
    (observed : List Attachment) :
    Windowless fun _ => moveTold hierarchy target assets observed :=
  (windowless_view _).bind fun _ => (windowless_write _).bind fun _ =>
    (windowless_announce (by decide) _ _).bind fun _ => (windowless_announce (by decide) _ _).bind
      fun _ => (windowless_deferUnless _ _).bind fun _ => windowless_pure _

/-- Under the lease the rows are compared with those seen before; if they differ, nothing more
happens. -/
theorem lands_moveObserved (henv : env.Moves moves) (hierarchy : HierarchyId) (target : NodeId)
    (assets : List AssetId) (observed : List Attachment) :
    Lands env options moves (fun _ => moveObserved hierarchy target assets observed) fun _ t s' =>
      ∃ a, Store.move hierarchy target assets observed
        (options.propagates (observed.length + assets.length)) t = .ok (a, s') := by
  simp only [moveObserved_eq]
  refine Lands.asked henv fun snapshot => ?_
  by_cases hsame : snapshot = observed
  · simp only [if_pos hsame]
    exact Lands.announced henv _ _ <|
      lands_of_windowless henv (windowless_moveTold hierarchy target assets observed)
        (ensures_moveTold henv hierarchy target assets observed)
  · simp only [if_neg hsame]
    exact fun w _ => ⟨w.tree.store, rfl, henv.refl _, Or.inl rfl⟩

theorem lands_reassign_nil (henv : env.Moves moves) (target : NodeId)
    {post : Store → Store → Store → Prop} :
    Lands env options moves (fun _ => reassign [] target) post := by
  simp only [reassign, hierarchyOf_eq]
  exact Lands.asked henv fun _ => lands_pure henv _

theorem lands_reassign (henv : env.Moves moves) {assets : List AssetId} (target : NodeId)
    (hne : assets.eraseDups ≠ []) :
    Lands env options moves (fun _ => reassign assets target) fun s t s' =>
      ∃ found, observe assets.eraseDups target s = .ok found ∧
        ∃ a, Store.move found.1 target assets.eraseDups found.2
          (options.propagates (found.2.length + assets.eraseDups.length)) t = .ok (a, s') := by
  have hsome : ¬assets.eraseDups.isEmpty = true := by simpa using hne
  simp only [reassign, if_neg hsome]
  refine (lands_hierarchyOf henv target fun host => Lands.asks henv fun rows =>
    (lands_moveObserved henv host target assets.eraseDups rows).held henv host).weaken ?_
  rintro s t s' ⟨host, hhost, rows, hrows, hmove⟩
  refine ⟨(host, rows), ?_, hmove⟩
  exact Inventory.bind_eq_ok.2 ⟨host, hhost, Inventory.bind_eq_ok.2 ⟨rows, hrows, rfl⟩⟩

end Tree
end Inventory
