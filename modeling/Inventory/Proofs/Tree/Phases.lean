import Inventory.Proofs.Attaching
import Inventory.Tree.Basic

/-! # Operations in phases

An operation reads, lets others act, and writes once. Others act before a lease is asked for and
when observers hear of rows that are about to go; at those moments they may move the store along a
given relation. What an operation ensures is stated of its result and of the stores before and
after it, and follows the way in which the operation is put together. -/
namespace Inventory
set_option autoImplicit false
variable {σ α β γ : Type}

/-- The operation failed because others were in its way. -/
def Error.isContention (e : Error) : Prop :=
  e.kind = .conflict ∨ e.kind = .lockTimeout ∨ e.kind = .deadlock

/-- A lease is refused only while somebody else holds it. -/
theorem acquire_isContention {leases : Leases} {hierarchy : HierarchyId} {timeout : Option Nat}
    {e : Error} (h : leases.acquire hierarchy timeout = .error e) : e.isContention := by
  rw [Leases.acquire] at h
  by_cases hheld : leases.isHeld hierarchy = true
  · rw [if_pos hheld] at h
    cases h
    cases timeout with
    | none => exact Or.inr (Or.inr rfl)
    | some _ => exact Or.inr (Or.inl rfl)
  · rw [if_neg hheld] at h
    cases h

/-! ## Free leases -/

theorem Leases.filter_insertId (id : HierarchyId) (held : List HierarchyId) :
    (insertId id held).filter (· != id) = held.filter (· != id) := by
  induction held with
  | nil => simp [insertId]
  | cons first rest ih =>
    rw [insertId]
    by_cases hle : id ≤ first
    · rw [if_pos hle, List.filter_cons, if_neg (by simp)]
    · rw [if_neg hle, List.filter_cons, ih, List.filter_cons]

/-- A lease that was free is free again after it is given back. -/
theorem Leases.release_grant {leases : Leases} {hierarchy : HierarchyId}
    (hfree : leases.isHeld hierarchy = false) :
    (leases.grant hierarchy).release hierarchy = leases := by
  have hnot : hierarchy ∉ leases.held := by
    rw [isHeld, List.contains_eq_mem, decide_eq_false_iff_not] at hfree
    exact hfree
  have hkept : leases.held.filter (· != hierarchy) = leases.held := by
    rw [List.filter_eq_self]
    exact fun other hother => bne_iff_ne.2 fun heq => hnot (heq ▸ hother)
  rw [grant, release, filter_insertId, hkept]

/-- The world after the lease of a hierarchy has been granted. -/
def World.granted (w : World σ) (hierarchy : HierarchyId) : World σ :=
  { w with tree := { w.tree with leases := w.tree.leases.grant hierarchy } }

/-- The world after the lease of a hierarchy has been given back. -/
def World.released (w : World σ) (hierarchy : HierarchyId) : World σ :=
  { w with tree := { w.tree with leases := w.tree.leases.release hierarchy } }

theorem World.released_granted {w : World σ} {hierarchy : HierarchyId}
    (hfree : w.tree.leases.isHeld hierarchy = false) :
    (w.granted hierarchy).released hierarchy = w := by
  rw [granted, released]
  dsimp only
  rw [Leases.release_grant hfree]

/-- The world after observers have been told of rows that are about to go, if there are any. -/
def World.forewarned (w : World σ) (env : Surroundings σ) (hierarchy : HierarchyId)
    (changes : List Change) : World σ :=
  if changes.isEmpty then w else env (.notice ⟨.beforeRemove, hierarchy, changes⟩) w

/-- Once others have acted and the lease is free, the action runs under it. -/
theorem Action.holding_granted {env : Surroundings σ} {w u : World σ} {hierarchy : HierarchyId}
    (hu : env (.waiting hierarchy) w = u) (hfree : u.tree.leases.isHeld hierarchy = false)
    (act : Action σ α) :
    Action.holding hierarchy act env w =
      ((act env (u.granted hierarchy)).1, (act env (u.granted hierarchy)).2.released hierarchy) := by
  rw [holding, hu]
  dsimp only
  rw [Leases.acquire, if_neg (by rw [hfree]; exact Bool.false_ne_true)]
  rfl

/-- The moments between the reads of an operation and its transaction. -/
def Moment.isWindow : Moment → Prop
  | .waiting _ => True
  | .notice n => n.phase = .beforeRemove

/-- The surroundings move the store only in windows, and there along the relation. -/
structure Surroundings.Moves (env : Surroundings σ) (moves : Store → Store → Prop) : Prop where
  refl : ∀ s, moves s s
  trans : ∀ s t u, moves s t → moves t u → moves s u
  window : ∀ m w, m.isWindow → moves w.tree.store (env m w).tree.store
  still : ∀ m w, ¬m.isWindow → (env m w).tree.store = w.tree.store
  options : ∀ m w, (env m w).tree.options = w.tree.options

theorem Surroundings.Moves.forewarned {env : Surroundings σ} {moves : Store → Store → Prop}
    (h : env.Moves moves) (w : World σ) (hierarchy : HierarchyId) (changes : List Change) :
    moves w.tree.store (w.forewarned env hierarchy changes).tree.store ∧
      (w.forewarned env hierarchy changes).tree.options = w.tree.options := by
  rw [World.forewarned]
  by_cases hnone : changes.isEmpty = true
  · rw [if_pos hnone]
    exact ⟨h.refl _, rfl⟩
  · rw [if_neg hnone]
    exact ⟨h.window _ _ rfl, h.options _ _⟩

/-- The surroundings never touch the tree; they only keep notes. -/
def Surroundings.Passive (env : Surroundings σ) : Prop := ∀ m w, (env m w).tree = w.tree

theorem Surroundings.Passive.moves {env : Surroundings σ} (h : env.Passive) : env.Moves Eq where
  refl _ := rfl
  trans _ _ _ := Eq.trans
  window m w _ := (congrArg Tree.store (h m w)).symm
  still m w _ := congrArg Tree.store (h m w)
  options m w := congrArg Tree.options (h m w)

theorem Surroundings.passive_quiet : (Surroundings.quiet : Surroundings σ).Passive := fun _ _ => rfl

/-- Under some options the result and the store after an action are as stated. -/
def Action.Ensures (env : Surroundings σ) (options : Options) (act : Action σ α)
    (post : Store → Except Error α → Store → Prop) : Prop :=
  ∀ w : World σ, w.tree.options = options →
    (act env w).2.tree.options = options ∧
      post w.tree.store (act env w).1 (act env w).2.tree.store

namespace Action
variable {env : Surroundings σ} {moves : Store → Store → Prop} {options : Options}

theorem Ensures.weaken {act : Action σ α} {post post' : Store → Except Error α → Store → Prop}
    (h : Ensures env options act post) (himp : ∀ s r s', post s r s' → post' s r s') :
    Ensures env options act post' := fun w hw => ⟨(h w hw).1, himp _ _ _ (h w hw).2⟩

/-! ## Single steps -/

theorem map_eq (f : α → β) (act : Action σ α) : f <$> act = act >>= fun a => pure (f a) := rfl

theorem bind_of_ok {act : Action σ α} {next : α → Action σ β} {w w' : World σ} {a : α}
    (h : act env w = (.ok a, w')) : (act >>= next) env w = next a env w' := by
  show Action.bind act next env w = _
  rw [Action.bind, h]

theorem bind_of_error {act : Action σ α} {next : α → Action σ β} {w w' : World σ} {e : Error}
    (h : act env w = (.error e, w')) : (act >>= next) env w = (.error e, w') := by
  show Action.bind act next env w = _
  rw [Action.bind, h]

/-- A sequence goes on with the result of its first action, or ends with its error. -/
theorem bind_run_cases (act : Action σ α) (next : α → Action σ β) (env : Surroundings σ)
    (w : World σ) :
    (∃ a w', act env w = (.ok a, w') ∧ (act >>= next) env w = next a env w') ∨
      ∃ e w', act env w = (.error e, w') ∧ (act >>= next) env w = (.error e, w') := by
  cases hrun : act env w with
  | mk result w' =>
    cases result with
    | ok a => exact Or.inl ⟨a, w', rfl, bind_of_ok hrun⟩
    | error e => exact Or.inr ⟨e, w', rfl, bind_of_error hrun⟩

theorem map_run (f : α → β) (act : Action σ α) (env : Surroundings σ) (w : World σ) :
    (f <$> act) env w = (f <$> (act env w).1, (act env w).2) := by
  rw [map_eq]
  rcases bind_run_cases act (fun a => pure (f a)) env w with
    ⟨a, w', hrun, hbind⟩ | ⟨e, w', hrun, hbind⟩
  · rw [hbind, hrun]
    rfl
  · rw [hbind, hrun]
    rfl

theorem map_read (f : α → β) (question : Store → Except Error α) :
    f <$> (read question : Action σ α) = read fun s => f <$> question s := by
  funext env w
  exact map_run f (read question) env w

theorem ensures_pure (a : α) :
    Ensures env options (pure a : Action σ α) fun s r s' => r = .ok a ∧ s' = s :=
  fun _ hw => ⟨hw, rfl, rfl⟩

theorem ensures_lift (result : Except Error α) :
    Ensures env options (lift result : Action σ α) fun s r s' => r = result ∧ s' = s :=
  fun _ hw => ⟨hw, rfl, rfl⟩

theorem ensures_read (question : Store → Except Error α) :
    Ensures env options (read question) fun s r s' => r = question s ∧ s' = s :=
  fun _ hw => ⟨hw, rfl, rfl⟩

theorem ensures_map_read (f : α → β) (question : Store → Except Error α) :
    Ensures env options (f <$> read question) fun s r s' => r = f <$> question s ∧ s' = s := by
  rw [map_read]
  exact ensures_read _

theorem ensures_view (question : Tree → α) :
    Ensures env options (view question) fun s r s' => (∃ a, r = .ok a) ∧ s' = s :=
  fun _ hw => ⟨hw, ⟨_, rfl⟩, rfl⟩

theorem ensures_viewOptions (question : Options → α) :
    Ensures env options (view fun tree => question tree.options) fun s r s' =>
      r = .ok (question options) ∧ s' = s :=
  fun _ hw => ⟨hw, congrArg (Except.ok ∘ question) hw, rfl⟩

theorem write_of_ok {change : Transaction α} {w : World σ} {a : α} {s : Store}
    (h : change w.tree.store = .ok (a, s)) :
    write change env w = (.ok a, { w with tree := { w.tree with store := s } }) := by
  rw [write, h]

theorem write_of_error {change : Transaction α} {w : World σ} {e : Error}
    (h : change w.tree.store = .error e) : write change env w = (.error e, w) := by
  rw [write, h]

theorem ensures_write (change : Transaction α) :
    Ensures env options (write change) fun s r s' =>
      (∃ a, change s = .ok (a, s') ∧ r = .ok a) ∨
        ∃ e, change s = .error e ∧ r = .error e ∧ s' = s := by
  intro w hw
  rw [write]
  cases hc : change w.tree.store with
  | ok result => exact ⟨hw, Or.inl ⟨result.1, hc, rfl⟩⟩
  | error e => exact ⟨hw, Or.inr ⟨e, hc, rfl, rfl⟩⟩

theorem ensures_deferUnless (propagated : Bool) (hierarchy : HierarchyId) :
    Ensures env options (deferUnless propagated hierarchy : Action σ Unit) fun s r s' =>
      r = .ok () ∧ s' = s := by
  intro w hw
  cases propagated with
  | true => exact ⟨hw, rfl, rfl⟩
  | false => exact ⟨hw, rfl, rfl⟩

theorem announce_before_run (env : Surroundings σ) (hierarchy : HierarchyId) (changes : List Change)
    (w : World σ) : announce .beforeRemove hierarchy changes env w =
      (.ok (), w.forewarned env hierarchy changes) := rfl

theorem ensures_announce_before (henv : env.Moves moves) (hierarchy : HierarchyId)
    (changes : List Change) :
    Ensures env options (announce .beforeRemove hierarchy changes) fun s r s' =>
      r = .ok () ∧ moves s s' := by
  intro w hw
  obtain ⟨hmoved, hoptions⟩ := henv.forewarned w hierarchy changes
  rw [announce_before_run]
  exact ⟨hoptions.trans hw, rfl, hmoved⟩

theorem ensures_announce_after (henv : env.Moves moves) (phase : Phase)
    (hphase : phase ≠ .beforeRemove) (hierarchy : HierarchyId) (changes : List Change) :
    Ensures env options (announce phase hierarchy changes) fun s r s' =>
      r = .ok () ∧ s' = s := by
  intro w hw
  rw [announce]
  by_cases h : changes.isEmpty = true
  · rw [if_pos h]
    exact ⟨hw, rfl, rfl⟩
  · rw [if_neg h]
    exact ⟨(henv.options _ _).trans hw, rfl, henv.still _ _ hphase⟩

/-! ## Steps put together -/

theorem Ensures.bind {act : Action σ α} {next : α → Action σ β}
    {post : Store → Except Error α → Store → Prop}
    {post' : α → Store → Except Error β → Store → Prop}
    (h : Ensures env options act post) (hnext : ∀ a, Ensures env options (next a) (post' a)) :
    Ensures env options (act >>= next) fun s r s' =>
      (∃ e, post s (.error e) s' ∧ r = .error e) ∨ ∃ a t, post s (.ok a) t ∧ post' a t r s' := by
  intro w hw
  obtain ⟨ho, hpost⟩ := h w hw
  rcases bind_run_cases act next env w with ⟨a, w', hrun, hbind⟩ | ⟨e, w', hrun, hbind⟩
  · rw [hrun] at ho hpost
    obtain ⟨ho', hpost'⟩ := hnext a w' ho
    rw [hbind]
    exact ⟨ho', Or.inr ⟨a, w'.tree.store, hpost, hpost'⟩⟩
  · rw [hrun] at ho hpost
    rw [hbind]
    exact ⟨ho, Or.inl ⟨e, hpost, rfl⟩⟩

/-- An action followed by one that gives a result and leaves the store alone. -/
theorem Ensures.before {act : Action σ α} {next : α → Action σ β} (result : α → β)
    {post : Store → Except Error α → Store → Prop} (h : Ensures env options act post)
    (hnext : ∀ a, Ensures env options (next a) fun s r s' => r = .ok (result a) ∧ s' = s) :
    Ensures env options (act >>= next) fun s r s' => ∃ first, post s first s' ∧ r = result <$> first := by
  refine (h.bind hnext).weaken fun s r s' hpost => ?_
  rcases hpost with ⟨e, he, hr⟩ | ⟨a, t, ha, hr, rfl⟩
  · exact ⟨.error e, he, hr⟩
  · exact ⟨.ok a, ha, hr⟩

/-- An action after one that leaves the store alone and does not fail. -/
theorem Ensures.after {act : Action σ α} {next : α → Action σ β} (good : α → Prop)
    {post : Store → Except Error β → Store → Prop}
    (h : Ensures env options act fun s r s' => (∃ a, good a ∧ r = .ok a) ∧ s' = s)
    (hnext : ∀ a, good a → Ensures env options (next a) post) :
    Ensures env options (act >>= next) post := by
  intro w hw
  obtain ⟨ho, ⟨a, ha, hr⟩, hs⟩ := h w hw
  cases hrun : act env w with
  | mk result w' =>
    rw [hrun] at ho hr hs
    have hr' : result = .ok a := hr
    subst hr'
    rw [bind_of_ok hrun, ← (hs : w'.tree.store = w.tree.store)]
    exact hnext a ha w' ho

/-- A step that neither fails nor touches the store may stand before anything. -/
theorem ensures_quietly {act : Action σ Unit} {next : Unit → Action σ β}
    {post : Store → Except Error β → Store → Prop}
    (h : Ensures env options act fun s r s' => r = .ok () ∧ s' = s)
    (hnext : Ensures env options (next ()) post) : Ensures env options (act >>= next) post :=
  Ensures.after (fun _ => True) (h.weaken fun _ _ _ hpost => ⟨⟨(), trivial, hpost.1⟩, hpost.2⟩)
    fun _ _ => hnext

theorem ensures_options (question : Options → α) {next : α → Action σ β}
    {post : Store → Except Error β → Store → Prop}
    (h : Ensures env options (next (question options)) post) :
    Ensures env options ((view fun tree => question tree.options) >>= next) post :=
  Ensures.after (· = question options) ((ensures_viewOptions question).weaken fun _ _ _ hpost =>
    ⟨⟨_, rfl, hpost.1⟩, hpost.2⟩) fun _ ha => ha ▸ h

theorem ensures_propagates (batch : Nat) {next : Bool → Action σ β}
    {post : Store → Except Error β → Store → Prop}
    (h : Ensures env options (next (options.propagates batch)) post) :
    Ensures env options (propagates batch >>= next) post :=
  ensures_options (·.propagates batch) h

theorem Ensures.map {act : Action σ α} (f : α → β) {post : Store → Except Error α → Store → Prop}
    (h : Ensures env options act post) :
    Ensures env options (f <$> act) fun s r s' => ∃ first, post s first s' ∧ r = f <$> first :=
  h.before f fun a => ensures_pure (f a)

/-- While a lease is held the action runs; without the lease nothing happens. -/
theorem Ensures.holding (henv : env.Moves moves) (hierarchy : HierarchyId) {act : Action σ α}
    {post : Store → Except Error α → Store → Prop} (h : Ensures env options act post) :
    Ensures env options (holding hierarchy act) fun s r s' =>
      ∃ t, moves s t ∧ ((∃ e, r = .error e ∧ e.isContention ∧ s' = t) ∨ post t r s') := by
  intro w hw
  have hmoved := henv.window (.waiting hierarchy) w trivial
  have hoptions := (henv.options (.waiting hierarchy) w).trans hw
  rw [Action.holding]
  generalize env (.waiting hierarchy) w = w' at hmoved hoptions ⊢
  dsimp only
  cases hlease : w'.tree.leases.acquire hierarchy w'.tree.options.lockTimeout with
  | error e => exact ⟨hoptions, _, hmoved, Or.inl ⟨e, rfl, acquire_isContention hlease, rfl⟩⟩
  | ok leases =>
    obtain ⟨ho, hpost⟩ := h { w' with tree := { w'.tree with leases } } hoptions
    exact ⟨ho, _, hmoved, Or.inr hpost⟩

/-! ## Whole operations -/

/-- Others have moved the store, and then the operation was stopped, by its transaction or for some
other cause, and left it there, or the transaction was carried out. -/
def Ends (stops : Error → Prop) (moves : Store → Store → Prop) (change : Transaction α)
    (result : α → β) (s : Store) (r : Except Error β) (s' : Store) : Prop :=
  ∃ t, moves s t ∧
    ((∃ e, r = .error e ∧ s' = t ∧ (change t = .error e ∨ stops e)) ∨
      ∃ a, change t = .ok (a, s') ∧ r = .ok (result a))

/-- Nothing but the transaction and others in its way stop the operation. -/
abbrev Finishes (moves : Store → Store → Prop) (change : Transaction α) (result : α → β) :=
  Ends Error.isContention moves change result

/-- The operation reads what it needs; if that does not fail, it goes on to its transaction. -/
def Phased (moves : Store → Store → Prop) (question : Store → Except Error γ)
    (change : γ → Transaction α) (result : γ → α → β) (s : Store) (r : Except Error β)
    (s' : Store) : Prop :=
  (∃ e, question s = .error e ∧ r = .error e ∧ s' = s) ∨
    ∃ c, question s = .ok c ∧ Finishes moves (change c) (result c) s r s'

theorem Ends.map {δ : Type} {stops : Error → Prop} {change : Transaction α} {result : α → β}
    (f : β → δ) {s s' : Store} {r : Except Error β} (h : Ends stops moves change result s r s') :
    Ends stops moves change (f ∘ result) s (f <$> r) s' := by
  obtain ⟨t, hmoved, hend⟩ := h
  refine ⟨t, hmoved, ?_⟩
  rcases hend with ⟨e, rfl, hs, hcause⟩ | ⟨a, ha, rfl⟩
  · exact Or.inl ⟨e, rfl, hs, hcause⟩
  · exact Or.inr ⟨a, ha, rfl⟩

theorem Ensures.phased {act : Action σ γ} {next : γ → Action σ β}
    {question : Store → Except Error γ} {change : γ → Transaction α} {result : γ → α → β}
    (h : Ensures env options act fun s r s' => r = question s ∧ s' = s)
    (hnext : ∀ c, Ensures env options (next c) (Finishes moves (change c) (result c))) :
    Ensures env options (act >>= next) (Phased moves question change result) := by
  refine (h.bind hnext).weaken fun s r s' hpost => ?_
  rcases hpost with ⟨e, ⟨he, rfl⟩, hr⟩ | ⟨c, t, ⟨hc, rfl⟩, hfinish⟩
  · exact Or.inl ⟨e, he.symm, hr, rfl⟩
  · exact Or.inr ⟨c, hc.symm, hfinish⟩

/-- The result of an operation in phases may be told in other words. -/
theorem Ensures.reworded {δ : Type} (f : β → δ) {act : Action σ β}
    {question : Store → Except Error γ} {change : γ → Transaction α} {result : γ → α → β}
    (h : Ensures env options act (Phased moves question change result)) :
    Ensures env options (f <$> act) (Phased moves question change fun c => f ∘ result c) := by
  refine (h.map f).weaken fun s r s' hpost => ?_
  obtain ⟨_, hphases, rfl⟩ := hpost
  rcases hphases with ⟨e, he, rfl, hs⟩ | ⟨c, hc, hend⟩
  · exact Or.inl ⟨e, he, rfl, hs⟩
  · exact Or.inr ⟨c, hc, hend.map f⟩

/-- One question after another. -/
theorem Ensures.asks {δ : Type} {act : Action σ γ} {next : γ → Action σ β}
    {question : Store → Except Error γ} {more : γ → Store → Except Error δ}
    (change : γ → δ → Transaction α) (result : γ → δ → α → β)
    (h : Ensures env options act fun s r s' => r = question s ∧ s' = s)
    (hnext : ∀ c, Ensures env options (next c) (Phased moves (more c) (change c) (result c))) :
    Ensures env options (act >>= next)
      (Phased moves (fun s => do let c ← question s; let d ← more c s; return (c, d))
        (fun p => change p.1 p.2) fun p => result p.1 p.2) := by
  refine (h.bind hnext).weaken fun s r s' hpost => ?_
  rcases hpost with ⟨e, ⟨he, rfl⟩, hr⟩ | ⟨c, t, ⟨hc, rfl⟩, ⟨e, he, hr, hs⟩ | ⟨d, hd, hfinish⟩⟩
  · refine Or.inl ⟨e, ?_, hr, rfl⟩
    show (question _ >>= _) = _
    rw [← he]
    rfl
  · refine Or.inl ⟨e, ?_, hr, hs⟩
    show (question _ >>= _) = _
    rw [← hc]
    exact congrArg (· >>= fun d => pure (c, d)) he
  · refine Or.inr ⟨(c, d), ?_, hfinish⟩
    show (question _ >>= _) = _
    rw [← hc]
    exact congrArg (· >>= fun d => pure (c, d)) hd

section Ends
variable {stops : Error → Prop}

/-- A transaction that nothing stands before finds the store as it is. -/
theorem ensures_write_here (change : Transaction α) :
    Ensures env options (write change) (Ends stops Eq change id) := by
  refine (ensures_write change).weaken fun s r s' hpost => ⟨s, rfl, ?_⟩
  rcases hpost with ⟨a, ha, hr⟩ | ⟨e, he, hr, hs⟩
  · exact Or.inr ⟨a, ha, hr⟩
  · exact Or.inl ⟨e, hr, hs, Or.inl he⟩

/-- Others need not have acted. -/
theorem Ensures.of_here (henv : env.Moves moves) {act : Action σ β} {change : Transaction α}
    {result : α → β} (h : Ensures env options act (Ends stops Eq change result)) :
    Ensures env options act (Ends stops moves change result) := by
  refine h.weaken fun s r s' hpost => ?_
  obtain ⟨_, rfl, hend⟩ := hpost
  exact ⟨s, henv.refl s, hend⟩

theorem ensures_write_ends (henv : env.Moves moves) (change : Transaction α) :
    Ensures env options (write change) (Ends stops moves change id) :=
  (ensures_write_here change).of_here henv

/-- What follows a transaction reports it and leaves the store alone. -/
theorem Ensures.ends {act : Action σ α} {next : α → Action σ β} {change : Transaction γ}
    {first : γ → α} (result : α → β) (h : Ensures env options act (Ends stops moves change first))
    (hnext : ∀ a, Ensures env options (next a) fun s r s' => r = .ok (result a) ∧ s' = s) :
    Ensures env options (act >>= next) (Ends stops moves change (result ∘ first)) := by
  refine (h.before result hnext).weaken fun s r s' hpost => ?_
  obtain ⟨_, hend, rfl⟩ := hpost
  exact hend.map result

/-- Others may act before the rest of an operation. -/
theorem Ensures.moved (henv : env.Moves moves) {act : Action σ Unit} {next : Unit → Action σ β}
    {change : Transaction α} {result : α → β}
    (h : Ensures env options act fun s r s' => r = .ok () ∧ moves s s')
    (hnext : ∀ u, Ensures env options (next u) (Ends stops moves change result)) :
    Ensures env options (act >>= next) (Ends stops moves change result) := by
  refine (h.bind hnext).weaken fun s r s' hpost => ?_
  rcases hpost with ⟨e, ⟨he, -⟩, -⟩ | ⟨_, t, ⟨-, hmoved⟩, u, hmoved', hend⟩
  · cases he
  · exact ⟨u, henv.trans _ _ _ hmoved hmoved', hend⟩

end Ends

theorem Ensures.held (henv : env.Moves moves) (hierarchy : HierarchyId) {act : Action σ β}
    {change : Transaction α} {result : α → β}
    (h : Ensures env options act (Finishes moves change result)) :
    Ensures env options (Action.holding hierarchy act) (Finishes moves change result) := by
  refine (h.holding henv hierarchy).weaken fun s r s' hpost => ?_
  rcases hpost with ⟨t, hmoved, ⟨e, hr, hcause, hs⟩ | ⟨u, hmoved', hend⟩⟩
  · exact ⟨t, hmoved, Or.inl ⟨e, hr, hs, Or.inr hcause⟩⟩
  · exact ⟨u, henv.trans _ _ _ hmoved hmoved', hend⟩

end Action
end Inventory
