import Inventory.Proofs.Store.Exchange
import Inventory.Proofs.Tree.Refusals

/-! # What observers are told

An observer that writes down what it hears gets, from an operation that succeeds, the rows that are
about to go, the rows that have gone and the rows that have come, in this order. The first two are
the same rows, although they are read at different moments, and the last two are what the
transaction has done. -/
namespace Inventory
set_option autoImplicit false
variable {α β γ : Type}

/-- The notices of some changes; no changes are no notice. -/
def told (phase : Phase) (host : HierarchyId) (changes : List Change) : List Notice :=
  if changes.isEmpty then [] else [⟨phase, host, changes⟩]

theorem phase_of_told {phase : Phase} {host : HierarchyId} {changes : List Change} {n : Notice}
    (h : n ∈ told phase host changes) : n = ⟨phase, host, changes⟩ ∧ changes ≠ [] := by
  cases changes with
  | nil => exact absurd h List.not_mem_nil
  | cons _ _ => exact ⟨List.mem_singleton.1 h, List.cons_ne_nil _ _⟩

/-! ## Steps put together -/

namespace Action

/-- If the action succeeds, a journal has got some more notices, which relate as stated to the
stores before and after and to the result. -/
def Tells (act : Action (List Notice) α) (post : Store → α → List Notice → Store → Prop) : Prop :=
  ∀ (w : World (List Notice)) (a : α), (act Surroundings.journal w).1 = .ok a →
    ∃ said, (act Surroundings.journal w).2.outside = w.outside ++ said ∧
      post w.tree.store a said (act Surroundings.journal w).2.tree.store

section Rules
variable {post : Store → β → List Notice → Store → Prop}

theorem tells_pure {b : β} (h : ∀ s, post s b [] s) : Tells (pure b) post := by
  intro w b' hb
  cases hb
  exact ⟨[], (List.append_nil _).symm, h _⟩

theorem tells_question (question : Tree → Except Error α) {act : Action (List Notice) α}
    {next : α → Action (List Notice) β}
    (hact : ∀ w, act Surroundings.journal w = (question w.tree, w))
    (hnext : ∀ a, Tells (next a) fun s b said s' =>
      (∃ tree : Tree, tree.store = s ∧ question tree = .ok a) → post s b said s') :
    Tells (act >>= next) post := by
  intro w b hb
  cases hask : question w.tree with
  | ok a =>
    have hrun := hact w
    rw [hask] at hrun
    rw [bind_of_ok hrun] at hb ⊢
    obtain ⟨said, hsaid, hpost⟩ := hnext a w b hb
    exact ⟨said, hsaid, hpost ⟨w.tree, rfl, hask⟩⟩
  | error e =>
    have hrun := hact w
    rw [hask] at hrun
    rw [bind_of_error hrun] at hb
    cases hb

theorem tells_read_bind {question : Store → Except Error α} {next : α → Action (List Notice) β}
    (hnext : ∀ a, Tells (next a) fun s b said s' => question s = .ok a → post s b said s') :
    Tells (read question >>= next) post := by
  refine tells_question (fun tree => question tree.store) (fun _ => rfl) fun a w b hb => ?_
  obtain ⟨said, hsaid, hpost⟩ := hnext a w b hb
  refine ⟨said, hsaid, ?_⟩
  rintro ⟨tree, hstore, hask⟩
  exact hpost (hstore ▸ hask)

theorem tells_lift_bind {x : Except Error α} {next : α → Action (List Notice) β}
    (hnext : ∀ a, Tells (next a) post) : Tells (lift x >>= next) post :=
  tells_question (fun _ => x) (fun _ => rfl) fun a w b hb =>
    (hnext a w b hb).imp fun _ h => ⟨h.1, fun _ => h.2⟩

theorem tells_view_bind {question : Tree → α} {next : α → Action (List Notice) β}
    (hnext : ∀ a, Tells (next a) post) : Tells (view question >>= next) post := fun w b hb =>
  hnext (question w.tree) w b hb

theorem tells_announce_bind {phase : Phase} {host : HierarchyId} {changes : List Change}
    {next : Unit → Action (List Notice) β}
    (hnext : Tells (next ()) fun s b said s' => post s b (told phase host changes ++ said) s') :
    Tells (announce phase host changes >>= next) post := by
  intro w b hb
  have hrun : announce phase host changes Surroundings.journal w =
      (.ok (), { w with outside := w.outside ++ told phase host changes }) := by
    rw [announce, told]
    by_cases hnone : changes.isEmpty = true
    · rw [if_pos hnone, if_pos hnone, List.append_nil]
    · rw [if_neg hnone, if_neg hnone]
      rfl
  rw [bind_of_ok hrun] at hb ⊢
  obtain ⟨said, hsaid, hpost⟩ := hnext _ b hb
  exact ⟨told phase host changes ++ said, by rw [hsaid, List.append_assoc], hpost⟩

theorem tells_announce {phase : Phase} {host : HierarchyId} {changes : List Change}
    {post : Store → Unit → List Notice → Store → Prop}
    (h : ∀ s, post s () (told phase host changes) s) :
    Tells (announce phase host changes) post := by
  have hbind : Tells (announce phase host changes >>= pure) post := by
    refine tells_announce_bind (tells_pure fun s => ?_)
    rw [List.append_nil]
    exact h s
  exact hbind

theorem tells_write_bind {change : Transaction α} {next : α → Action (List Notice) β}
    (hnext : ∀ a, Tells (next a) fun t b said s' => ∀ s, change s = .ok (a, t) → post s b said s') :
    Tells (write change >>= next) post := by
  intro w b hb
  cases hrun : change w.tree.store with
  | ok r =>
    rw [bind_of_ok (write_of_ok hrun)] at hb ⊢
    obtain ⟨said, hsaid, hpost⟩ := hnext r.1 _ b hb
    exact ⟨said, hsaid, hpost _ hrun⟩
  | error e =>
    rw [bind_of_error (write_of_error hrun)] at hb
    cases hb

theorem tells_defer_bind {propagated : Bool} {host : HierarchyId}
    {next : Unit → Action (List Notice) β} (hnext : Tells (next ()) post) :
    Tells (deferUnless propagated host >>= next) post := by
  cases propagated with
  | true => exact fun w => hnext w
  | false => exact fun w => hnext _

theorem tells_error (e : Error) : Tells (lift (.error e)) post := by
  intro w b hb
  cases hb

theorem tells_ite {p : Prop} [Decidable p] {first second : Action (List Notice) β}
    (h : Tells first post) (h' : Tells second post) :
    Tells (if p then first else second) post := by
  by_cases hp : p
  · rwa [if_pos hp]
  · rwa [if_neg hp]

theorem Tells.map {act : Action (List Notice) α} (f : α → β)
    (h : Tells act fun s a said s' => post s (f a) said s') : Tells (f <$> act) post := by
  intro w b hb
  rw [map_run] at hb ⊢
  obtain ⟨a, ha, rfl⟩ := map_eq_ok.1 hb
  exact h w a ha

/-- The lease does not matter to what is told. -/
theorem Tells.holding {act : Action (List Notice) β} (h : Tells act post) (host : HierarchyId) :
    Tells (holding host act) post := by
  intro w b hb
  cases hheld : w.tree.leases.isHeld host with
  | true =>
    rw [Action.holding] at hb
    dsimp only [Surroundings.journal] at hb
    rw [Leases.acquire, if_pos hheld] at hb
    cases hb
  | false =>
    rw [holding_granted (u := w) rfl hheld] at hb ⊢
    exact h (w.granted host) b hb

end Rules
end Action

/-! ## Operations -/

/-- The notices of an operation are those of rows that go and of rows that come, and the attachments
have been changed accordingly. -/
def Store.Reports (s : Store) (said : List Notice) (s' : Store) : Prop :=
  ∃ (host : HierarchyId) (planned gone come : List Change),
    said = told .beforeRemove host planned ++ told .afterRemove host gone ++
        told .afterAdd host come ∧
      (planned = [] → gone = []) ∧ (Change.rows planned).Perm (Change.rows gone) ∧
      Exchanged (Change.rows gone) (Change.rows come) s s'

namespace Store
variable {s s' : Store}

theorem reports_nothing (h : s'.relation = s.relation) : s.Reports [] s' :=
  ⟨0, [], [], [], rfl, fun _ => rfl, .refl _, exchanged_nothing h⟩

theorem reports_exchange {host : HierarchyId} (planned gone come : List Change)
    (hempty : planned = [] → gone = []) (hrows : (Change.rows planned).Perm (Change.rows gone))
    (h : Exchanged (Change.rows gone) (Change.rows come) s s') :
    s.Reports (told .beforeRemove host planned ++
      (told .afterRemove host gone ++ (told .afterAdd host come ++ []))) s' :=
  ⟨host, planned, gone, come, by rw [List.append_nil, List.append_assoc], hempty, hrows, h⟩

theorem reports_come {host : HierarchyId} {come : List Change}
    (h : Exchanged [] (Change.rows come) s s') : s.Reports (told .afterAdd host come ++ []) s' :=
  reports_exchange [] [] come (fun _ => rfl) (.refl _) h

end Store

namespace Tree
open Inventory.Action Store

/-- What an operation that succeeds on a sound store tells. -/
abbrev Told (act : Action (List Notice) α) : Prop :=
  Tells act fun s _ said s' => s.Sound → s.Reports said s'

theorem told_createAsset (host : HierarchyId) (name : String) (nodes : List NodeId) :
    Told (createAsset host name nodes) := by
  refine tells_lift_bind fun name => tells_view_bind fun p => tells_write_bind fun made => ?_
  refine tells_defer_bind (tells_announce_bind (tells_pure fun t s hrun hs => reports_come ?_))
  obtain ⟨-, -, -, -, -, hattached⟩ := createAsset_eq_ok hs.toSteady hrun
  rw [Change.rows_singleton]
  exact hattached.exchanged.congr rfl

theorem told_attach (node : NodeId) (assets : List AssetId) : Told (attach node assets) := by
  refine tells_ite (tells_pure fun s _ => reports_nothing rfl) ?_
  refine tells_view_bind fun p => tells_write_bind fun made => ?_
  refine tells_defer_bind (tells_announce_bind (tells_pure fun t s hrun hs => reports_come ?_))
  obtain ⟨hattached, hchanges, -⟩ := attachAll_eq_ok hs.formed hrun
  rw [hchanges, Change.rows_perAsset]
  exact hattached.exchanged

theorem told_attachToNodes (asset : AssetId) (nodes : List NodeId) :
    Told (attachToNodes asset nodes) := by
  refine tells_ite (tells_pure fun s _ => reports_nothing rfl) ?_
  refine tells_view_bind fun p => tells_write_bind fun made => ?_
  refine tells_defer_bind (tells_announce_bind (tells_pure fun t s hrun hs => reports_come ?_))
  obtain ⟨fresh, -, hattached, hchanges, -⟩ := attachToAll_eq_ok hs.formed hrun
  rw [hchanges, Change.rows_perNode]
  exact hattached.exchanged

theorem told_deleteAsset (id : AssetId) : Told (deleteAsset id) := by
  refine tells_read_bind fun found => tells_announce_bind (tells_view_bind fun options => ?_)
  refine tells_write_bind fun removed => tells_defer_bind ?_
  refine tells_announce fun t s hrun hfound hs => ?_
  obtain ⟨asset, hasset, hrest⟩ := bind_eq_ok.1 hfound
  cases hrest
  obtain ⟨hknown, rfl⟩ := requireAsset_eq_ok hasset
  obtain ⟨hperm, hexchanged⟩ := removeAsset_exchanged hs hknown hrun
  rw [← List.append_nil (told .afterRemove _ _)]
  refine reports_exchange _ _ [] (fun hnone => absurd hnone (List.cons_ne_nil _ _)) ?_ ?_
  · exact (hperm.symm.map _).append_right []
  · rw [Change.rows_singleton]
    exact hexchanged

/-- The rows that are planned to go are those of the batch that are there, in the order of the
caller, and so are those that go. -/
theorem told_detach (node : NodeId) (assets : List AssetId) : Told (detach node assets) := by
  refine tells_ite (tells_pure fun s _ => reports_nothing rfl) ?_
  refine tells_read_bind fun found => tells_announce_bind (tells_view_bind fun p => ?_)
  refine tells_write_bind fun outcome => tells_defer_bind (tells_announce_bind ?_)
  refine tells_announce_bind (tells_pure fun t s hrun hfound hs => ?_)
  obtain ⟨place, hplace, hrest⟩ := bind_eq_ok.1 hfound
  cases hrest
  obtain ⟨hdetached, hchanges, -⟩ := detachAll_eq_ok hs.formed hrun
  rw [eraseDups_of_nodup (nodup_eraseDups assets)] at hchanges hdetached
  rw [hchanges]
  refine reports_exchange _ _ _ id (.refl _) ?_
  rw [Change.rows_perAsset]
  exact hdetached.exchanged (nodup_links (nodup_fresh assets _) node)

theorem told_detachFromNodes (asset : AssetId) (nodes : List NodeId) :
    Told (detachFromNodes asset nodes) := by
  refine tells_ite (tells_pure fun s _ => reports_nothing rfl) ?_
  refine tells_read_bind fun found => tells_announce_bind (tells_view_bind fun p => ?_)
  refine tells_write_bind fun outcome => tells_defer_bind (tells_announce_bind ?_)
  refine tells_announce_bind (tells_pure fun t s hrun hfound hs => ?_)
  obtain ⟨owner, howner, hrest⟩ := bind_eq_ok.1 hfound
  cases hrest
  obtain ⟨gone, hmem, hn, -, hdetached, hchanges⟩ := detachFromAll_eq_ok hs.formed hrun
  have hperm : (nodes.eraseDups.filter ((s.nodesOfAsset asset).contains ·)).Perm gone := by
    refine (List.perm_ext_iff_of_nodup ((nodup_eraseDups nodes).filter _) hn).2 fun node => ?_
    rw [hmem, List.mem_filter, List.contains_iff_mem, mem_nodesOfAsset]
  rw [hchanges]
  refine reports_exchange _ _ _ (fun hnone => ?_) ?_ ?_
  · rw [Change.perNode_eq_nil] at hnone ⊢
    exact List.perm_nil.1 (hnone ▸ hperm.symm)
  · rw [Change.rows_perNode, Change.rows_perNode]
    exact hperm.map _
  · rw [Change.rows_perNode]
    exact hdetached.exchanged (hn.map fun _ _ heq => (Prod.mk.inj heq).2)

/-- The batch is read again under the lease, and is then what it was when the call started. -/
theorem told_reassign (assets : List AssetId) (target : NodeId) :
    Told (reassign assets target) := by
  refine tells_question (fun tree => (·.hierarchy) <$> tree.store.requireNode target)
    (fun w => map_run _ _ _ w) fun host => ?_
  refine tells_ite (tells_pure fun s _ _ => reports_nothing rfl) ?_
  refine tells_read_bind fun observed => Tells.holding ?_ host
  rw [moveObserved_eq]
  refine tells_read_bind fun snapshot => tells_ite ?_ (tells_error _)
  refine tells_announce_bind (tells_view_bind fun p => tells_write_bind fun added => ?_)
  refine tells_announce_bind (tells_announce_bind (tells_defer_bind ?_))
  refine tells_pure fun t s hrun _ hobserved hhost hs => reports_exchange _ _ _ id (.refl _) ?_
  obtain ⟨tree, rfl, hhost⟩ := hhost
  have hfound : observe assets.eraseDups target tree.store = .ok (host, observed) :=
    bind_eq_ok.2 ⟨host, hhost, bind_eq_ok.2 ⟨observed, hobserved, rfl⟩⟩
  rw [Change.rows_perAsset]
  exact (move_exchanged hs hfound hrun).perm (Change.rows_group observed)

end Tree

/-! ## Operations that tell nothing -/

namespace Action

/-- A journal gets no notice, whether or not the action succeeds. -/
def Silent (act : Action (List Notice) α) : Prop :=
  ∀ w : World (List Notice), (act Surroundings.journal w).2.outside = w.outside

theorem silent_read (question : Store → Except Error α) : Silent (read question) := fun _ => rfl

theorem silent_lift (x : Except Error α) : Silent (lift x) := fun _ => rfl

theorem silent_view (question : Tree → α) : Silent (view question) := fun _ => rfl

theorem silent_write (change : Transaction α) : Silent (write change) := by
  intro w
  rw [write]
  cases change w.tree.store <;> rfl

theorem Silent.map {act : Action (List Notice) α} (f : α → β) (h : Silent act) :
    Silent (f <$> act) := by
  intro w
  rw [map_run]
  exact h w

theorem Silent.bind {act : Action (List Notice) α} {next : α → Action (List Notice) β}
    (h : Silent act) (hnext : ∀ a, Silent (next a)) : Silent (act >>= next) := by
  intro w
  have hfirst := h w
  cases hrun : act Surroundings.journal w with
  | mk result u =>
    rw [hrun] at hfirst
    cases result with
    | ok a =>
      rw [bind_of_ok hrun]
      exact (hnext a u).trans hfirst
    | error e =>
      rw [bind_of_error hrun]
      exact hfirst

theorem Silent.holding {act : Action (List Notice) α} (h : Silent act) (host : HierarchyId) :
    Silent (holding host act) := by
  intro w
  cases hheld : w.tree.leases.isHeld host with
  | true =>
    rw [Action.holding]
    dsimp only [Surroundings.journal]
    rw [Leases.acquire, if_pos hheld]
  | false =>
    rw [holding_granted (u := w) rfl hheld]
    exact h (w.granted host)

end Action

namespace Tree
open Inventory.Action

theorem silent_reconcile (host : HierarchyId) (mode : Mode) : Silent (reconcile host mode) := by
  refine ((silent_read _).map _).bind fun _ => ?_
  cases mode with
  | repair => exact (silent_write _).holding host
  | checkOnly => exact silent_read _

theorem silent_runJobs (jobs : List HierarchyId) : Silent (runJobs jobs) := by
  induction jobs with
  | nil => exact fun _ => rfl
  | cons host rest ih =>
    intro w
    rw [runJobs_cons, ih]
    exact silent_reconcile host .repair w

theorem silent_flush : Silent flush :=
  Silent.bind (fun _ => rfl) fun _ => (silent_view _).bind fun jobs =>
    (silent_runJobs jobs).bind fun _ _ => rfl

end Tree

namespace Request
open Inventory.Action

theorem silent {request : Request} (h : request.isNeutral = true) : Silent request.run := by
  cases request with
  | createHierarchy name =>
    rw [run_createHierarchy]
    exact ((silent_lift _).bind fun name => silent_write _).map _
  | createChild parent value =>
    exact (((silent_read _).map _).bind fun host => (silent_view _).bind fun preset =>
      (silent_write _).holding host).map _
  | getOrCreateChild parent value =>
    rw [run_getOrCreateChild]
    exact ((silent_lift _).bind fun value => ((silent_read _).map _).bind fun host =>
      (silent_write _).holding host).map _
  | createPath host path => exact ((silent_write _).holding host).map _
  | deleteNode id =>
    exact (((silent_read _).map _).bind fun host => (silent_write _).holding host).map _
  | reconcile host => exact (Tree.silent_reconcile host .repair).map _
  | check host => exact (Tree.silent_reconcile host .checkOnly).map _
  | flush => exact Tree.silent_flush.map _
  | createAsset | deleteAsset | attach | detach | attachToNodes | detachFromNodes
  | reassign => cases h
  | root | node | nodeByKey | children | nodes | subtreeCount | nodeAssetIds | assetsUnder
  | computedCounts => exact (silent_read _).map _
  | _ => exact fun _ => rfl

/-- What a request that succeeds on a sound store tells. -/
theorem told (request : Request) :
    Tells request.run fun s _ said s' => s.Sound → s.Reports said s' := by
  cases hneutral : request.isNeutral with
  | true =>
    intro w answer hanswer
    refine ⟨[], by rw [silent hneutral w, List.append_nil], fun hs => Store.reports_nothing ?_⟩
    have heffect := (ensures_effect Surroundings.passive_journal request w rfl).2 hs
    rw [(heffect.refines answer hanswer).relation, (neutral hneutral).gone, (neutral hneutral).come,
      Set.union_empty, Set.sdiff_empty]
  | false =>
    cases request with
    | createAsset host name places => exact (Tree.told_createAsset host name places).map _
    | deleteAsset id => exact (Tree.told_deleteAsset id).map _
    | attach place batch => exact (Tree.told_attach place batch).map _
    | detach place batch => exact (Tree.told_detach place batch).map _
    | attachToNodes id places => exact (Tree.told_attachToNodes id places).map _
    | detachFromNodes id places => exact (Tree.told_detachFromNodes id places).map _
    | reassign batch target => exact (Tree.told_reassign batch target).map _
    | _ => cases hneutral

end Request
end Inventory
