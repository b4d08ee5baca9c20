import Inventory.Proofs.Store.Assets
import Inventory.Proofs.Store.Bare
import Inventory.Tree.Reassigning

/-! # What attaching and repairing leave alone

A transaction on assets, attachments or amounts changes no hierarchy and nothing of a node but its
cached amount; it marks no hierarchy but the one whose amounts it leaves for later, and only if that
exists. This is read off how the transactions are put together and holds of every store. -/
namespace Inventory
set_option autoImplicit false
variable {α β : Type} {s t u : Store}

/-! ## Forests that stay as they are -/

/-- The hierarchy whose job an edit owes if it did not adjust amounts. -/
def owing (propagated : Bool) (hierarchy : HierarchyId) : List HierarchyId :=
  if propagated then [] else [hierarchy]

namespace Store

/-- Nodes are as they were up to their amounts, and new marks are on hierarchies that exist. -/
structure Still (s t : Store) : Prop where
  hierarchies : t.hierarchies = s.hierarchies
  nodes : t.nodes.map NodeRow.bare = s.nodes.map NodeRow.bare
  marked : ∀ h ∈ t.marked, h ∈ s.marked ∨ ∃ host ∈ s.hierarchies, host.id = h

theorem Still.refl (s : Store) : Still s s := ⟨rfl, rfl, fun _ => Or.inl⟩

theorem Still.trans (h : Still s t) (h' : Still t u) : Still s u where
  hierarchies := h'.hierarchies.trans h.hierarchies
  nodes := h'.nodes.trans h.nodes
  marked host hhost := by
    rcases h'.marked host hhost with hmarked | hknown
    · exact h.marked host hmarked
    · rw [h.hierarchies] at hknown
      exact Or.inr hknown

theorem Still.exists_row (h : Still s t) {row : NodeRow} (hrow : row ∈ t.nodes) :
    ∃ old ∈ s.nodes, old.id = row.id ∧ old.hierarchy = row.hierarchy ∧ old.key = row.key ∧
      old.parentKey = row.parentKey ∧ old.value = row.value ∧ old.fullValue = row.fullValue :=
  exists_of_bare h.nodes hrow

theorem Recounted.still (h : Recounted s t) : Still s t := by
  obtain ⟨hbare, hmarked⟩ := h
  obtain ⟨hhosts, hnodes, -, -⟩ := bare_eq_iff.1 hbare
  exact ⟨hhosts, hnodes, fun _ hmark => Or.inl (hmarked ▸ hmark)⟩

/-- Nodes are as they were up to their amounts, new marks are on some of the given hierarchies, which
exist, and no two assets get one id. -/
structure StillBut (owed : List HierarchyId) (s t : Store) : Prop extends Still s t where
  fresh : ∀ h ∈ t.marked, h ∈ s.marked ∨ h ∈ owed
  assetIds : (s.assets.map (·.id)).Nodup → (t.assets.map (·.id)).Nodup

section
variable {owed : List HierarchyId}

instance : Std.Refl (StillBut owed) where
  refl s := ⟨Still.refl s, fun _ => Or.inl, id⟩

instance : IsTrans Store (StillBut owed) where
  trans _ _ _ h h' := ⟨h.toStill.trans h'.toStill, fun host hhost =>
    (h'.fresh host hhost).elim (h.fresh host) Or.inr, h'.assetIds ∘ h.assetIds⟩

/-- Where marks and assets stay as they are, nothing is owed. -/
theorem Still.but (h : Still s t) (hmarked : t.marked = s.marked) (hassets : t.assets = s.assets) :
    StillBut owed s t :=
  ⟨h, fun _ hhost => Or.inl (hmarked ▸ hhost), fun hids => hassets ▸ hids⟩

theorem Recounted.stillBut (h : Recounted s t) : StillBut owed s t :=
  h.still.but h.2 (bare_eq_iff.1 h.1).2.2.1

theorem stillBut_detach (s : Store) (asset : AssetId) (node : NodeId) :
    StillBut owed s (s.detach asset node) := Still.but ⟨rfl, rfl, fun _ => Or.inl⟩ rfl rfl

theorem stillBut_repair (s : Store) (wrong : List Node) (value : Node → Int)
    (hierarchy : HierarchyId) : StillBut owed s ((s.setAmounts wrong value).unmark hierarchy) := by
  have halike := alike_setAmounts s wrong value
  have hmarked : ∀ h ∈ ((s.setAmounts wrong value).unmark hierarchy).marked, h ∈ s.marked := by
    intro h hh
    rw [← setAmounts_marked s wrong value]
    exact List.mem_of_mem_filter hh
  exact ⟨⟨halike.hierarchies, halike.nodes, fun h hh => Or.inl (hmarked h hh)⟩,
    fun h hh => Or.inl (hmarked h hh), fun hids => halike.assets ▸ hids⟩

end

/-- The store after a fold of changes that each lead along the relation. -/
theorem along_foldl {rel : Store → Store → Prop} [Std.Refl rel] [IsTrans Store rel]
    (change : Store → β → Store) (hchange : ∀ s b, rel s (change s b)) (items : List β) (s : Store) :
    rel s (items.foldl change s) := by
  induction items generalizing s with
  | nil => exact refl_of rel s
  | cons item rest ih => exact trans_of rel (hchange s item) (ih _)

end Store

/-! ## Transactions along a relation -/

namespace Transaction
open Store

/-- Where the transaction, carried out on the store, succeeds, it leads along the relation. -/
def Along (rel : Store → Store → Prop) (s : Store) (act : Transaction α) : Prop :=
  ∀ a s', act s = .ok (a, s') → rel s s'

section Along
variable {rel : Store → Store → Prop} [Std.Refl rel] [IsTrans Store rel]

omit [IsTrans Store rel] in
theorem along_pure (a : α) : Along rel s (pure a : Transaction α) := by
  intro b s' h
  cases h
  exact refl_of rel s

omit [Std.Refl rel] [IsTrans Store rel] in
theorem along_throw (e : Error) : Along rel s (throw e : Transaction α) :=
  fun _ _ h => nomatch h

omit [Std.Refl rel] [IsTrans Store rel] in
theorem along_throw_bind (e : Error) {next : α → Transaction β} :
    Along rel s ((throw e : Transaction α) >>= next) := fun _ _ h => nomatch h

omit [IsTrans Store rel] in
theorem along_question (x : Except Error α) : Along rel s (liftM x : Transaction α) := by
  intro a s' hrun
  obtain ⟨-, rfl⟩ := lift_eq_ok.1 hrun
  exact refl_of rel _

omit [Std.Refl rel] [IsTrans Store rel] in
theorem Along.map {act : Transaction α} (h : Along rel s act) (f : α → β) :
    Along rel s (f <$> act) := by
  intro b s' hrun
  obtain ⟨a, hact, -⟩ := map_eq_ok.1 hrun
  exact h a s' hact

omit [Std.Refl rel] in
theorem Along.bind {act : Transaction α} {next : α → Transaction β} (h : Along rel s act)
    (hnext : ∀ a t, Along rel t (next a)) : Along rel s (act >>= next) := by
  intro b s' hrun
  obtain ⟨a, t, hact, hrest⟩ := bind_eq_ok.1 hrun
  exact trans_of rel (h a t hact) (hnext a t b s' hrest)

omit [Std.Refl rel] [IsTrans Store rel] in
theorem along_get {next : Store → Transaction β} (h : Along rel s (next s)) :
    Along rel s (get >>= next) := fun b s' hrun => h b s' hrun

omit [Std.Refl rel] [IsTrans Store rel] in
theorem along_write {act : Transaction PUnit} (h : act s = .ok (⟨⟩, t)) (hrel : rel s t) :
    Along rel s act := by
  intro _ s' hrun
  cases h.symm.trans hrun
  exact hrel

omit [Std.Refl rel] in
theorem along_set {next : PUnit → Transaction β} (hset : rel s t) (h : Along rel t (next ⟨⟩)) :
    Along rel s (set t >>= next) := fun b s' hrun => trans_of rel hset (h b s' hrun)

omit [Std.Refl rel] [IsTrans Store rel] in
theorem along_lift {x : Except Error α} {next : α → Transaction β}
    (h : ∀ a, x = .ok a → Along rel s (next a)) :
    Along rel s ((liftM x : Transaction α) >>= next) := by
  intro b s' hrun
  obtain ⟨a, ha, hrest⟩ := lift_bind_eq_ok.1 hrun
  exact h a ha b s' hrest

omit [Std.Refl rel] [IsTrans Store rel] in
theorem along_adjust {change : Store → Nat × Store} (h : ∀ s, rel s (change s).2) :
    Along rel s (adjust change) := by
  intro n s' hrun
  have heq : change s = (n, s') := Except.ok.inj hrun
  have hrel := h s
  rwa [heq] at hrel

/-- An adjustment that is made or left out, and what comes after it. -/
theorem along_adjusting {propagate : Bool} {change : Store → Nat × Store}
    {next : Nat → Transaction β} (h : ∀ s, rel s (change s).2)
    (hnext : ∀ n t, Along rel t (next n)) :
    Along rel s (if propagate then adjust change >>= next else pure 0 >>= next) := by
  cases propagate with
  | true => exact (along_adjust h).bind hnext
  | false => exact (along_pure 0).bind hnext

theorem along_forM {act : α → Transaction PUnit} (h : ∀ a t, Along rel t (act a)) (items : List α) :
    Along rel s (items.forM act) := by
  induction items generalizing s with
  | nil => exact along_pure PUnit.unit
  | cons item rest ih => exact (h item s).bind fun _ _ => ih

end Along

/-- The transaction, carried out on the store, leaves its forest as it is and marks nothing but what
is owed. -/
abbrev Stays (owed : List HierarchyId) (s : Store) (act : Transaction α) : Prop :=
  Along (StillBut owed) s act

theorem Stays.widen {owed : List HierarchyId} {act : Transaction α} (h : Stays [] s act) :
    Stays owed s act := fun a s' hrun =>
  ⟨(h a s' hrun).toStill, fun host hhost =>
    Or.inl (((h a s' hrun).fresh host hhost).resolve_right List.not_mem_nil), (h a s' hrun).assetIds⟩

/-! ## The parts of the transactions -/

theorem stays_attach (asset : AssetId) (node : NodeId) : Stays [] s (attach asset node) := by
  refine along_get ?_
  by_cases hold : s.attachments.contains (asset, node) = true
  · rw [if_pos hold]
    exact along_pure ()
  · rw [if_neg hold]
    by_cases hunknown : ((s.asset? asset).isNone || !(s.nodes.any (·.id == node))) = true
    · rw [if_pos hunknown]
      exact along_throw _
    · rw [if_neg hunknown]
      exact along_write rfl (Still.but ⟨rfl, rfl, fun _ => Or.inl⟩ rfl rfl)

theorem stays_mark (hierarchy : HierarchyId) : Stays [hierarchy] s (mark hierarchy) := by
  refine along_get ?_
  by_cases hold : s.marked.contains hierarchy = true
  · rw [if_pos hold]
    exact along_pure ()
  · rw [if_neg hold]
    by_cases hunknown : (s.hierarchy? hierarchy).isNone = true
    · rw [if_pos hunknown]
      exact along_throw _
    · rw [if_neg hunknown]
      refine along_write rfl ⟨⟨rfl, rfl, fun h hh => ?_⟩, fun _ => List.mem_append.1, id⟩
      rcases List.mem_append.1 hh with hin | hnew
      · exact Or.inl hin
      · rw [List.mem_singleton.1 hnew]
        have hknown := Option.isSome_iff_ne_none.2 (mt Option.isNone_iff_eq_none.2 hunknown)
        rw [hierarchy?, List.find?_isSome] at hknown
        obtain ⟨host, hhost, hid⟩ := hknown
        exact Or.inr ⟨host, hhost, beq_iff_eq.1 hid⟩

theorem stays_markUnless (propagated : Bool) (hierarchy : HierarchyId) :
    Stays (owing propagated hierarchy) s (markUnless propagated hierarchy) := by
  cases propagated with
  | true => exact along_pure ()
  | false => exact stays_mark hierarchy

theorem stays_addToNode (node : Node) (assets : List AssetId) (propagate : Bool) :
    Stays [] s (addToNode node assets propagate) := by
  refine along_get (along_adjusting (fun s => (recounted_climb .add _ _ _ s).stillBut) fun n t => ?_)
  exact (along_forM (fun asset t => stays_attach asset node.id) _).bind fun _ _ => along_pure _

theorem stays_addToNodes (hierarchy : HierarchyId) (asset : AssetId) (nodes : List Node)
    (propagate : Bool) : Stays [] s (addToNodes hierarchy asset nodes propagate) := by
  refine along_get (along_adjusting (fun s => (recounted_addAmount s _ _ _).stillBut) fun n t => ?_)
  exact (along_forM (fun (node : Node) t => stays_attach asset node.id) _).bind fun _ _ => along_pure _

theorem stays_removeFromNode (node : Node) (assets : List AssetId) (propagate : Bool) :
    Stays [] s (removeFromNode node assets propagate) := by
  refine along_get (along_set (along_foldl _ (fun s asset => stillBut_detach s asset node.id) _ s) ?_)
  exact along_adjusting (fun s => (recounted_climb .remove _ _ _ s).stillBut) fun n t => along_pure _

theorem stays_removeFromNodes (hierarchy : HierarchyId) (asset : AssetId) (nodes : List Node)
    (propagate : Bool) : Stays [] s (removeFromNodes hierarchy asset nodes propagate) := by
  refine along_get (along_set (along_foldl _ (fun s (node : Node) => stillBut_detach s asset node.id) _ s) ?_)
  exact along_adjusting (fun s => (recounted_addAmount s _ _ _).stillBut) fun n t => along_pure _

theorem stays_rehome (hierarchy : HierarchyId) (assets : List AssetId) (propagate : Bool) :
    Stays [] s (rehome hierarchy assets propagate) := by
  refine along_get ?_
  cases (s.orphans hierarchy).filter (assets.contains ·) with
  | nil => exact along_pure _
  | cons orphan rest =>
    refine along_lift fun found _ => ?_
    cases found with
    | none => exact along_throw _
    | some root => exact (stays_addToNode root _ propagate).bind fun _ _ => along_pure _

theorem stays_adjustForLosses (hierarchy : HierarchyId) (keys : List (NodeId × Key))
    (changes : List Change) : Stays [] s (adjustForLosses hierarchy keys changes) := by
  induction changes generalizing s with
  | nil => exact along_pure _
  | cons change rest ih =>
    refine (along_adjust fun s => (recounted_addAmount s _ _ _).stillBut).bind fun _ t => ?_
    exact ih.bind fun _ _ => along_pure _

/-! ## The transactions -/

theorem stays_createAsset (hierarchy : HierarchyId) (name : String) (nodes : List NodeId)
    (propagate : Bool) :
    Stays (owing propagate hierarchy) s (createAsset hierarchy name nodes propagate) := by
  -- whichever way the targets are found, the rest is the same
  have hrest : ∀ (targets : List Node) (t : Store), Stays (owing propagate hierarchy) t (do
      let id ← insertAsset hierarchy name
      let added ← addToNodes hierarchy id targets propagate
      markUnless propagate hierarchy
      return ((⟨id, hierarchy, name⟩ : Asset), added.changed.map (·.id))) := by
    intro targets t
    have hinsert : Stays (owing propagate hierarchy) t (insertAsset hierarchy name) := by
      refine along_get ?_
      by_cases hunknown : (t.hierarchy? hierarchy).isNone = true
      · rw [if_pos hunknown]
        exact along_throw _
      · rw [if_neg hunknown]
        refine along_set ⟨⟨rfl, rfl, fun _ => Or.inl⟩, fun _ => Or.inl, fun hids => ?_⟩ (along_pure _)
        rw [List.map_append]
        exact nodup_nextId hids
    refine hinsert.bind fun id _ => ?_
    refine (stays_addToNodes hierarchy id targets propagate).widen.bind fun _ _ => ?_
    exact (stays_markUnless propagate hierarchy).bind fun _ _ => along_pure _
  refine along_get (((along_question _).map _).bind fun _ t => ?_)
  by_cases hnone : nodes.isEmpty = true
  · rw [if_pos hnone]
    exact ((along_question _).map _).bind hrest
  · rw [if_neg hnone]
    exact (along_question _).bind hrest

/-- Whether amounts were adjusted is found out on the way. -/
theorem stays_removeAsset {hierarchy : HierarchyId} {id : AssetId} {propagates : Nat → Bool}
    {removed : List NodeId × Bool} (h : removeAsset hierarchy id propagates s = .ok (removed, t)) :
    StillBut (owing removed.2 hierarchy) s t := by
  rw [removeAsset, get_bind] at h
  obtain ⟨nodes, -, h⟩ := lift_bind_eq_ok.1 h
  obtain ⟨gone, u, hremove, h⟩ := bind_eq_ok.1 h
  obtain ⟨_, v, hdelete, h⟩ := bind_eq_ok.1 h
  cases hdelete
  obtain ⟨_, w, hmark, h⟩ := bind_eq_ok.1 h
  cases h
  have hdeleted : StillBut (owing (propagates nodes.length) hierarchy) u (u.deleteAsset id) :=
    ⟨⟨rfl, rfl, fun _ => Or.inl⟩, fun _ => Or.inl, fun hids =>
      hids.sublist (List.filter_sublist.map _)⟩
  exact trans_of _ ((stays_removeFromNodes _ _ _ _).widen _ _ hremove)
    (trans_of _ hdeleted (stays_markUnless _ _ _ _ hmark))

/-- The hierarchy is that of the node, which is found on the way. -/
theorem stays_attachAll {node : NodeId} {assets : List AssetId} {propagate : Bool}
    {made : HierarchyId × Outcome} (h : attachAll node assets propagate s = .ok (made, t)) :
    StillBut (owing propagate made.1) s t := by
  obtain ⟨found, -, h⟩ := lift_bind_eq_ok.1 (get_bind.symm.trans h)
  obtain ⟨_, -, h⟩ := lift_bind_eq_ok.1 h
  obtain ⟨added, u, hadd, h⟩ := bind_eq_ok.1 h
  obtain ⟨_, v, hmark, h⟩ := bind_eq_ok.1 h
  cases h
  exact trans_of _ ((stays_addToNode _ _ _).widen _ _ hadd) (stays_markUnless _ _ _ _ hmark)

/-- The hierarchy is that of the asset, which is found on the way. -/
theorem stays_attachToAll {asset : AssetId} {nodes : List NodeId} {propagate : Bool}
    {made : HierarchyId × Outcome} (h : attachToAll asset nodes propagate s = .ok (made, t)) :
    StillBut (owing propagate made.1) s t := by
  obtain ⟨found, -, h⟩ := lift_bind_eq_ok.1 (get_bind.symm.trans h)
  obtain ⟨targets, -, h⟩ := lift_bind_eq_ok.1 h
  obtain ⟨added, u, hadd, h⟩ := bind_eq_ok.1 h
  obtain ⟨_, v, hmark, h⟩ := bind_eq_ok.1 h
  cases h
  exact trans_of _ ((stays_addToNodes _ _ _ _).widen _ _ hadd) (stays_markUnless _ _ _ _ hmark)

theorem stays_detachAll (hierarchy : HierarchyId) (node : NodeId) (assets : List AssetId)
    (propagate : Bool) :
    Stays (owing propagate hierarchy) s (detachAll hierarchy node assets propagate) := by
  refine along_get (along_lift fun found _ => ?_)
  refine (stays_removeFromNode found assets propagate).widen.bind fun removed _ => ?_
  refine (stays_rehome hierarchy removed.changed propagate).widen.bind fun _ _ => ?_
  exact (stays_markUnless propagate hierarchy).bind fun _ _ => along_pure _

theorem stays_detachFromAll (hierarchy : HierarchyId) (asset : AssetId) (nodes : List NodeId)
    (propagate : Bool) :
    Stays (owing propagate hierarchy) s (detachFromAll hierarchy asset nodes propagate) := by
  refine along_get (along_lift fun targets _ => ?_)
  refine (stays_removeFromNodes hierarchy asset targets propagate).widen.bind fun removed t => ?_
  have hlast : ∀ (rehomed : List Change) (t : Store), Stays (owing propagate hierarchy) t (do
      markUnless propagate hierarchy
      return ({
        changes := Change.perNode asset (removed.changed.map (·.id))
        rehomed
        nodesUpdated := removed.nodesUpdated
        deferred := !propagate } : Outcome)) := fun rehomed t =>
    (stays_markUnless propagate hierarchy).bind fun _ _ => along_pure _
  by_cases hnone : removed.changed.isEmpty = true
  · rw [if_pos hnone]
    exact (along_pure _).bind hlast
  · rw [if_neg hnone]
    exact (stays_rehome hierarchy [asset] propagate).widen.bind hlast

theorem stays_move (hierarchy : HierarchyId) (target : NodeId) (assets : List AssetId)
    (rows : List Attachment) (propagate : Bool) :
    Stays (owing propagate hierarchy) s (move hierarchy target assets rows propagate) := by
  refine along_get (along_lift fun found _ => ?_)
  dsimp only
  by_cases hgone : rows.countP (fun row => s.isAttached row.1 row.2) ≠ rows.length
  · rw [if_pos hgone]
    exact along_throw_bind _
  · rw [if_neg hgone]
    refine along_set (along_foldl _ (fun s (row : Attachment) => stillBut_detach s row.1 row.2) rows s) ?_
    have hlast : ∀ (n : Nat) (t : Store), Stays (owing propagate hierarchy) t (do
        let added ← addToNode found assets propagate
        markUnless propagate hierarchy
        return { added with nodesUpdated := n + added.nodesUpdated } : Transaction _) := by
      intro n t
      refine (stays_addToNode found assets propagate).widen.bind fun _ _ => ?_
      exact (stays_markUnless propagate hierarchy).bind fun _ _ => along_pure _
    cases propagate with
    | true =>
      rw [if_pos rfl]
      refine along_lift fun nodes _ => ?_
      exact (stays_adjustForLosses hierarchy _ _).widen.bind hlast
    | false => exact (along_pure 0).bind hlast

/-- A reconciliation marks nothing, whatever it finds. -/
theorem stays_reconcile (hierarchy : HierarchyId) (mode : Mode) :
    Stays [] s (Store.reconcile hierarchy mode) := by
  have hwrite : ∀ (t : Store) (wrong : List Node) (value : Node → Int) (report : Report),
      Stays [] t (if mode = .repair then do
          set ((t.setAmounts wrong value).unmark hierarchy)
          return report
        else return report) := by
    intro t wrong value report
    by_cases hmode : mode = .repair
    · rw [if_pos hmode]
      exact along_set (stillBut_repair t wrong value hierarchy) (along_pure report)
    · rw [if_neg hmode]
      exact along_pure report
  refine along_get (along_lift fun nodes _ => ?_)
  generalize nodes.filter (·.key.isRoot) = roots
  dsimp only
  split
  · refine ((stays_addToNode _ _ false).map _).bind fun _ t => ?_
    exact along_get (along_lift fun _ _ => hwrite t _ _ _)
  · exact along_get (along_lift fun _ _ => hwrite s _ _ _)

end Transaction
end Inventory
