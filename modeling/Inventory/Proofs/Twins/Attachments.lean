import Inventory.Proofs.Twins.Basic

/-! # Edits of attachments on twin stores

Each transaction on assets and attachments gives the same results on stores that differ in amounts
and marks, up to what it says about amounts, and refuses the same requests. Where it marks a
hierarchy, that is one that the store knows, and where it reads keys to take amounts back, those can
be read. -/
namespace Inventory.Store
set_option autoImplicit false
variable {β : Type} {s t : Store} {p q : Bool} {hierarchy : HierarchyId}

theorem matches_insertAsset (hst : s.bare = t.bare) (name : String) :
    Matches Eq (insertAsset hierarchy name s) (insertAsset hierarchy name t) := by
  have hhosts : s.hierarchy? hierarchy = t.hierarchy? hierarchy :=
    bare_congr (·.hierarchy? hierarchy) (fun _ => rfl) hst
  have hassets : s.assets = t.assets := bare_congr (·.assets) (fun _ => rfl) hst
  rw [insertAsset, Transaction.get_bind, Transaction.get_bind, hhosts]
  by_cases hunknown : (t.hierarchy? hierarchy).isNone = true
  · rw [if_pos hunknown, if_pos hunknown]
    exact .throw_bind _
  · rw [if_neg hunknown, if_neg hunknown]
    dsimp only
    rw [hassets]
    refine .done rfl ?_
    exact congrArg (fun u : Store => { u with
      assets := t.assets ++ [Asset.mk (nextId (t.assets.map Asset.id)) hierarchy name] }) hst

theorem matches_createAsset (hst : s.bare = t.bare) (name : String) (ids : List NodeId) :
    Matches Eq (createAsset hierarchy name ids p s) (createAsset hierarchy name ids q t) := by
  -- whichever way the targets are found, the rest is the same
  have hrest : ∀ {targets targets' : List Node},
      targets.map Node.bare = targets'.map Node.bare →
      (∃ host ∈ s.hierarchies, host.id = hierarchy) → Matches Eq
        ((do
          let id ← insertAsset hierarchy name
          let added ← addToNodes hierarchy id targets p
          markUnless p hierarchy
          return (⟨id, hierarchy, name⟩, added.changed.map (·.id)) :
            Transaction (Asset × List NodeId)) s)
        ((do
          let id ← insertAsset hierarchy name
          let added ← addToNodes hierarchy id targets' q
          markUnless q hierarchy
          return (⟨id, hierarchy, name⟩, added.changed.map (·.id)) :
            Transaction (Asset × List NodeId)) t) := by
    intro targets targets' htargets hhost
    refine (matches_insertAsset hst name).bind fun id id' s₁ t₁ hinsert _ hid h₁ => ?_
    subst hid
    obtain ⟨-, rfl⟩ := insertAsset_eq_ok hinsert
    refine (matches_addToNodes htargets h₁ id).bind fun added added' s₂ t₂ hadd _ hadded h₂ => ?_
    refine (matches_markUnless h₂ ((Transaction.stays_addToNodes _ _ _ _ _ _ hadd).exists_host hhost)).bind
      fun _ _ s₃ t₃ _ _ _ h₃ => .pure h₃ ?_
    exact congrArg (Prod.mk _) (ids_eq_of_bare hadded)
  have hhosts : s.requireHierarchy hierarchy = t.requireHierarchy hierarchy :=
    bare_congr (·.requireHierarchy hierarchy) (fun _ => rfl) hst
  rw [createAsset, createAsset, Transaction.get_bind, Transaction.get_bind, Transaction.discard_lift_bind,
    Transaction.discard_lift_bind]
  refine .ask_same hhosts fun host hfound => ?_
  have hhost : ∃ host ∈ s.hierarchies, host.id = hierarchy :=
    ⟨host, requireHierarchy_eq_ok hfound⟩
  by_cases hnone : ids.isEmpty = true
  · rw [if_pos hnone, if_pos hnone, bind_map_left, bind_map_left]
    exact .ask (requireRoot_agree hst hierarchy) fun root root' _ _ h => hrest (congrArg List.singleton h) hhost
  · rw [if_neg hnone, if_neg hnone]
    exact .ask (loadNodesIn_agree hst hierarchy ids) fun targets targets' _ _ h => hrest h hhost

theorem matches_removeAsset (hst : s.bare = t.bare)
    (hhost : ∃ host ∈ s.hierarchies, host.id = hierarchy) (id : AssetId)
    (propagates propagates' : Nat → Bool) :
    Matches (fun removed removed' => removed.1 = removed'.1)
      (removeAsset hierarchy id propagates s) (removeAsset hierarchy id propagates' t) := by
  have hids : s.nodesOfAsset id = t.nodesOfAsset id :=
    bare_congr (·.nodesOfAsset id) (fun _ => rfl) hst
  have hload : List.map Node.bare <$> s.nodesByIds (s.nodesOfAsset id) =
      List.map Node.bare <$> t.nodesByIds (t.nodesOfAsset id) := by
    rw [← nodesByIds_bare, ← nodesByIds_bare, hst, hids]
  rw [removeAsset, removeAsset, Transaction.get_bind, Transaction.get_bind]
  refine .ask hload fun nodes nodes' _ _ hnodes => ?_
  refine (matches_removeFromNodes hnodes hst id).bind fun removed removed' s₁ t₁ hremove _ hremoved h₁ => ?_
  have hhost₁ := (Transaction.stays_removeFromNodes _ _ _ _ _ _ hremove).exists_host hhost
  have hdelete : Matches (fun _ _ => True) ((modify (·.deleteAsset id) : Transaction PUnit) s₁)
      ((modify (·.deleteAsset id) : Transaction PUnit) t₁) :=
    .done trivial (congrArg (·.deleteAsset id) h₁)
  refine hdelete.bind fun _ _ s₂ t₂ hmodify _ _ h₂ => ?_
  cases hmodify
  exact (matches_markUnless h₂ hhost₁).bind fun _ _ s₃ t₃ _ _ _ h₃ =>
    .pure h₃ (ids_eq_of_bare hremoved)

theorem matches_attachAll (hs : s.Formed) (hst : s.bare = t.bare) (id : NodeId)
    (assets : List AssetId) :
    Matches (fun made made' => made.1 = made'.1 ∧ made.2.bare = made'.2.bare)
      (attachAll id assets p s) (attachAll id assets q t) := by
  rw [attachAll, attachAll, Transaction.get_bind, Transaction.get_bind]
  refine .ask (requireNode_agree hst id) fun node node' hfound _ hnode => ?_
  have hid : node.id = node'.id := Node.bare_congr (·.id) (fun _ => rfl) hnode
  have hhierarchy : node.hierarchy = node'.hierarchy := Node.bare_congr (·.hierarchy) (fun _ => rfl) hnode
  have hassets : s.ensureAssetsIn node.hierarchy assets = t.ensureAssetsIn node'.hierarchy assets := by
    rw [hhierarchy]
    exact bare_congr (·.ensureAssetsIn node'.hierarchy assets) (fun _ => rfl) hst
  have hhost := hs.hosted node.row (hs.requireNode hfound).1
  refine .ask_same hassets fun _ _ => ?_
  refine (matches_addToNode hnode hst assets).bind fun added added' s₁ t₁ hadd _ hadded h₁ => ?_
  rw [← hhierarchy]
  refine (matches_markUnless h₁ ((Transaction.stays_addToNode _ _ _ _ _ hadd).exists_host hhost)).bind
    fun _ _ s₂ t₂ _ _ _ h₂ => .pure h₂ ⟨rfl, ?_⟩
  rw [Outcome.bare, Outcome.bare, hadded, hid]

theorem matches_attachToAll (hs : s.Formed) (hst : s.bare = t.bare) (asset : AssetId)
    (ids : List NodeId) :
    Matches (fun made made' => made.1 = made'.1 ∧ made.2.bare = made'.2.bare)
      (attachToAll asset ids p s) (attachToAll asset ids q t) := by
  have hfound : s.requireAsset asset = t.requireAsset asset :=
    bare_congr (·.requireAsset asset) (fun _ => rfl) hst
  rw [attachToAll, attachToAll, Transaction.get_bind, Transaction.get_bind]
  refine .ask_same hfound fun found hasset => ?_
  have hhost := hs.owned found (requireAsset_eq_ok hasset).1
  refine .ask (loadNodesIn_agree hst found.hierarchy ids) fun targets targets' _ _ htargets => ?_
  refine (matches_addToNodes htargets hst asset).bind fun added added' s₁ t₁ hadd _ hadded h₁ => ?_
  refine (matches_markUnless h₁ ((Transaction.stays_addToNodes _ _ _ _ _ _ hadd).exists_host hhost)).bind
    fun _ _ s₂ t₂ _ _ _ h₂ => .pure h₂ ⟨rfl, ?_⟩
  exact congrArg (fun ids => (⟨Change.perNode asset ids, [], 0, false⟩ : Outcome))
    (ids_eq_of_bare hadded)

theorem matches_detachAll (hst : s.bare = t.bare)
    (hhost : ∃ host ∈ s.hierarchies, host.id = hierarchy) (id : NodeId) (assets : List AssetId) :
    Matches (fun outcome outcome' => outcome.bare = outcome'.bare)
      (detachAll hierarchy id assets p s) (detachAll hierarchy id assets q t) := by
  rw [detachAll, detachAll, Transaction.get_bind, Transaction.get_bind]
  refine .ask (requireNode_agree hst id) fun node node' _ _ hnode => ?_
  have hid : node.id = node'.id := Node.bare_congr (·.id) (fun _ => rfl) hnode
  refine (matches_removeFromNode hnode hst assets).bind
    fun removed removed' s₁ t₁ hremove _ hremoved h₁ => ?_
  have hhost₁ := (Transaction.stays_removeFromNode _ _ _ _ _ hremove).exists_host hhost
  rw [← hremoved]
  refine (matches_rehome h₁ removed.changed).bind fun rehomed rehomed' s₂ t₂ hrehome _ hsame h₂ => ?_
  cases hsame
  refine (matches_markUnless h₂ ((Transaction.stays_rehome _ _ _ _ _ hrehome).exists_host hhost₁)).bind
    fun _ _ s₃ t₃ _ _ _ h₃ => .pure h₃ ?_
  rw [Outcome.bare, Outcome.bare, hid]

theorem matches_detachFromAll (hst : s.bare = t.bare)
    (hhost : ∃ host ∈ s.hierarchies, host.id = hierarchy) (asset : AssetId) (ids : List NodeId) :
    Matches (fun outcome outcome' => outcome.bare = outcome'.bare)
      (detachFromAll hierarchy asset ids p s) (detachFromAll hierarchy asset ids q t) := by
  rw [detachFromAll, detachFromAll, Transaction.get_bind, Transaction.get_bind]
  refine .ask (loadNodesIn_agree hst hierarchy ids) fun targets targets' _ _ htargets => ?_
  refine (matches_removeFromNodes htargets hst asset).bind
    fun removed removed' s₁ t₁ hremove _ hremoved h₁ => ?_
  have hhost₁ := (Transaction.stays_removeFromNodes _ _ _ _ _ _ hremove).exists_host hhost
  have hids := ids_eq_of_bare hremoved
  have hlast : ∀ {rehomed : List Change} {u v : Store}, u.bare = v.bare →
      (∃ host ∈ u.hierarchies, host.id = hierarchy) →
      Matches (fun outcome outcome' => outcome.bare = outcome'.bare)
        ((do
          markUnless p hierarchy
          return {
            changes := Change.perNode asset (removed.changed.map (·.id))
            rehomed
            nodesUpdated := removed.nodesUpdated
            deferred := !p } : Transaction Outcome) u)
        ((do
          markUnless q hierarchy
          return {
            changes := Change.perNode asset (removed'.changed.map (·.id))
            rehomed
            nodesUpdated := removed'.nodesUpdated
            deferred := !q } : Transaction Outcome) v) := by
    intro rehomed u v huv hhost'
    refine (matches_markUnless huv hhost').bind fun _ _ _ _ _ _ _ h => .pure h ?_
    exact congrArg (fun ids => (⟨Change.perNode asset ids, rehomed, 0, false⟩ : Outcome)) hids
  have hempty : removed.changed.isEmpty = removed'.changed.isEmpty := by
    rw [← List.isEmpty_map (f := Node.bare), hremoved, List.isEmpty_map]
  rw [hempty]
  by_cases hnone : removed'.changed.isEmpty = true
  · rw [if_pos hnone, if_pos hnone]
    exact hlast h₁ hhost₁
  · rw [if_neg hnone, if_neg hnone]
    refine (matches_rehome h₁ [asset]).bind fun rehomed rehomed' s₂ t₂ hrehome _ hsame h₂ => ?_
    cases hsame
    exact hlast h₂ ((Transaction.stays_rehome _ _ _ _ _ hrehome).exists_host hhost₁)

theorem recounted_adjustForLosses {keys : List (NodeId × Key)} {changes : List Change} {n : Nat}
    {s' : Store} (h : adjustForLosses hierarchy keys changes s = .ok (n, s')) : Recounted s s' := by
  induction changes generalizing s n with
  | nil =>
    cases h
    exact Recounted.refl _
  | cons change rest ih =>
    obtain ⟨m, s₁, hfirst, h⟩ := Transaction.bind_eq_ok.1 h
    obtain ⟨k, s₂, hrest, h⟩ := Transaction.bind_eq_ok.1 h
    cases h
    rw [adjust_eq_ok hfirst] at hrest
    exact (recounted_addAmount s _ _ _).trans (ih hrest)

/-- Amounts are taken back for rows that are gone, or left alone. -/
theorem takeBack_run (hlegible : ∀ row ∈ s.nodes, row.Legible) (hierarchy : HierarchyId)
    (propagate : Bool) (rows : List Attachment) (next : Nat → Transaction β) :
    ∃ n s', Recounted s s' ∧ (if propagate then do
        let nodes ← liftM (s.nodesByIds (rows.map (·.2)))
        let updated ← adjustForLosses hierarchy (nodes.map fun node => (node.id, node.key))
          (Change.group rows)
        next updated
      else pure 0 >>= next : Transaction β) s = next n s' := by
  cases propagate with
  | false => exact ⟨0, s, Recounted.refl s, rfl⟩
  | true =>
    obtain ⟨nodes, hnodes⟩ := exists_mapM_read (s.nodes.filter ((rows.map (·.2)).contains ·.id))
      fun row hrow => hlegible row (List.mem_of_mem_filter hrow)
    obtain ⟨n, s', hlosses⟩ := exists_adjustForLosses hierarchy
      (nodes.map fun node => (node.id, node.key)) (Change.group rows) s
    refine ⟨n, s', recounted_adjustForLosses hlosses, ?_⟩
    have hload : s.nodesByIds (rows.map (·.2)) = .ok nodes := hnodes
    rw [if_pos rfl, hload]
    show (adjustForLosses hierarchy _ _ s >>= fun r => next r.1 r.2) = _
    rw [hlosses]
    rfl

theorem matches_move (hst : s.bare = t.bare)
    (hhost : ∃ host ∈ s.hierarchies, host.id = hierarchy) (hlegible : ∀ row ∈ s.nodes, row.Legible)
    (id : NodeId) (assets : List AssetId) (rows : List Attachment) :
    Matches (fun edited edited' => edited.changed = edited'.changed)
      (move hierarchy id assets rows p s) (move hierarchy id assets rows q t) := by
  have hcount : rows.countP (fun row => s.isAttached row.1 row.2) =
      rows.countP (fun row => t.isAttached row.1 row.2) :=
    bare_congr (fun u => rows.countP (fun row => u.isAttached row.1 row.2)) (fun _ => rfl) hst
  have hlegible' : ∀ row ∈ t.nodes, row.Legible := by
    intro row hrow
    obtain ⟨old, hold, -, -, hkey, -⟩ := exists_of_bare (bare_eq_iff.1 hst).2.1.symm hrow
    obtain ⟨key, hread⟩ := hlegible old hold
    exact ⟨key, hkey ▸ hread⟩
  rw [move, move, Transaction.get_bind, Transaction.get_bind]
  refine .ask (requireNode_agree hst id) fun target target' _ _ htarget => ?_
  dsimp only
  rw [hcount]
  by_cases hgone : rows.countP (fun row => t.isAttached row.1 row.2) ≠ rows.length
  · rw [if_pos hgone, if_pos hgone]
    exact .throw_bind _
  · rw [if_neg hgone, if_neg hgone, foldl_detach fun row : Attachment => row,
      foldl_detach fun row : Attachment => row, List.map_id', Transaction.set_bind, Transaction.set_bind]
    have hminus : (s.minus rows).bare = (t.minus rows).bare := congrArg (·.minus rows) hst
    obtain ⟨n, s₁, hs₁, hrun⟩ := takeBack_run (s := s.minus rows) hlegible hierarchy p rows
      fun n => do
        let added ← addToNode target assets p
        markUnless p hierarchy
        return { added with nodesUpdated := n + added.nodesUpdated }
    obtain ⟨m, t₁, ht₁, hrun'⟩ := takeBack_run (s := t.minus rows) hlegible' hierarchy q rows
      fun n => do
        let added ← addToNode target' assets q
        markUnless q hierarchy
        return { added with nodesUpdated := n + added.nodesUpdated }
    rw [hrun, hrun']
    have h₁ : s₁.bare = t₁.bare := hs₁.1.trans (hminus.trans ht₁.1.symm)
    have hhost₁ : ∃ host ∈ s₁.hierarchies, host.id = hierarchy := hs₁.still.exists_host hhost
    refine (matches_addToNode htarget h₁ assets).bind fun added added' s₂ t₂ hadd _ hadded h₂ => ?_
    exact (matches_markUnless h₂ ((Transaction.stays_addToNode _ _ _ _ _ hadd).exists_host hhost₁)).bind
      fun _ _ _ _ _ _ _ h₃ => .pure h₃ hadded

end Inventory.Store

