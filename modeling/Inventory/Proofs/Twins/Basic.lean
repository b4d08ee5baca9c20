import Inventory.Proofs.Store.Bare
import Inventory.Proofs.Store.Frame
import Inventory.Proofs.Store.Progress
import Inventory.Tree.Structure

/-! # Transactions on stores that differ in amounts and marks

Two stores that are the same up to amounts and marks stay so when the same is done to both, whether
or not amounts are adjusted on either side. One rule for each way of putting steps together, and the
steps of which the transactions on attachments are made. -/
namespace Inventory
set_option autoImplicit false
variable {α β γ δ ε : Type} {s t : Store}

namespace Store

/-- Two transactions fail with the same error, or their results agree and they leave stores that are
the same up to amounts and marks. -/
inductive Matches (agree : α → β → Prop) :
    Except Error (α × Store) → Except Error (β × Store) → Prop
  | refused (e : Error) : Matches agree (.error e) (.error e)
  | done {a : α} {b : β} {s t : Store} (hagree : agree a b) (hbare : s.bare = t.bare) :
      Matches agree (.ok (a, s)) (.ok (b, t))

namespace Matches
variable {agree : α → β → Prop} {agree' : γ → δ → Prop}

theorem bind {act : Transaction α} {act' : Transaction β} {next : α → Transaction γ}
    {next' : β → Transaction δ} (h : Matches agree (act s) (act' t))
    (hnext : ∀ a b s' t', act s = .ok (a, s') → act' t = .ok (b, t') → agree a b →
      s'.bare = t'.bare → Matches agree' (next a s') (next' b t')) :
    Matches agree' ((act >>= next) s) ((act' >>= next') t) := by
  have hrun : (act >>= next) s = (act s >>= fun r => next r.1 r.2) := rfl
  have hrun' : (act' >>= next') t = (act' t >>= fun r => next' r.1 r.2) := rfl
  rw [hrun, hrun']
  cases hact : act s with
  | error e =>
    rw [hact] at h
    cases hact' : act' t with
    | error e' =>
      rw [hact'] at h
      cases h
      exact .refused e
    | ok r =>
      rw [hact'] at h
      cases h
  | ok r =>
    rw [hact] at h
    cases hact' : act' t with
    | error e =>
      rw [hact'] at h
      cases h
    | ok r' =>
      rw [hact'] at h
      cases h with
      | done hagree hbare => exact hnext _ _ _ _ hact hact' hagree hbare

theorem answers {f : α → γ} {g : β → γ} {x : Except Error (α × Store)} {y : Except Error (β × Store)}
    (h : Matches (fun a b => f a = g b) x y) :
    f <$> (fun r => r.1) <$> x = g <$> (fun r => r.1) <$> y := by
  cases h with
  | refused e => rfl
  | done hagree _ => exact congrArg Except.ok hagree

theorem pure {a : α} {b : β} (h : s.bare = t.bare) (hagree : agree a b) :
    Matches agree ((Pure.pure a : Transaction α) s) ((Pure.pure b : Transaction β) t) := .done hagree h

theorem throw (e : Error) :
    Matches agree ((MonadExcept.throw e : Transaction α) s) ((MonadExcept.throw e : Transaction β) t) :=
  .refused e

theorem throw_bind (e : Error) {next : γ → Transaction α} {next' : δ → Transaction β} :
    Matches agree (((MonadExcept.throw e : Transaction γ) >>= next) s)
      (((MonadExcept.throw e : Transaction δ) >>= next') t) := .refused e

/-- What follows questions whose answers are the same as far as they go on to matter. -/
theorem of_answers {f : γ → ε} {g : δ → ε} {x : Except Error γ} {y : Except Error δ}
    {next : γ → Except Error (α × Store)} {next' : δ → Except Error (β × Store)}
    (h : f <$> x = g <$> y)
    (hnext : ∀ c d, x = .ok c → y = .ok d → f c = g d → Matches agree (next c) (next' d)) :
    Matches agree (x >>= next) (y >>= next') := by
  cases x with
  | error e =>
    cases y with
    | error e' =>
      cases h
      exact .refused e
    | ok d => cases h
  | ok c =>
    cases y with
    | error e => cases h
    | ok d => exact hnext c d rfl rfl (Except.ok.inj h)

theorem ask {f : γ → ε} {g : δ → ε} {x : Except Error γ} {y : Except Error δ}
    {next : γ → Transaction α} {next' : δ → Transaction β} (h : f <$> x = g <$> y)
    (hnext : ∀ c d, x = .ok c → y = .ok d → f c = g d → Matches agree (next c s) (next' d t)) :
    Matches agree (((liftM x : Transaction γ) >>= next) s)
      (((liftM y : Transaction δ) >>= next') t) := by
  rw [Transaction.lift_bind, Transaction.lift_bind]
  exact of_answers h hnext

theorem ask_same {x y : Except Error γ} {next : γ → Transaction α} {next' : γ → Transaction β}
    (h : x = y) (hnext : ∀ c, x = .ok c → Matches agree (next c s) (next' c t)) :
    Matches agree (((liftM x : Transaction γ) >>= next) s)
      (((liftM y : Transaction γ) >>= next') t) := by
  rw [← h, Transaction.lift_bind, Transaction.lift_bind]
  cases x with
  | error e => exact .refused e
  | ok c => exact hnext c rfl

/-- Amounts may be adjusted on either side or left alone. -/
theorem adjusting {p q : Bool} {change change' : Store → Nat × Store} {next : Nat → Transaction α}
    {next' : Nat → Transaction β} (hst : s.bare = t.bare) (h : ∀ s, Recounted s (change s).2)
    (h' : ∀ s, Recounted s (change' s).2)
    (hnext : ∀ n n' s' t', Recounted s s' → s'.bare = t'.bare →
      Matches agree (next n s') (next' n' t')) :
    Matches agree ((if p then adjust change >>= next else Pure.pure 0 >>= next) s)
      ((if q then adjust change' >>= next' else Pure.pure 0 >>= next') t) := by
  obtain ⟨n, hn⟩ := Transaction.adjust_bind p change next s
  obtain ⟨n', hn'⟩ := Transaction.adjust_bind q change' next' t
  have hs : Recounted s (if p then (change s).2 else s) := by
    cases p with
    | true => exact h s
    | false => exact Recounted.refl s
  have ht : Recounted t (if q then (change' t).2 else t) := by
    cases q with
    | true => exact h' t
    | false => exact Recounted.refl t
  rw [hn, hn']
  exact hnext n n' _ _ hs (hs.1.trans (hst.trans ht.1.symm))

theorem word (hst : s.bare = t.bare) (n : Nat) :
    Matches (fun _ _ => True) (ensureWord n s) (ensureWord n t) := by
  rw [ensureWord]
  by_cases hn : n ≤ Text.maxWord
  · rw [if_pos hn]
    exact .done trivial hst
  · rw [if_neg hn]
    exact .refused _

theorem forM {act : α → Transaction PUnit}
    (h : ∀ a s t, s.bare = t.bare → Matches (fun _ _ => True) (act a s) (act a t)) (items : List α)
    (hst : s.bare = t.bare) : Matches (fun _ _ => True) (items.forM act s) (items.forM act t) := by
  induction items generalizing s t with
  | nil => exact .pure hst trivial
  | cons item rest ih => exact (h item s t hst).bind fun _ _ _ _ _ _ _ => ih

end Matches

/-! ## The parts of the transactions -/

section Parts
variable {p q : Bool} {hierarchy : HierarchyId}

theorem matches_attach (hst : s.bare = t.bare) (asset : AssetId) (node : NodeId) :
    Matches (fun _ _ => True) (attach asset node s) (attach asset node t) := by
  have hattached : s.attachments = t.attachments := bare_congr (·.attachments) (fun _ => rfl) hst
  have hasset : s.asset? asset = t.asset? asset := bare_congr (·.asset? asset) (fun _ => rfl) hst
  have hnode : s.nodes.any (·.id == node) = t.nodes.any (·.id == node) :=
    bare_congr (·.nodes.any (·.id == node)) (fun u => any_bare (fun _ => rfl) u.nodes) hst
  rw [attach, Transaction.get_bind, Transaction.get_bind, hattached, hasset, hnode]
  by_cases hold : t.attachments.contains (asset, node) = true
  · rw [if_pos hold, if_pos hold]
    exact .pure hst trivial
  · rw [if_neg hold, if_neg hold]
    by_cases hunknown : ((t.asset? asset).isNone || !(t.nodes.any (·.id == node))) = true
    · rw [if_pos hunknown, if_pos hunknown]
      exact .throw_bind _
    · rw [if_neg hunknown, if_neg hunknown]
      refine .done trivial ?_
      exact congrArg (fun u : Store => { u with attachments := t.attachments ++ [(asset, node)] }) hst

theorem matches_markUnless (hst : s.bare = t.bare)
    (hhost : ∃ host ∈ s.hierarchies, host.id = hierarchy) :
    Matches (fun _ _ => True) (markUnless p hierarchy s) (markUnless q hierarchy t) := by
  have hhosts : s.hierarchies = t.hierarchies := bare_congr (·.hierarchies) (fun _ => rfl) hst
  obtain ⟨s', hs⟩ := exists_markUnless p hierarchy hhost
  obtain ⟨t', ht⟩ := exists_markUnless q hierarchy (hhosts ▸ hhost)
  rw [hs, ht, markUnless_eq_ok hs, markUnless_eq_ok ht]
  exact .done trivial hst

theorem Still.exists_host (h : Still s t) (hhost : ∃ host ∈ s.hierarchies, host.id = hierarchy) :
    ∃ host ∈ t.hierarchies, host.id = hierarchy := by
  rwa [h.hierarchies]

theorem matches_addToNode {node node' : Node} (hnode : node.bare = node'.bare)
    (hst : s.bare = t.bare) (assets : List AssetId) :
    Matches (fun edited edited' => edited.changed = edited'.changed)
      (addToNode node assets p s) (addToNode node' assets q t) := by
  have hid : node.id = node'.id := Node.bare_congr (·.id) (fun _ => rfl) hnode
  have hfresh : assets.eraseDups.filter (!s.isAttached · node.id) =
      assets.eraseDups.filter (!t.isAttached · node'.id) := by
    rw [hid]
    exact bare_congr (fun u => assets.eraseDups.filter (!u.isAttached · node'.id)) (fun _ => rfl) hst
  rw [addToNode, addToNode, Transaction.get_bind, Transaction.get_bind]
  refine .adjusting hst (recounted_climb .add _ _ _) (recounted_climb .add _ _ _)
    fun n n' s' t' _ hst' => ?_
  rw [hfresh, hid]
  exact (Matches.forM (fun asset _ _ h => matches_attach h asset node'.id) _ hst').bind
    fun _ _ _ _ _ _ _ hst'' => .pure hst'' rfl

theorem matches_removeFromNode {node node' : Node} (hnode : node.bare = node'.bare)
    (hst : s.bare = t.bare) (assets : List AssetId) :
    Matches (fun edited edited' => edited.changed = edited'.changed)
      (removeFromNode node assets p s) (removeFromNode node' assets q t) := by
  have hid : node.id = node'.id := Node.bare_congr (·.id) (fun _ => rfl) hnode
  have hgone : assets.eraseDups.filter (s.isAttached · node.id) =
      assets.eraseDups.filter (t.isAttached · node'.id) := by
    rw [hid]
    exact bare_congr (fun u => assets.eraseDups.filter (u.isAttached · node'.id)) (fun _ => rfl) hst
  rw [removeFromNode, removeFromNode, Transaction.get_bind, Transaction.get_bind]
  dsimp only
  rw [hgone, hid, foldl_detach fun asset : AssetId => (asset, node'.id),
    foldl_detach fun asset : AssetId => (asset, node'.id), Transaction.set_bind, Transaction.set_bind]
  generalize assets.eraseDups.filter (t.isAttached · node'.id) = gone
  have hst' : (s.minus (gone.map (·, node'.id))).bare = (t.minus (gone.map (·, node'.id))).bare :=
    congrArg (fun u : Store => u.minus (gone.map (·, node'.id))) hst
  exact .adjusting hst' (recounted_climb .remove _ _ _) (recounted_climb .remove _ _ _)
    fun _ _ _ _ _ hst'' => .pure hst'' rfl

theorem eraseDupsBy_bare (nodes : List Node) :
    (nodes.map Node.bare).eraseDupsBy (·.id == ·.id) =
      (nodes.eraseDupsBy (·.id == ·.id)).map Node.bare :=
  eraseDupsBy_map Node.bare (fun a b : Node => a.id == b.id) nodes

theorem filter_nodes_bare {p : Node → Bool} (hp : ∀ node, p node.bare = p node) (nodes : List Node) :
    (nodes.map Node.bare).filter p = (nodes.filter p).map Node.bare := by
  rw [List.filter_map]
  exact congrArg (List.map Node.bare) (List.filter_congr fun node _ => hp node)

theorem matches_addToNodes {nodes nodes' : List Node}
    (hnodes : nodes.map Node.bare = nodes'.map Node.bare) (hst : s.bare = t.bare) (asset : AssetId) :
    Matches (fun edited edited' =>
        edited.changed.map Node.bare = edited'.changed.map Node.bare)
      (addToNodes hierarchy asset nodes p s) (addToNodes hierarchy asset nodes' q t) := by
  have hfresh : ((nodes.eraseDupsBy (·.id == ·.id)).filter (!s.isAttached asset ·.id)).map Node.bare =
      ((nodes'.eraseDupsBy (·.id == ·.id)).filter (!t.isAttached asset ·.id)).map Node.bare := by
    rw [← filter_nodes_bare fun _ => rfl, ← filter_nodes_bare fun _ => rfl, ← eraseDupsBy_bare,
      ← eraseDupsBy_bare, hnodes]
    exact bare_congr (fun u => ((nodes'.map Node.bare).eraseDupsBy (·.id == ·.id)).filter
      (!u.isAttached asset ·.id)) (fun _ => rfl) hst
  rw [addToNodes, addToNodes, Transaction.get_bind, Transaction.get_bind]
  dsimp only
  generalize (nodes.eraseDupsBy (·.id == ·.id)).filter (!s.isAttached asset ·.id) = fresh at hfresh ⊢
  generalize (nodes'.eraseDupsBy (·.id == ·.id)).filter (!t.isAttached asset ·.id) = fresh' at hfresh ⊢
  have hids := ids_eq_of_bare hfresh
  refine .adjusting hst (fun s => recounted_addAmount s _ _ _) (fun s => recounted_addAmount s _ _ _)
    fun n n' s' t' _ hst' => ?_
  have hforM : ∀ nodes : List Node,
      nodes.forM (attach asset ·.id) = (nodes.map (·.id)).forM (attach asset) := fun nodes =>
    List.forM_map.symm
  rw [hforM, hforM, hids]
  exact (Matches.forM (fun node _ _ h => matches_attach h asset node) _ hst').bind
    fun _ _ _ _ _ _ _ hst'' => .pure hst'' hfresh

theorem matches_removeFromNodes {nodes nodes' : List Node}
    (hnodes : nodes.map Node.bare = nodes'.map Node.bare) (hst : s.bare = t.bare) (asset : AssetId) :
    Matches (fun edited edited' =>
        edited.changed.map Node.bare = edited'.changed.map Node.bare)
      (removeFromNodes hierarchy asset nodes p s) (removeFromNodes hierarchy asset nodes' q t) := by
  have hgone : ((nodes.eraseDupsBy (·.id == ·.id)).filter (s.isAttached asset ·.id)).map Node.bare =
      ((nodes'.eraseDupsBy (·.id == ·.id)).filter (t.isAttached asset ·.id)).map Node.bare := by
    rw [← filter_nodes_bare fun _ => rfl, ← filter_nodes_bare fun _ => rfl, ← eraseDupsBy_bare,
      ← eraseDupsBy_bare, hnodes]
    exact bare_congr (fun u => ((nodes'.map Node.bare).eraseDupsBy (·.id == ·.id)).filter
      (u.isAttached asset ·.id)) (fun _ => rfl) hst
  rw [removeFromNodes, removeFromNodes, Transaction.get_bind, Transaction.get_bind]
  dsimp only
  generalize (nodes.eraseDupsBy (·.id == ·.id)).filter (s.isAttached asset ·.id) = gone at hgone ⊢
  generalize (nodes'.eraseDupsBy (·.id == ·.id)).filter (t.isAttached asset ·.id) = gone' at hgone ⊢
  have hlinks : gone.map (asset, ·.id) = gone'.map (asset, ·.id) := by
    have hfields := congrArg (List.map fun node : Node => (asset, node.id)) hgone
    rwa [List.map_map, List.map_map] at hfields
  rw [foldl_detach fun node : Node => (asset, node.id), foldl_detach fun node : Node => (asset, node.id),
    Transaction.set_bind, Transaction.set_bind, hlinks]
  have hst' : (s.minus (gone'.map (asset, ·.id))).bare = (t.minus (gone'.map (asset, ·.id))).bare :=
    congrArg (fun u : Store => u.minus (gone'.map fun node : Node => (asset, node.id))) hst
  exact .adjusting hst' (fun s => recounted_addAmount s _ _ _) (fun s => recounted_addAmount s _ _ _)
    fun _ _ _ _ _ hst'' => .pure hst'' hgone

theorem matches_rehome (hst : s.bare = t.bare) (assets : List AssetId) :
    Matches Eq (rehome hierarchy assets p s) (rehome hierarchy assets q t) := by
  have horphans : s.orphans hierarchy = t.orphans hierarchy := bare_congr (·.orphans hierarchy) (fun _ => rfl) hst
  rw [rehome, rehome, Transaction.get_bind, Transaction.get_bind, horphans]
  cases (t.orphans hierarchy).filter (assets.contains ·) with
  | nil => exact .pure hst rfl
  | cons orphan rest =>
    have hroot : Option.map Node.bare <$> s.rootNode? hierarchy =
        Option.map Node.bare <$> t.rootNode? hierarchy := by
      rw [← rootNode?_bare, ← rootNode?_bare, hst]
    refine .ask hroot fun found found' _ _ hfound => ?_
    cases found with
    | none =>
      cases found' with
      | none => exact .throw _
      | some root => cases hfound
    | some root =>
      cases found' with
      | none => cases hfound
      | some root' =>
        have hroot' : root.bare = root'.bare := Option.some.inj hfound
        have hid : root.id = root'.id := Node.bare_congr (·.id) (fun _ => rfl) hroot'
        refine (matches_addToNode hroot' hst _).bind
          fun edited edited' _ _ _ _ hchanged hst' => .pure hst' ?_
        rw [hchanged, hid]

end Parts

end Store
end Inventory
