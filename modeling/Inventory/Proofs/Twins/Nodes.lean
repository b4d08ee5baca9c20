import Inventory.Proofs.Twins.Basic

/-! # Changes of the forest and reconciliations on twin stores

Nodes are created and deleted in the same way on stores that differ in amounts and marks, and a
reconciliation finds the same forest. -/
namespace Inventory.Store
set_option autoImplicit false
variable {s t : Store} {hierarchy : HierarchyId}

theorem deleteNode_bare (s : Store) (id : NodeId) :
    s.bare.deleteNode id = (s.deleteNode id).bare := by
  rw [deleteNode, deleteNode, bare, bare, filter_bare fun _ => rfl]

theorem matches_insertNode (hst : s.bare = t.bare) (key : Key) (value fullValue : String) :
    Matches Eq (insertNode hierarchy key value fullValue s) (insertNode hierarchy key value fullValue t) := by
  have htaken : (s.rowsOf hierarchy).any (·.key == key.text) =
      (t.rowsOf hierarchy).any (·.key == key.text) := by
    refine bare_congr (fun u => (u.rowsOf hierarchy).any (·.key == key.text)) (fun u => ?_) hst
    rw [rowsOf_bare, any_bare fun _ => rfl]
  have hhosts : s.hierarchy? hierarchy = t.hierarchy? hierarchy :=
    bare_congr (·.hierarchy? hierarchy) (fun _ => rfl) hst
  have hids : s.nodes.map (·.id) = t.nodes.map (·.id) :=
    bare_congr (·.nodes.map (·.id)) (fun u => map_bare (fun _ => rfl) u.nodes) hst
  rw [insertNode, Transaction.get_bind, Transaction.get_bind, htaken, hhosts]
  by_cases hold : (t.rowsOf hierarchy).any (·.key == key.text) = true
  · rw [if_pos hold, if_pos hold]
    exact .throw_bind _
  · rw [if_neg hold, if_neg hold]
    by_cases hunknown : (t.hierarchy? hierarchy).isNone = true
    · rw [if_pos hunknown, if_pos hunknown]
      exact .throw_bind _
    · rw [if_neg hunknown, if_neg hunknown]
      dsimp only
      rw [hids]
      refine .done rfl (bare_eq_iff.2 ?_)
      obtain ⟨hh, hn, ha, hl⟩ := bare_eq_iff.1 hst
      refine ⟨hh, ?_, ha, hl⟩
      rw [List.map_append, List.map_append, hn]

theorem matches_insertChild {parent parent' : Node} (hparent : parent.bare = parent'.bare)
    {siblings siblings' : List Node} (hsiblings : siblings.map Node.bare = siblings'.map Node.bare)
    (hst : s.bare = t.bare) (value : String) :
    Matches Eq (insertChild parent siblings value s) (insertChild parent' siblings' value t) := by
  have hkey : parent.key = parent'.key := Node.bare_congr (·.key) (fun _ => rfl) hparent
  have hhost : parent.hierarchy = parent'.hierarchy := Node.bare_congr (·.hierarchy) (fun _ => rfl) hparent
  have hpath : parent.fullValue = parent'.fullValue := Node.bare_congr (·.fullValue) (fun _ => rfl) hparent
  have hkeys : siblings.map (·.key) = siblings'.map (·.key) := by
    rw [← keys_bare, hsiblings, keys_bare]
  rw [insertChild, insertChild, hkey, hhost, hpath, hkeys]
  refine (Matches.word hst _).bind fun _ _ s₁ t₁ _ _ _ h₁ => ?_
  refine (matches_insertNode h₁ _ value _).bind fun id id' s₂ t₂ _ _ hid h₂ => .pure h₂ ?_
  rw [hid]

theorem find?_nodes_bare {p : Node → Bool} (hp : ∀ node, p node.bare = p node) (nodes : List Node) :
    (nodes.map Node.bare).find? p = (nodes.find? p).map Node.bare := by
  rw [List.find?_map]
  have hcomp : p ∘ Node.bare = p := funext hp
  rw [hcomp]

theorem children_agree {parent parent' : Node} (hparent : parent.bare = parent'.bare)
    (hst : s.bare = t.bare) : List.map Node.bare <$> s.children hierarchy parent.key =
      List.map Node.bare <$> t.children hierarchy parent'.key := by
  have hkey : parent.key = parent'.key := Node.bare_congr (·.key) (fun _ => rfl) hparent
  rw [← children_bare, ← children_bare, hst, hkey]

theorem matches_getOrInsertChild {parent parent' : Node} (hparent : parent.bare = parent'.bare)
    (hst : s.bare = t.bare) (value : String) :
    Matches (fun made made' => made.1.bare = made'.1.bare ∧ made.2 = made'.2)
      (getOrInsertChild parent value s) (getOrInsertChild parent' value t) := by
  have hhost : parent.hierarchy = parent'.hierarchy := Node.bare_congr (·.hierarchy) (fun _ => rfl) hparent
  rw [getOrInsertChild, getOrInsertChild, Transaction.get_bind, Transaction.get_bind, hhost]
  refine .ask (children_agree hparent hst) fun siblings siblings' _ _ hsiblings => ?_
  have hfind : (siblings.find? (·.value == value)).map Node.bare =
      (siblings'.find? (·.value == value)).map Node.bare := by
    rw [← find?_nodes_bare fun _ => rfl, hsiblings, find?_nodes_bare fun _ => rfl]
  cases hfound : siblings.find? (·.value == value) with
  | some found =>
    cases hfound' : siblings'.find? (·.value == value) with
    | some found' =>
      rw [hfound, hfound'] at hfind
      exact .pure hst ⟨Option.some.inj hfind, rfl⟩
    | none =>
      rw [hfound, hfound'] at hfind
      cases hfind
  | none =>
    cases hfound' : siblings'.find? (·.value == value) with
    | some found' =>
      rw [hfound, hfound'] at hfind
      cases hfind
    | none =>
      refine .ask_same rfl fun name _ => ?_
      exact (matches_insertChild hparent hsiblings hst name).bind
        fun made made' _ _ _ _ hmade h₁ => .pure h₁ ⟨congrArg Node.bare hmade, rfl⟩

theorem matches_descend {node node' : Node} (hnode : node.bare = node'.bare) (hst : s.bare = t.bare)
    (values : List String) :
    Matches (fun last last' => last.bare = last'.bare) (descend node values s) (descend node' values t) := by
  induction values generalizing s t node node' with
  | nil => exact .pure hst hnode
  | cons value rest ih =>
    exact (matches_getOrInsertChild hnode hst value).bind fun _ _ _ _ _ _ hchild h₁ => ih hchild.1 h₁

theorem matches_createPath (hst : s.bare = t.bare) (path : String) :
    Matches (fun last last' => last.bare = last'.bare) (createPath hierarchy path s)
      (createPath hierarchy path t) := by
  rw [createPath, Transaction.get_bind, Transaction.get_bind]
  refine .ask (requireRoot_agree hst hierarchy) fun root root' _ _ hroot => ?_
  have hvalue : root.value = root'.value := Node.bare_congr (·.value) (fun _ => rfl) hroot
  rw [hvalue]
  exact matches_descend hroot hst _

theorem matches_createChild (hst : s.bare = t.bare) (id : NodeId) (value : Option String)
    (preset : String) :
    Matches Eq (createChild hierarchy id value preset s) (createChild hierarchy id value preset t) := by
  rw [createChild, Transaction.get_bind, Transaction.get_bind]
  refine .ask (requireNode_agree hst id) fun parent parent' _ _ hparent => ?_
  rw [Transaction.get_bind, Transaction.get_bind]
  refine .ask (children_agree hparent hst) fun siblings siblings' _ _ hsiblings => ?_
  have hvalues : siblings.map (·.value) = siblings'.map (·.value) := by
    have hfields := congrArg (List.map Node.value) hsiblings
    rwa [List.map_map, List.map_map] at hfields
  cases value with
  | none =>
    dsimp only
    rw [hvalues]
    exact (Matches.word hst _).bind fun _ _ _ _ _ _ _ h₁ => matches_insertChild hparent hsiblings h₁ _
  | some value =>
    refine .ask_same rfl fun name _ => ?_
    have hkey : parent.key = parent'.key := Node.bare_congr (·.key) (fun _ => rfl) hparent
    have htaken : siblings.any (·.value == name) = siblings'.any (·.value == name) := by
      have hbare := congrArg (List.any · (·.value == name)) hsiblings
      rwa [List.any_map, List.any_map] at hbare
    rw [htaken, hkey]
    by_cases hold : siblings'.any (·.value == name) = true
    · rw [if_pos hold, if_pos hold]
      exact .throw_bind _
    · rw [if_neg hold, if_neg hold]
      exact matches_insertChild hparent hsiblings hst name

theorem matches_createHierarchy (hst : s.bare = t.bare) (name : String) :
    Matches Eq (createHierarchy name s) (createHierarchy name t) := by
  have hhosts : s.hierarchies = t.hierarchies := bare_congr (·.hierarchies) (fun _ => rfl) hst
  have hinsert : Matches Eq (insertHierarchy name s) (insertHierarchy name t) := by
    rw [insertHierarchy, Transaction.get_bind, Transaction.get_bind, hhosts]
    refine .done rfl ?_
    exact congrArg (fun u : Store => { u with
      hierarchies := t.hierarchies ++ [Hierarchy.mk (nextId (t.hierarchies.map Hierarchy.id)) name] }) hst
  rw [createHierarchy]
  refine hinsert.bind fun id id' s₁ t₁ _ _ hid h₁ => ?_
  subst hid
  have hroots : s₁.rootKeys = t₁.rootKeys := by
    rw [← rootKeys_bare, h₁, rootKeys_bare]
  rw [Transaction.get_bind, Transaction.get_bind]
  refine .ask_same hroots fun keys _ => ?_
  refine (Matches.word h₁ _).bind fun _ _ s₂ t₂ _ _ _ h₂ => ?_
  refine (matches_insertNode h₂ _ name _).bind fun top top' s₃ t₃ _ _ htop h₃ => .pure h₃ ?_
  rw [htop]

theorem matches_removeNode (hst : s.bare = t.bare) (id : NodeId) :
    Matches (fun _ _ => True) (removeNode hierarchy id s) (removeNode hierarchy id t) := by
  rw [removeNode, Transaction.get_bind, Transaction.get_bind]
  refine .ask (requireNode_agree hst id) fun node node' _ _ hnode => ?_
  have hkey : node.key = node'.key := Node.bare_congr (·.key) (fun _ => rfl) hnode
  have hid : node.id = node'.id := Node.bare_congr (·.id) (fun _ => rfl) hnode
  have hchildren : s.hasChildren hierarchy node'.key = t.hasChildren hierarchy node'.key := by
    rw [← hasChildren_bare, hst, hasChildren_bare]
  have hassets : s.directAssets node'.id = t.directAssets node'.id :=
    bare_congr (·.directAssets node'.id) (fun _ => rfl) hst
  rw [hkey, hid, hchildren, hassets]
  by_cases hroot : node'.key.isRoot = true
  · rw [if_pos hroot, if_pos hroot]
    exact .throw_bind _
  · rw [if_neg hroot, if_neg hroot]
    by_cases hfull : (t.hasChildren hierarchy node'.key || !(t.directAssets node'.id).isEmpty) = true
    · rw [if_pos hfull, if_pos hfull]
      exact .throw_bind _
    · rw [if_neg hfull, if_neg hfull]
      refine .done trivial ?_
      rw [← deleteNode_bare, hst, deleteNode_bare]

/-! ## Reconciliation -/

theorem rootFindings_bare (nodes : List Node) :
    Report.rootFindings (nodes.map Node.bare) = Report.rootFindings nodes := by
  match nodes with
  | [] => rfl
  | [_] => rfl
  | first :: second :: rest =>
    show [(⟨.error, s!"hierarchy has {((first :: second :: rest).map Node.bare).length} root nodes"⟩ :
      Finding)] = _
    rw [List.length_map]
    rfl

theorem parentFindings_bare (nodes : List Node) :
    Report.parentFindings (nodes.map Node.bare) = Report.parentFindings nodes := by
  rw [Report.parentFindings, List.filterMap_map, keys_bare]
  rfl

theorem examined_bare {nodes nodes' : List Node} (hnodes : nodes.map Node.bare = nodes'.map Node.bare)
    (hst : s.bare = t.bare) (mode : Mode) (totals totals' : Totals) :
    (s.examined hierarchy mode nodes totals).bare = (t.examined hierarchy mode nodes' totals').bare := by
  have hroots : Report.rootFindings (nodes.filter (·.key.isRoot)) =
      Report.rootFindings (nodes'.filter (·.key.isRoot)) := by
    rw [← rootFindings_bare, ← filter_nodes_bare fun _ => rfl, hnodes, filter_nodes_bare fun _ => rfl,
      rootFindings_bare]
  have hparents : Report.parentFindings nodes = Report.parentFindings nodes' := by
    rw [← parentFindings_bare, hnodes, parentFindings_bare]
  have hlength : nodes.length = nodes'.length := by
    rw [← List.length_map (f := Node.bare), hnodes, List.length_map]
  have hassets : (s.assetsOf hierarchy).length = (t.assetsOf hierarchy).length :=
    bare_congr (fun u => (u.assetsOf hierarchy).length) (fun _ => rfl) hst
  rw [examined, examined, Report.bare, Report.bare]
  simp only [hroots, hparents, hlength, hassets]

theorem repaired_bare (s : Store) (hierarchy : HierarchyId) (nodes : List Node) (value : Node → Int) :
    ((s.setAmounts nodes value).unmark hierarchy).bare = s.bare := by
  have halike := alike_setAmounts s nodes value
  exact bare_eq_iff.2 ⟨halike.hierarchies, halike.nodes, halike.assets,
    setAmounts_attachments s nodes value⟩

/-- A reconciliation of stores without orphans differs in what it finds out about amounts only. -/
theorem matches_reconcile (hs : s.Placed) (hst : s.bare = t.bare) (mode : Mode) :
    Matches (fun report report' => report.bare = report'.bare)
      (reconcile hierarchy mode s) (reconcile hierarchy mode t) := by
  have hnodes : List.map Node.bare <$> s.nodesOf hierarchy =
      List.map Node.bare <$> t.nodesOf hierarchy := by
    rw [← nodesOf_bare, ← nodesOf_bare, hst]
  have hpairs : s.keyedAssets (s.rowsOf hierarchy) = t.keyedAssets (t.rowsOf hierarchy) := by
    rw [← keyedAssets_bare, ← rowsOf_bare, hst, rowsOf_bare, keyedAssets_bare]
  obtain ⟨-, -, hassets, hattached⟩ := bare_eq_iff.1 hst
  have ht : t.Placed := by
    rw [Placed, ← hassets, ← hattached]
    exact hs
  rw [reconcile_placed hs, reconcile_placed ht, hpairs]
  refine .of_answers hnodes fun nodes nodes' _ _ hsame => ?_
  refine .of_answers (f := id) (g := id) rfl fun pairs pairs' _ _ _ => ?_
  refine .done (examined_bare hsame hst mode _ _) ?_
  cases mode with
  | checkOnly => exact hst
  | repair =>
    rw [if_pos rfl, if_pos rfl, repaired_bare, repaired_bare]
    exact hst

end Inventory.Store
