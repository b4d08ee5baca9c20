import Inventory.Proofs.Paths
import Inventory.Proofs.Preorder

/-! # Paths are created once

A request for a path goes down from the root of a hierarchy along the names of the path, and creates
what is missing on the way. Another request for it, or for the full path of the node that has been
reached, finds that node and changes nothing. A path may begin with the name of the root, as full paths
do; there the first name is passed over, but a child of the root may have this name as well. -/
namespace Inventory
set_option autoImplicit false

namespace Store
variable {s t : Store} {hierarchy : HierarchyId} {root last : Node} {visited : List Node}

theorem Tidy.makes_getOrCreateChild (hs : s.Tidy) {parent child : Node} {created : Bool}
    (hparent : parent.row ∈ s.nodes) (hplain : Name.Plain child.value)
    (h : getOrInsertChild parent child.value s = .ok ((child, created), t)) :
    s.Makes parent.hierarchy (.getOrCreateChild parent.id child.value) (.child child created) t := by
  intro σ env w henv hstore hfree
  subst hstore
  have hfound := hs.requireNode_eq hparent
  have hname : (Action.lift (Name.validate child.value) : Action σ String) env w =
      (.ok child.value, w) := by
    rw [hplain]
    rfl
  have hhost : (Tree.hierarchyOf parent.id : Action σ HierarchyId) env w =
      (.ok parent.hierarchy, w) := by
    rw [Tree.hierarchyOf, Action.map_run]
    show ((·.hierarchy) <$> w.tree.store.requireNode parent.id, w) = _
    rw [hfound]
    rfl
  have hchange : (do getOrInsertChild (← (← get).requireNode parent.id) child.value :
      Transaction (Node × Bool)) w.tree.store = .ok ((child, created), t) := by
    rw [Transaction.get_bind]
    exact Transaction.lift_bind_eq_ok.2 ⟨parent, hfound, h⟩
  obtain ⟨hresult, htree⟩ := Action.holding_write henv hfree hchange
  rw [Request.run_getOrCreateChild, Action.map_run, Tree.getOrCreateChild, Action.bind_of_ok hname,
    Action.bind_of_ok hhost, hresult]
  exact ⟨rfl, htree⟩

/-! ## The nodes along a path -/

/-- What following names down from a root comes to: the nodes on the way, the last of them, and the
store. -/
structure Route (s : Store) (root : Node) (names : List String) (visited : List Node) (last : Node)
    (t : Store) : Prop where
  values : visited.map (·.value) = names
  chain : (root :: visited).IsChain s.Link
  reached : last = visited.getLastD root
  fullValue : last.fullValue = Name.extend root.fullValue names
  /-- The rows of the nodes that were missing have come, and all else is as before. -/
  grown : t = s.withRows (s.fresh visited)

theorem Tidy.exists_route (hs : s.Tidy) (hroot : root.row ∈ s.nodes)
    (hroom : s.Roomy root.hierarchy) {names : List String} (hplain : ∀ name ∈ names, Name.Plain name) :
    ∃ visited last t, s.Route root names visited last t ∧ t.Tidy ∧
      descend root names s = .ok (last, t) := by
  have hnone : s.withRows [] = s := by rw [withRows, List.append_nil]
  have hfirst : Overhead [] root.key := fun _ hrow => absurd hrow List.not_mem_nil
  rw [← hnone] at hs hroot
  obtain ⟨visited, hgoes, htidy, hchain, rfl⟩ := hs.exists_descent hfirst hroot hroom hplain
  rw [hnone, List.nil_append] at hgoes
  rw [List.nil_append] at htidy
  exact ⟨visited, _, _, ⟨rfl, hchain, rfl, fullValue_getLastD hchain, rfl⟩, htidy, hgoes⟩

section
variable {names : List String} (h : s.Route root names visited last t) (ht : t.Tidy)
  (hroot : root.row ∈ s.nodes)
include h

theorem Route.mem {node : Node} (hnode : node ∈ visited) : node.row ∈ t.nodes :=
  h.grown ▸ mem_withRows_fresh hnode

include hroot in
theorem Route.mem_root : root.row ∈ t.nodes :=
  h.grown ▸ List.mem_append_left _ hroot

include ht

/-- What has been created is found. -/
theorem Route.again : descend root names t = .ok (last, t) := by
  rw [← h.values, h.reached]
  exact ht.descend_eq_of_linked h.chain fun _ => h.mem

include hroot in
theorem Route.steps (hplain : ∀ name ∈ names, Name.Plain name) :
    (root :: visited).IsChain fun parent child =>
      t.Makes root.hierarchy (.getOrCreateChild parent.id child.value) (.child child false) t := by
  refine h.chain.imp_of_mem_tail_imp fun parent child hparent hchild hlink => ?_
  have hname : Name.Plain child.value := hplain _ (h.values ▸ List.mem_map_of_mem hchild)
  have hknown : parent.row ∈ t.nodes := by
    rcases List.mem_cons.1 hparent with rfl | hlater
    · exact h.mem_root hroot
    · exact h.mem hlater
  rw [← hierarchy_of_linked h.chain parent hparent]
  exact ht.makes_getOrCreateChild hknown hname
    (ht.getOrInsertChild_eq (h.mem hchild) hlink.hierarchy hlink.below)

end

/-- For any path in a hierarchy, a request for it leads from the root along the names of the path, and
creates the nodes that are missing. After that, this request, one for the full path of the last node and
those for the children on the way find these nodes. -/
theorem Reachable.path_created (h : s.Reachable) (hhost : ∃ host ∈ s.hierarchies, host.id = hierarchy)
    (hroom : s.Roomy hierarchy) (path : String) :
    ∃ root visited last t, s.Answers (.root hierarchy) (.node root) ∧
      s.Route root (Name.below root.value path) visited last t ∧
      s.Makes hierarchy (.createPath hierarchy path) (.node last) t ∧
      t.Makes hierarchy (.createPath hierarchy path) (.node last) t ∧
      t.Makes hierarchy (.createPath hierarchy last.fullValue) (.node last) t ∧
      (root :: visited).IsChain fun parent child =>
        t.Makes hierarchy (.getOrCreateChild parent.id child.value) (.child child false) t := by
  have hs := h.tidy
  obtain ⟨root, hfound, hroot, rfl, htop⟩ := hs.formed.exists_requireRoot hs.legible hhost
  have hplain : ∀ name ∈ Name.below root.value path, Name.Plain name :=
    fun _ => Name.plain_of_mem_below
  obtain ⟨visited, last, t, hroute, ht, hgoes⟩ := hs.exists_route hroot hroom hplain
  have hagain := hroute.again ht
  have hfound' := ht.requireRoot_eq (hroute.mem_root hroot) htop
  -- the full path of the last node has the same names below the root
  obtain ⟨hname, hhead⟩ := h.headed root.row hroot htop
  have hsame : Name.below root.value last.fullValue = Name.below root.value path := by
    rw [hroute.fullValue]
    show Name.below root.value (Name.extend root.row.fullValue _) = _
    rw [hhead]
    exact Name.below_extend hname hplain
  exact ⟨root, visited, last, t, answers_of_read .node (·.requireRoot root.hierarchy) rfl hfound,
    hroute, makes_createPath (createPath_eq_of_descend hfound hgoes),
    makes_createPath (createPath_eq_of_descend hfound' hagain),
    makes_createPath (createPath_eq_of_descend hfound' (hsame.symm ▸ hagain)),
    hroute.steps ht hroot hplain⟩

/-- Of the three nodes below the root, one is there before. -/
theorem path_created_gallery : ∃ last t,
    (({} : Tree).after gallery).store.Makes 1 (.createPath 1 "Gallery/ Maps /New//Deep") (.node last) t ∧
      t.Makes 1 (.createPath 1 last.fullValue) (.node last) t ∧
      last.fullValue = "/Gallery/Maps/New/Deep" := by
  have hreachable : (({} : Tree).after gallery).store.Reachable :=
    Tree.reachable_after Reachable.empty gallery
  have hhost : ∃ host ∈ (({} : Tree).after gallery).store.hierarchies, host.id = 1 := by decide +kernel
  have hroom : (({} : Tree).after gallery).store.Roomy 1 := by
    intro row hrow _ key hkey
    have hknown : ∀ row ∈ (({} : Tree).after gallery).store.nodes,
        ∃ known ∈ [Key.mk 1 [], ⟨1, [1]⟩, ⟨1, [2]⟩, ⟨1, [1, 1]⟩], row.key = known.text := by
      decide +kernel
    obtain ⟨known, hmem, hsame⟩ := hknown row hrow
    rw [Key.text_injective (hkey.symm.trans hsame)]
    exact (by decide : ∀ known ∈ [Key.mk 1 [], ⟨1, [1]⟩, ⟨1, [2]⟩, ⟨1, [1, 1]⟩],
      known.lastSegment < Text.maxWord) known hmem
  let top : Node := ⟨1, 1, ⟨1, []⟩, "Gallery", "/Gallery", 0⟩
  have htop : top.row ∈ (({} : Tree).after gallery).store.nodes := by decide +kernel
  have hroot : (({} : Tree).after gallery).store.Answers (.root 1) (.node top) :=
    answers_of_read .node (·.requireRoot 1) rfl (hreachable.tidy.requireRoot_eq htop rfl)
  obtain ⟨root, visited, last, t, hfound, hroute, hmakes, -, hagain, -⟩ :=
    hreachable.path_created hhost hroom "Gallery/ Maps /New//Deep"
  obtain rfl : top = root := Answer.node.inj (hroot.unique hfound)
  refine ⟨last, t, hmakes, hagain, hroute.fullValue.trans ?_⟩
  decide +kernel

end Store
end Inventory
