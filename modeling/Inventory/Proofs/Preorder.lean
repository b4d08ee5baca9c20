import Inventory.Proofs.Forest
import Inventory.Proofs.Store.Mistakes

/-! # A walk through a tree

A walk goes from the root of a hierarchy to its children, in the order in which they are answered,
and below each of them before the next. It comes to the nodes in the order of their keys: what waits
to be walked is always ascending with no node below another, so the first of it and all below it come
before the others. -/
namespace Inventory
set_option autoImplicit false

/-! ## Nodes at or below a front -/

section Nodes
variable {nodes front rest : List Node} {top node : Node}

/-- The listed nodes at or below one of the front. -/
def nodesUnder (nodes front : List Node) : List Node :=
  nodes.filter fun node => front.any fun top => node.key.isDescendantOrSelf top.key

/-- The listed children of a node. -/
def childrenIn (nodes : List Node) (parent : Node) : List Node :=
  nodes.filter fun node => decide (node.key.parent? = some parent.key)

theorem mem_nodesUnder : node ∈ nodesUnder nodes front ↔
    node ∈ nodes ∧ ∃ top ∈ front, node.key.isDescendantOrSelf top.key = true := by
  simp [nodesUnder]

theorem mem_childrenIn : node ∈ childrenIn nodes top ↔
    node ∈ nodes ∧ node.key.parent? = some top.key := by
  simp [childrenIn]

/-- Ascending lists with the same nodes are the same. -/
theorem eq_of_ascending {nodes' : List Node} (h : nodes.Pairwise fun a b => a.key < b.key)
    (h' : nodes'.Pairwise fun a b => a.key < b.key) (hmem : ∀ node, node ∈ nodes ↔ node ∈ nodes') :
    nodes = nodes' :=
  eq_of_pairwise_of_mem (fun _ _ => Key.precedes_asymm) h h' hmem

/-- The nodes ascend, and with a node come all that stand above it. -/
structure Complete (nodes : List Node) : Prop where
  ascending : nodes.Pairwise fun a b => a.key < b.key
  above : ∀ node ∈ nodes, ∀ key, node.key.isDescendantOrSelf key = true → ∃ other ∈ nodes, other.key = key

/-- Listed nodes that wait to be walked: they ascend, and none is below another. -/
structure Front (nodes front : List Node) : Prop where
  listed : ∀ top ∈ front, top ∈ nodes
  apart : front.Pairwise fun a b => a.key < b.key ∧ b.key.isDescendantOrSelf a.key = false

theorem descendant_of_mem_childrenIn (h : node ∈ childrenIn nodes top) :
    node.key.isDescendantOrSelf top.key = true ∧ top.key < node.key := by
  obtain ⟨-, hup⟩ := mem_childrenIn.1 h
  have hbelow : node.key.isDescendantOrSelf top.key = true :=
    (Key.descendant_iff_of_parent? hup).2 (Or.inr (Key.descendant_refl top.key))
  refine ⟨hbelow, Key.lt_of_descendant hbelow fun hsame => ?_⟩
  obtain ⟨segment, hchild⟩ := Key.eq_child_of_parent? hup
  have hlength := congrArg (List.length ∘ Key.segments) (hsame.symm.trans hchild)
  simp [Key.segments_child] at hlength

theorem Complete.eq_of_key (h : Complete nodes) {other : Node} (hnode : node ∈ nodes)
    (hother : other ∈ nodes) (heq : node.key = other.key) : node = other := by
  refine List.inj_on_of_nodup_map (List.pairwise_map.2 (h.ascending.imp fun hlt hsame => ?_)) hnode
    hother heq
  exact Key.precedes_irrefl _ (hsame ▸ hlt)

/-- A node below another one is that one or lies below a child of it. -/
theorem Complete.below_iff (h : Complete nodes) (htop : top ∈ nodes) (hnode : node ∈ nodes) :
    node.key.isDescendantOrSelf top.key = true ↔
      node = top ∨ ∃ kid ∈ childrenIn nodes top, node.key.isDescendantOrSelf kid.key = true := by
  constructor
  · intro hbelow
    by_cases hsame : node.key = top.key
    · exact Or.inl (h.eq_of_key hnode htop hsame)
    · obtain ⟨segment, hchild⟩ := Key.exists_child_above hbelow hsame
      obtain ⟨kid, hkid, hkey⟩ := h.above node hnode _ hchild
      refine Or.inr ⟨kid, mem_childrenIn.2 ⟨hkid, ?_⟩, hkey ▸ hchild⟩
      rw [hkey, Key.parent?_child]
  · rintro (rfl | ⟨kid, hkid, hbelow⟩)
    · exact Key.descendant_refl node.key
    · exact Key.descendant_trans hbelow (descendant_of_mem_childrenIn hkid).1

/-- A front in which the first node has been replaced by its children is a front again. -/
theorem Front.step (hfront : Front nodes (top :: rest)) (h : Complete nodes) :
    Front nodes (childrenIn nodes top ++ rest) := by
  obtain ⟨htop, hrest⟩ := List.pairwise_cons.1 hfront.apart
  refine ⟨fun node hnode => ?_, List.pairwise_append.2 ⟨?_, hrest, fun kid hkid other hother => ?_⟩⟩
  · rcases List.mem_append.1 hnode with hnode | hnode
    · exact (mem_childrenIn.1 hnode).1
    · exact hfront.listed node (List.mem_cons_of_mem _ hnode)
  · refine (List.Pairwise.and_mem.1 (h.ascending.sublist List.filter_sublist)).imp ?_
    rintro a b ⟨ha, hb, hlt⟩
    refine ⟨hlt, ?_⟩
    -- siblings are at one depth
    rw [← Bool.not_eq_true]
    intro hbelow
    have hup := (mem_childrenIn.1 hb).2
    rcases (Key.descendant_iff_of_parent? hup).1 hbelow with hsame | habove
    · exact Key.precedes_irrefl _ (hsame ▸ hlt)
    · exact Key.not_lt_of_extends (Key.isDescendantOrSelf_iff.1 habove) (descendant_of_mem_childrenIn ha).2
  · obtain ⟨hbelow, -⟩ := descendant_of_mem_childrenIn hkid
    obtain ⟨hlt, hapart⟩ := htop other hother
    have hnot : ¬other.key.isDescendantOrSelf top.key = true := by simp [hapart]
    refine ⟨?_, ?_⟩
    · -- the subtree of the first node is unbroken, and the other one is beyond it
      rcases Key.precedes_trichotomy kid.key other.key with hlt' | hsame | hlt'
      · exact hlt'
      · exact absurd (hsame ▸ hbelow) hnot
      · refine absurd (Key.descendant_of_between ?_ ?_ hbelow) hnot
        · exact fun hback => Key.precedes_irrefl _ (Key.precedes_trans hlt hback)
        · exact fun hback => Key.precedes_irrefl _ (Key.precedes_trans hlt' hback)
    · rw [← Bool.not_eq_true]
      exact fun hunder => hnot (Key.descendant_trans hunder hbelow)

/-- The first node of a front comes first of all that lie at or below the front. -/
theorem Front.nodesUnder_cons (hfront : Front nodes (top :: rest)) (h : Complete nodes) :
    nodesUnder nodes (top :: rest) = top :: nodesUnder nodes (childrenIn nodes top ++ rest) := by
  have htop := hfront.listed top List.mem_cons_self
  have hlater : ∀ node ∈ nodesUnder nodes (childrenIn nodes top ++ rest), top.key < node.key := by
    intro node hnode
    obtain ⟨-, upper, hupper, hbelow⟩ := mem_nodesUnder.1 hnode
    refine Key.lt_of_lt_of_descendant ?_ hbelow
    rcases List.mem_append.1 hupper with hkid | hrest
    · exact (descendant_of_mem_childrenIn hkid).2
    · exact ((List.pairwise_cons.1 hfront.apart).1 upper hrest).1
  refine eq_of_ascending (h.ascending.sublist List.filter_sublist)
    (List.pairwise_cons.2 ⟨hlater, h.ascending.sublist List.filter_sublist⟩) fun node => ?_
  simp only [List.mem_cons, mem_nodesUnder, List.mem_append]
  constructor
  · rintro ⟨hnode, upper, rfl | hupper, hbelow⟩
    · rcases (h.below_iff htop hnode).1 hbelow with rfl | ⟨kid, hkid, hunder⟩
      · exact Or.inl rfl
      · exact Or.inr ⟨hnode, kid, Or.inl hkid, hunder⟩
    · exact Or.inr ⟨hnode, upper, Or.inr hupper, hbelow⟩
  · rintro (rfl | ⟨hnode, upper, hupper | hupper, hbelow⟩)
    · exact ⟨htop, node, Or.inl rfl, Key.descendant_refl node.key⟩
    · exact ⟨hnode, top, Or.inl rfl, (h.below_iff htop hnode).2 (Or.inr ⟨upper, hupper, hbelow⟩)⟩
    · exact ⟨hnode, upper, Or.inr hupper, hbelow⟩

end Nodes

namespace Store
variable {s : Store} {hierarchy : HierarchyId}

/-! ## The walk -/

/-- The nodes that a walk comes to from a front: the first of the front, and then its children, as
they are answered, before the rest of it. -/
inductive Visits (s : Store) : List Node → List Node → Prop
  | done : Visits s [] []
  | step {node : Node} {kids rest visited : List Node}
      (hkids : s.Answers (.children node.id) (.nodes kids)) (hrest : Visits s (kids ++ rest) visited) :
      Visits s (node :: rest) (node :: visited)

theorem Visits.unique {front visited visited' : List Node} (h : s.Visits front visited)
    (h' : s.Visits front visited') : visited = visited' := by
  induction h generalizing visited' with
  | done =>
    cases h'
    rfl
  | step hkids _ ih =>
    cases h' with
    | step hkids' hrest' =>
      cases hkids.unique hkids'
      rw [ih hrest']

/-- A walk comes to the nodes at or below its front in the order of their keys. -/
theorem visits_nodesUnder {nodes : List Node} (h : Complete nodes)
    (hkids : ∀ node ∈ nodes, s.Answers (.children node.id) (.nodes (childrenIn nodes node)))
    {front : List Node} (hfront : Front nodes front) : s.Visits front (nodesUnder nodes front) := by
  -- each step takes the first node off those at or below the front
  induction hcount : (nodesUnder nodes front).length generalizing front with
  | zero =>
    cases front with
    | nil =>
      rw [List.length_eq_zero_iff.1 hcount]
      exact .done
    | cons top rest =>
      rw [hfront.nodesUnder_cons h] at hcount
      cases hcount
  | succ n ih =>
    cases front with
    | nil => simp [nodesUnder] at hcount
    | cons top rest =>
      rw [hfront.nodesUnder_cons h] at hcount ⊢
      exact .step (hkids top (hfront.listed top List.mem_cons_self))
        (ih (hfront.step h) (Nat.succ.inj hcount))

/-! ## The nodes of a hierarchy -/

section Hierarchy
variable {nodes : List Node} (hs : s.Tidy)
  (hmem : ∀ node, node ∈ nodes ↔ node.row ∈ s.nodes ∧ node.hierarchy = hierarchy)
include hs hmem

/-- All nodes of a hierarchy lie at or below its root. -/
theorem Tidy.nodesUnder_root {root : Node} (hroot : root ∈ nodes) (htop : root.row.parentKey = "") :
    nodesUnder nodes [root] = nodes := by
  obtain ⟨hrow, hh⟩ := (hmem root).1 hroot
  have hpath : root.key.path = [] := Key.parent?_eq_none.1 (Key.parentText_eq_empty.1 htop)
  rw [nodesUnder, List.filter_eq_self]
  intro node hnode
  obtain ⟨hin, hh'⟩ := (hmem node).1 hnode
  have hsame := (hs.formed.apart root.row hrow node.row hin root.key node.key rfl rfl).1
    (hh.trans hh'.symm)
  rw [List.any_cons, List.any_nil, Bool.or_false, Key.isDescendantOrSelf_iff, Key.segments, hpath,
    hsame]
  exact List.cons_prefix_cons.2 ⟨rfl, List.nil_prefix⟩

variable (hascending : nodes.Pairwise fun a b => a.key < b.key)
include hascending

theorem Tidy.complete : Complete nodes where
  ascending := hascending
  above node hnode key hbelow := by
    obtain ⟨hrow, hh⟩ := (hmem node).1 hnode
    obtain ⟨row, hin, hkey⟩ := exists_above hs.formed hs.parented hrow rfl hbelow
    obtain ⟨other, rfl⟩ := hs.exists_node hin
    obtain rfl : other.key = key := Key.text_injective hkey
    have hsame := hs.formed.hierarchy_of_below hrow hin (Key.isTextBelow_text.2 hbelow)
    exact ⟨other, (hmem other).2 ⟨hin, hsame.symm.trans hh⟩, rfl⟩

theorem Tidy.answers_children {node : Node} (hnode : node ∈ nodes) :
    s.Answers (.children node.id) (.nodes (childrenIn nodes node)) := by
  obtain ⟨hrow, hh⟩ := (hmem node).1 hnode
  obtain ⟨kids, hkids, hordered, hkid⟩ := hs.exists_children hierarchy node.key
  have hlist : kids = childrenIn nodes node := by
    refine eq_of_ascending hordered (hascending.sublist List.filter_sublist) fun kid => ?_
    rw [hkid, mem_childrenIn, hmem, and_assoc]
  have hread : (s.requireNode node.id >>= fun node => s.children node.hierarchy node.key) =
      .ok (childrenIn nodes node) := by
    rw [hs.requireNode_eq hrow, ok_bind, hh, hkids, hlist]
  have hrun : ∀ {σ : Type}, ((Request.children node.id).run : Action σ Answer) =
      .nodes <$> Action.read fun s =>
        s.requireNode node.id >>= fun node => s.children node.hierarchy node.key := rfl
  exact answers_of_read .nodes _ hrun hread

end Hierarchy

/-- The nodes of a hierarchy are listed in the order in which a walk from the root comes to them, each
once, and the children of a node are the nodes whose keys have one more segment. -/
theorem Reachable.preorder (h : s.Reachable) (hhost : ∃ host ∈ s.hierarchies, host.id = hierarchy) :
    ∃ root nodes, s.Answers (.root hierarchy) (.node root) ∧
      s.Answers (.nodes hierarchy) (.nodes nodes) ∧
      (nodes.Pairwise fun a b => a.key < b.key) ∧
      (∀ node, node ∈ nodes ↔ node.row ∈ s.nodes ∧ node.hierarchy = hierarchy) ∧
      (∀ visited, s.Visits [root] visited ↔ visited = nodes) ∧
      ∀ node ∈ nodes, ∃ kids, s.Answers (.children node.id) (.nodes kids) ∧ kids.Sublist nodes ∧
        ∀ kid, kid ∈ kids ↔ kid ∈ nodes ∧ ∃ segment, kid.key = node.key.child segment := by
  have hs := h.tidy
  obtain ⟨root, hfound, hrow, hh, htop⟩ := hs.formed.exists_requireRoot hs.legible hhost
  obtain ⟨nodes, hnodes, hascending, hmem⟩ := hs.exists_nodes hierarchy
  have hroot : root ∈ nodes := (hmem root).2 ⟨hrow, hh⟩
  have hfront : Front nodes [root] := ⟨by simpa using hroot, List.pairwise_singleton _ root⟩
  have hwalk := visits_nodesUnder (hs.complete hmem hascending)
    (fun node hnode => hs.answers_children hmem hascending hnode) hfront
  rw [hs.nodesUnder_root hmem hroot htop] at hwalk
  refine ⟨root, nodes, answers_of_read .node (·.requireRoot hierarchy) rfl hfound,
    answers_of_read .nodes (·.nodesOf hierarchy) rfl hnodes, hascending, hmem, fun visited => ?_,
    fun node hnode => ⟨childrenIn nodes node, hs.answers_children hmem hascending hnode,
      List.filter_sublist, fun kid => ?_⟩⟩
  · constructor
    · exact fun hvisits => hvisits.unique hwalk
    · rintro rfl
      exact hwalk
  · rw [mem_childrenIn]
    refine and_congr_right fun _ => ⟨Key.eq_child_of_parent?, ?_⟩
    rintro ⟨segment, hkey⟩
    rw [hkey, Key.parent?_child]

/-- A hierarchy in which the nodes of one branch have not been created one after another. -/
def gallery : List Request :=
  [.createHierarchy "Gallery", .createChild 1 (some "Maps"), .createChild 1 (some "Prints"),
    .createChild 2 (some "Old")]

theorem preorder_gallery : ∃ root nodes,
    (({} : Tree).after gallery).store.Answers (.nodes 1) (.nodes nodes) ∧
      (({} : Tree).after gallery).store.Visits [root] nodes ∧
      nodes.map (·.value) = ["Gallery", "Maps", "Old", "Prints"] := by
  let listed : List Node :=
    [⟨1, 1, ⟨1, []⟩, "Gallery", "/Gallery", 0⟩, ⟨2, 1, ⟨1, [1]⟩, "Maps", "/Gallery/Maps", 0⟩,
      ⟨4, 1, ⟨1, [1, 1]⟩, "Old", "/Gallery/Maps/Old", 0⟩, ⟨3, 1, ⟨1, [2]⟩, "Prints", "/Gallery/Prints", 0⟩]
  have hrows : (listed.map Node.row).Perm (({} : Tree).after gallery).store.nodes := by decide +kernel
  have hhost : ∃ host ∈ (({} : Tree).after gallery).store.hierarchies, host.id = 1 := by decide +kernel
  obtain ⟨root, nodes, -, hnodes, hascending, hmem, hvisits, -⟩ :=
    (Tree.reachable_after Reachable.empty gallery).preorder hhost
  obtain rfl : nodes = listed := by
    refine eq_of_ascending hascending (by decide) fun node => (hmem node).trans ?_
    rw [← hrows.mem_iff, List.mem_map_of_injective Node.row_injective, and_iff_left_iff_imp]
    simp only [listed, List.mem_cons, List.not_mem_nil, or_false]
    rintro (rfl | rfl | rfl | rfl) <;> rfl
  exact ⟨root, _, hnodes, (hvisits _).2 rfl, rfl⟩

end Store
end Inventory
