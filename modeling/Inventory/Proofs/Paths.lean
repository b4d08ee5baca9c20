import Inventory.Config.Basic
import Inventory.Proofs.Forest
import Inventory.Proofs.Store.Descent
import Inventory.Proofs.Store.Mistakes
import Inventory.Proofs.Store.Worded
import Inventory.Proofs.Tree.Repair

/-! # Paths address nodes

Going down the full path of a node leads to that node and creates nothing, so that no two nodes of a
hierarchy have the same path. Names have to be stored as they are for this. A preset text that
begins with a blank or has a slash in it gets past the checks that all other names undergo, and the
nodes that are named after it are not found by their paths. -/
namespace Inventory
set_option autoImplicit false
open Relation

/-! ## Going down a path -/

namespace Store
variable {s t : Store} {hierarchy : HierarchyId} {path : String} {last : Node}

/-- The names along a path lead from the root to its node. -/
theorem Tidy.descend_eq (hs : s.Tidy) (hw : s.Worded) {root node : Node}
    (hroot : root.row ∈ s.nodes) (htop : root.row.parentKey = "") (hnode : node.row ∈ s.nodes)
    (hh : node.hierarchy = root.hierarchy) :
    ∃ values, Name.parts node.fullValue = root.value :: values ∧
      descend root values s = .ok (node, s) := by
  induction hdepth : node.key.path.length generalizing node with
  | zero =>
    have hp : node.row.parentKey = "" :=
      Key.parentText_eq_empty.2 (Key.parent?_eq_none.2 (List.eq_nil_of_length_eq_zero hdepth))
    have hsame : node = root :=
      Node.row_injective (hs.formed.root_unique hnode hroot hh hp htop)
    rw [hsame]
    refine ⟨[], ?_, rfl⟩
    have hfull : root.fullValue = "/" ++ root.value := hw.root root.row hroot htop
    rw [hfull]
    exact (hw.plain root.row hroot).parts_root
  | succ depth ih =>
    cases hup : node.key.parent? with
    | none =>
      rw [Key.parent?_eq_none.1 hup] at hdepth
      cases hdepth
    | some above =>
      obtain ⟨last, hlast⟩ := Key.eq_child_of_parent? hup
      have hparentKey : node.row.parentKey = above.text := Key.parentText_of_parent? hup
      have hbelow : node.row.parentKey ≠ "" := hparentKey ▸ Key.text_ne_empty above
      obtain ⟨row, hrow, hrh, hrk⟩ := hs.parented node.row hnode hbelow
      obtain ⟨parent, rfl⟩ := hs.exists_node hrow
      have hkey : parent.key = above := Key.text_injective (hrk.trans hparentKey)
      have habove : parent.key.path.length = depth := by
        rw [hlast, Key.child, List.length_append, List.length_singleton] at hdepth
        rw [hkey]
        omega
      obtain ⟨values, hparts, hgoes⟩ := ih hrow (hrh.trans hh) habove
      have hfull : node.fullValue = parent.fullValue ++ "/" ++ node.value :=
        hs.titled.path node.row hnode parent.row hrow hrh hrk
      refine ⟨values ++ [node.value], ?_, ?_⟩
      · have hplain : Name.Plain node.value := hw.plain node.row hnode
        rw [hfull, Name.parts_append, hparts, hplain.parts_eq]
        rfl
      · rw [descend_append]
        refine Transaction.bind_eq_ok.2 ⟨parent, s, hgoes, ?_⟩
        have hchild := hs.getOrInsertChild_eq hnode hrh.symm (hkey ▸ hup)
        exact Transaction.bind_eq_ok.2 ⟨(node, false), s, hchild, rfl⟩

theorem createPath_eq_of_descend {root : Node} (hfound : s.requireRoot hierarchy = .ok root)
    (h : descend root (Name.below root.value path) s = .ok (last, t)) :
    createPath hierarchy path s = .ok (last, t) := by
  rw [createPath, Transaction.get_bind]
  exact Transaction.lift_bind_eq_ok.2 ⟨root, hfound, h⟩

theorem Tidy.createPath_eq (hs : s.Tidy) (hw : s.Worded) {node : Node}
    (hnode : node.row ∈ s.nodes) :
    createPath node.hierarchy node.fullValue s = .ok (node, s) := by
  obtain ⟨root, hfound, hroot, hh, htop⟩ :=
    hs.formed.exists_requireRoot hs.legible (hs.formed.hosted node.row hnode)
  obtain ⟨values, hparts, hgoes⟩ := hs.descend_eq hw hroot htop hnode hh.symm
  refine createPath_eq_of_descend hfound ?_
  rwa [Name.below, hparts, List.head?_cons, if_pos rfl, List.tail_cons]

/-- Whoever watches without acting on the tree, the request has this answer while the lease is free, and
makes one store of the other. -/
def Makes (s : Store) (hierarchy : HierarchyId) (request : Request) (answer : Answer) (t : Store) : Prop :=
  ∀ (σ : Type) (env : Surroundings σ) (w : World σ), env.Passive → w.tree.store = s →
    w.tree.leases.isHeld hierarchy = false →
      (request.run env w).1 = .ok answer ∧ (request.run env w).2.tree = { w.tree with store := t }

theorem makes_createPath (h : createPath hierarchy path s = .ok (last, t)) :
    s.Makes hierarchy (.createPath hierarchy path) (.node last) t := by
  intro σ env w henv hstore hfree
  rw [← hstore] at h
  obtain ⟨hresult, htree⟩ := Action.holding_write henv hfree h
  rw [Request.run, Tree.createPath, Action.map_run, hresult]
  exact ⟨rfl, htree⟩

/-- Every full path addresses its node. -/
structure Addressed (s : Store) : Prop where
  legible : ∀ row ∈ s.nodes, ∃ node : Node, row.read = .ok node
  /-- Names are not empty, have no blanks at their ends and no slashes. -/
  values : ∀ row ∈ s.nodes, row.value.toList ≠ [] ∧
    Text.trim row.value.toList = row.value.toList ∧ '/' ∉ row.value.toList
  /-- A request for the path gives the node and leaves the tree as it is. -/
  resolves : ∀ row ∈ s.nodes, ∀ node : Node, row.read = .ok node →
    ∀ {σ : Type} (env : Surroundings σ) (w : World σ), env.Passive → w.tree.store = s →
      w.tree.leases.isHeld node.hierarchy = false →
        ((Request.createPath node.hierarchy node.fullValue).run env w).1 = .ok (.node node) ∧
          ((Request.createPath node.hierarchy node.fullValue).run env w).2.tree = w.tree
  distinct : ∀ row ∈ s.nodes, ∀ other ∈ s.nodes, row.hierarchy = other.hierarchy →
    row.fullValue = other.fullValue → row = other

theorem Tidy.addressed (hs : s.Tidy) (hw : s.Worded) : s.Addressed where
  legible row hrow := (hs.legible row hrow).read
  values row hrow := Name.plain_iff.1 (hw.plain row hrow)
  resolves row hrow node hread σ env w henv hstore hfree := by
    have hnode := hs.formed.read_eq_ok hrow hread
    rw [← hnode] at hrow
    subst hstore
    exact makes_createPath (hs.createPath_eq hw hrow) σ env w henv rfl hfree
  distinct row hrow other hother hh hfull := by
    obtain ⟨node, rfl⟩ := hs.exists_node hrow
    obtain ⟨node', rfl⟩ := hs.exists_node hother
    have hgoes : createPath node.row.hierarchy node.row.fullValue s = .ok (node, s) :=
      hs.createPath_eq hw hrow
    have hgoes' : createPath node'.row.hierarchy node'.row.fullValue s = .ok (node', s) :=
      hs.createPath_eq hw hother
    rw [hh, hfull, hgoes'] at hgoes
    exact congrArg Node.row (Prod.mk.inj (Except.ok.inj hgoes)).1.symm

end Store

/-! ## Reachable stores -/

section
open Store Inventory.Action Transaction
variable {σ : Type} {env : Surroundings σ} {options : Options}

/-- The rows that a request adds are those of roots and children with names that are stored as they
are, and of children with a preset name. -/
theorem Request.ensures_adds (henv : env.Passive) {test : NodeRow → Prop}
    (hroot : ∀ row : NodeRow, row.parentKey = "" → Name.Plain row.value →
      row.fullValue = "/" ++ row.value → test row)
    (hchild : ∀ row : NodeRow, row.parentKey ≠ "" → Name.Plain row.value → test row)
    (hpreset : ∀ n : Nat, ∀ row : NodeRow, row.parentKey ≠ "" → row.value = s!"{options.newNodeName} {n}" →
      test row) {request : Request} (hstructural : request.isStructural = true) :
    Ensures env options (request.run : Action σ Answer) fun s _ s' => s.Sound → Adds test s s' := by
  cases request with
  | createHierarchy name =>
    rw [run_createHierarchy]
    refine (Tree.ensures_createHierarchy henv.moves name).relates (fun _ _ => Or.inl) _
      fun s c a s' _ hc h => adds_createHierarchy (fun row htop hvalue hfull => ?_) a s' h
    exact hroot row htop (hvalue ▸ Name.plain_of_validate hc) (hvalue ▸ hfull)
  | createChild parent value =>
    exact (Tree.ensures_createChild henv.moves parent value).relates (fun _ _ => Or.inl) .node
      fun s c a s' _ _ h => adds_createChild hchild hpreset parent value a s' h
  | getOrCreateChild parent value =>
    rw [run_getOrCreateChild]
    refine (Tree.ensures_getOrCreateChild henv.moves parent value).relates (fun _ _ => Or.inl) _
      fun s c a s' _ _ h => ?_
    exact along_get (along_lift fun found _ => adds_getOrInsertChild hchild found c.1) a s' h
  | createPath host path =>
    exact (Tree.ensures_createPath henv.moves host path).unasked.relates (fun _ _ => Or.inl) .node
      fun s c a s' _ _ h => adds_createPath hchild host path a s' h
  | deleteNode id =>
    exact (Tree.ensures_deleteNode henv.moves id).relates (fun _ _ => Or.inl) (fun _ => .done)
      fun s c a s' _ _ h => adds_removeNode id a s' h
  | _ => cases hstructural

theorem Request.ensures_worded (henv : env.Passive) (hpreset : Name.Leads options.newNodeName)
    (request : Request) :
    Ensures env options (request.run : Action σ Answer) fun s _ s' => s.Sound → Words s s' := by
  cases hstructural : request.isStructural with
  | false => exact (ensures_still henv hstructural).weaken fun _ _ _ h hs => (h hs).worded
  | true =>
    refine (ensures_adds henv (fun row _ hplain hfull => ⟨hplain, fun _ => hfull⟩)
      (fun row hbelow hplain => ⟨hplain, fun htop => absurd htop hbelow⟩)
      (fun n row hbelow hvalue => ⟨?_, fun htop => absurd htop hbelow⟩) hstructural).weaken
      fun _ _ _ h hs => (h hs).words
    exact hvalue ▸ hpreset.plain n

/-- Whatever children are called that are given no name, roots have names that are stored as they
are. -/
theorem Request.ensures_headed (henv : env.Passive) (request : Request) :
    Ensures env options (request.run : Action σ Answer)
      fun s _ s' => s.Sound → s.Headed → s'.Headed := by
  cases hstructural : request.isStructural with
  | false => exact (ensures_still henv hstructural).weaken fun _ _ _ h hs => (h hs).headed
  | true =>
    exact (ensures_adds henv (fun row _ hplain hfull _ => ⟨hplain, hfull⟩)
      (fun row hbelow _ htop => absurd htop hbelow) (fun n row hbelow _ htop => absurd htop hbelow)
      hstructural).weaken fun _ _ _ h hs => (h hs).headed

end

namespace Store

/-- A request is served under options of a kind. -/
def ServesUnder (fits : Options → Prop) (s s' : Store) : Prop :=
  ∃ (σ : Type) (env : Surroundings σ) (w : World σ) (request : Request), env.Passive ∧
    fits w.tree.options ∧ w.tree.store = s ∧ (request.run env w).2.tree.store = s'

variable {fits : Options → Prop} {s s' : Store}

theorem reachable_of_servesUnder (h : ReflTransGen (ServesUnder fits) {} s) : s.Reachable := by
  induction h with
  | refl => exact .empty
  | tail _ hstep ih =>
    obtain ⟨σ, env, w, request, henv, -, hw, hs'⟩ := hstep
    exact ih.serve ⟨σ, env, w, request, henv, rfl, hw, hs'⟩

theorem worded_of_servesUnder (hfits : ∀ options, fits options → Name.Leads options.newNodeName)
    (h : ReflTransGen (ServesUnder fits) {} s) : s.Worded := by
  induction h with
  | refl => exact worded_empty
  | tail hpast hstep ih =>
    obtain ⟨σ, env, w, request, henv, hoptions, rfl, rfl⟩ := hstep
    have hsound := (reachable_of_servesUnder hpast).sound
    exact (request.ensures_worded henv (hfits _ hoptions) w rfl).2 hsound ih

theorem servesUnder_after {tree : Tree} (hfits : fits tree.options) (requests : List Request) :
    ReflTransGen (ServesUnder fits) tree.store (tree.after requests).store := by
  induction requests generalizing tree with
  | nil => exact .refl
  | cons request rest ih =>
    have hkept := (request.ensures_tidy Surroundings.passive_quiet (World.mk tree ()) rfl).1
    refine .head ⟨Unit, Surroundings.quiet, World.mk tree (), request, Surroundings.passive_quiet,
      hfits, rfl, rfl⟩ (ih ?_)
    rwa [hkept]

theorem Reachable.headed (h : s.Reachable) : s.Headed := by
  induction h with
  | empty => exact fun _ hrow => absurd hrow List.not_mem_nil
  | serve hpast hserves ih =>
    obtain ⟨σ, env, w, request, henv, -, rfl, rfl⟩ := hserves
    exact (request.ensures_headed henv w rfl).2 hpast.sound ih

/-- As long as children without a name are called by a text that begins with no blank and has no
slash, every full path addresses its node. The numbers in keys and preset names stay below the
largest of 64 bits here: a request that runs out of them stops and stores nothing (`ensureWord`). -/
theorem addressed_of_leads
    (h : ReflTransGen (ServesUnder fun options => Name.Leads options.newNodeName) {} s) :
    s.Addressed :=
  (reachable_of_servesUnder h).tidy.addressed (worded_of_servesUnder (fun _ => id) h)

/-- A node that is called as the root above it, and one without a name of its own. -/
theorem addressed_library :
    ∃ s : Store, s.nodes.map (·.fullValue) =
        ["/Library", "/Library/Library", "/Library/Library/New node 1"] ∧ s.Addressed := by
  have hleads : Name.Leads ({} : Tree).options.newNodeName :=
    ⟨⟨'N', "ew node".toList, by decide, by decide⟩, by decide⟩
  have hserves : ReflTransGen (ServesUnder fun options => Name.Leads options.newNodeName)
      ({} : Tree).store (({} : Tree).after [.createHierarchy "Library",
        .createChild 1 (some "Library"), .createChild 2 none]).store := servesUnder_after hleads _
  exact ⟨_, by decide +kernel, addressed_of_leads hserves⟩

/-- Options that a configuration may set, although names like these are refused elsewhere. -/
def slashed : Options := { newNodeName := "a/b" }

/-- A library with a child that is called by such a preset. -/
def slashedLibrary : Tree :=
  ({ options := slashed } : Tree).after [.createHierarchy "Library", .createChild 1 none]

/-- The child, with the key `1:1`. -/
def slashedChild : Node := ⟨2, 1, ⟨1, [1]⟩, "a/b 1", "/Library/a/b 1", 0⟩

/-- The path of the child leads to a new node, one for each of the parts of its name. -/
theorem not_addressed_slashed :
    ¬∀ (config : Config) (options : Options) (s : Store), config.options = .ok options →
      ReflTransGen (ServesUnder (· = options)) {} s → s.Addressed := by
  intro h
  have hserves : ReflTransGen (ServesUnder (· = slashed)) ({ options := slashed } : Tree).store
      slashedLibrary.store := servesUnder_after (by rfl) _
  have haddressed := h { newNodeName := some "a/b" } slashed _ (by decide +kernel) hserves
  have hrow : slashedChild.row ∈ slashedLibrary.store.nodes := by decide +kernel
  have hread : slashedChild.row.read = .ok slashedChild := by decide +kernel
  have hfree : slashedLibrary.leases.isHeld 1 = false := by decide +kernel
  obtain ⟨hresult, -⟩ := haddressed.resolves _ hrow _ hread Surroundings.quiet
    (World.mk slashedLibrary ()) Surroundings.passive_quiet rfl hfree
  have hmade : ((Request.createPath slashedChild.hierarchy slashedChild.fullValue).run
      Surroundings.quiet (World.mk slashedLibrary ())).1 =
      .ok (.node ⟨4, 1, ⟨1, [2, 1]⟩, "b 1", "/Library/a/b 1", 0⟩) := by decide +kernel
  rw [hmade] at hresult
  cases hresult

end Store
end Inventory
