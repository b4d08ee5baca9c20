import Inventory.Proofs.Runs
import Inventory.Proofs.Store.Listing
import Inventory.Proofs.Tree.Changes

/-! # The forest of a reachable store

Whatever requests have been made of an empty store, its node rows can be read, and the nodes form
one tree for each hierarchy. Numbers of more than 64 bits are refused, so keys stay readable and
preset names stay new without a bound on the run. -/
namespace Inventory
set_option autoImplicit false

/-- The nodes form trees, one for each hierarchy. -/
structure Forest (hosts : List Hierarchy) (nodes : List Node) : Prop where
  ids : (nodes.map (·.id)).Nodup
  /-- No key comes twice, neither in a hierarchy nor at the roots of two. -/
  keys : (nodes.map (·.key)).Nodup
  hosted : ∀ node ∈ nodes, ∃ host ∈ hosts, host.id = node.hierarchy
  /-- A hierarchy has one root, which has its name. -/
  root : ∀ host ∈ hosts, ∃ root ∈ nodes, root.hierarchy = host.id ∧ root.key.isRoot = true ∧
    root.value = host.name ∧
    ∀ other ∈ nodes, other.hierarchy = host.id → other.key.isRoot = true → other = root
  parentText : ∀ node ∈ nodes, node.row.parentKey = "" ↔ node.key.isRoot = true
  /-- Any other node has its parent in its hierarchy, and its path is that of the parent, a slash
  and its own label. -/
  parent : ∀ node ∈ nodes, ∀ above, node.key.parent? = some above →
    ∃ parent ∈ nodes, parent.hierarchy = node.hierarchy ∧ parent.key = above ∧
      node.row.parentKey = above.text ∧ node.fullValue = parent.fullValue ++ "/" ++ node.value
  /-- The children of a node have different labels. -/
  siblings : ∀ node ∈ nodes, ∀ other ∈ nodes, ∀ above, node.key.parent? = some above →
    other.key.parent? = some above → node.hierarchy = other.hierarchy →
      node.value = other.value → node = other

namespace Store
variable {s s' : Store}

theorem Serves.tidy {kind : Request → Bool} (h : Serves kind s s') (hs : s.Tidy) : s'.Tidy := by
  obtain ⟨_, env, w, request, henv, -, rfl, rfl⟩ := h
  exact (request.ensures_tidy henv w rfl).2 hs

theorem Reachable.tidy (h : s.Reachable) : s.Tidy := by
  induction h with
  | empty => exact tidy_empty
  | serve _ hserves ih => exact hserves.tidy ih

/-- The rows of a tidy store are read back as the nodes of a forest. -/
theorem Tidy.exists_forest (hs : s.Tidy) :
    ∃ nodes, s.nodes.mapM NodeRow.read = .ok nodes ∧ nodes.map Node.row = s.nodes ∧
      Forest s.hierarchies nodes := by
  obtain ⟨nodes, hread⟩ := exists_mapM_read s.nodes hs.legible
  have hrows : nodes.map Node.row = s.nodes := hs.formed.mapM_read (fun _ hrow => hrow) hread
  have hin : ∀ {node : Node}, node ∈ nodes → node.row ∈ s.nodes := fun hnode =>
    hrows ▸ List.mem_map_of_mem hnode
  have hback : ∀ {row : NodeRow}, row ∈ s.nodes → ∃ node ∈ nodes, node.row = row := fun hrow =>
    List.mem_map.1 (hrows ▸ hrow)
  have hroot : ∀ node ∈ nodes, node.row.parentKey = "" ↔ node.key.isRoot = true := fun node hnode =>
    hs.formed.isRoot_iff (hin hnode) rfl
  refine ⟨nodes, hread, hrows, ⟨?_, ?_, fun node hnode => hs.formed.hosted _ (hin hnode), ?_, hroot,
    ?_, ?_⟩⟩
  · have hids := hs.formed.nodeIds
    rwa [← hrows, List.map_map] at hids
  · have htexts := hs.formed.keys
    rw [← hrows, List.map_map] at htexts
    exact List.Nodup.of_map Key.text (by rwa [List.map_map])
  · intro host hhost
    obtain ⟨row, hrow, hh, hp⟩ := hs.formed.rooted host hhost
    obtain ⟨root, hmem, rfl⟩ := hback hrow
    obtain ⟨known, hknown, hid, hname⟩ := hs.titled.root root.row hrow hp
    have hsame : known = host :=
      List.inj_on_of_nodup_map hs.formed.hierarchyIds hknown hhost (hid.trans hh)
    refine ⟨root, hmem, hh, (hroot root hmem).1 hp, ?_, fun other hother hh' htop => ?_⟩
    · rw [← hsame]
      exact hname.symm
    · refine Node.row_injective ?_
      exact hs.formed.root_unique (hin hother) hrow (hh'.trans hh.symm) ((hroot other hother).2 htop) hp
  · intro node hnode above habove
    have hup : node.row.parentKey = above.text := Key.parentText_of_parent? habove
    have hne : node.row.parentKey ≠ "" := hup ▸ Key.text_ne_empty above
    obtain ⟨row, hrow, hh, hkey⟩ := hs.parented node.row (hin hnode) hne
    obtain ⟨parent, hparent, rfl⟩ := hback hrow
    have hpath := hs.titled.path node.row (hin hnode) parent.row hrow hh hkey
    exact ⟨parent, hparent, hh, Key.text_injective (hkey.trans hup), hup, hpath⟩
  · intro node hnode other hother above habove habove' hh hvalue
    have hup : node.row.parentKey = above.text := Key.parentText_of_parent? habove
    have hup' : other.row.parentKey = above.text := Key.parentText_of_parent? habove'
    have hne : node.row.parentKey ≠ "" := hup ▸ Key.text_ne_empty above
    have hid := hs.titled.siblings node.row (hin hnode) other.row (hin hother) hh hne
      (hup.trans hup'.symm) hvalue
    exact Node.row_injective (hs.formed.eq_of_id (hin hnode) (hin hother) hid)

/-- Every reachable store holds a forest. -/
theorem Reachable.forest (h : s.Reachable) :
    ∃ nodes, s.nodes.mapM NodeRow.read = .ok nodes ∧ nodes.map Node.row = s.nodes ∧
      Forest s.hierarchies nodes := h.tidy.exists_forest

theorem forest_library :
    ∃ nodes, (({} : Tree).after library).store.nodes.mapM NodeRow.read = .ok nodes ∧
      nodes.map Node.row = (({} : Tree).after library).store.nodes ∧
      Forest (({} : Tree).after library).store.hierarchies nodes :=
  (Tree.reachable_after Reachable.empty library).forest

end Store
end Inventory
