import Inventory.Proofs.Subtrees
import Inventory.Proofs.Text.Bytes

/-! # What the range of a subtree selects

A subtree is asked for by a range of bytes: between a key and a colon and the same key and a semicolon
stand the texts of its strict descendants and of no other key. Segments do not follow the order of
texts, `1:10` stands before `1:2`, but the range is right for each of them. So the rows in the range are
those whose keys begin with the segments of the given one, and every question that reads a subtree
looks at exactly these. -/
namespace Inventory
set_option autoImplicit false

namespace Key
variable {key above : Key}

/-- The bytes of the text stand in the range of the strict descendants of a key. -/
def Spans (above : Key) (text : String) : Prop :=
  Text.bytes above.rangeStart ≤ Text.bytes text ∧ Text.bytes text < Text.bytes above.rangeEnd

theorem spans_iff {text : String} : above.Spans text ↔ above.rangeContains text = true := by
  unfold Spans rangeContains
  simp [Text.bytes_le_iff, Text.bytes_lt_iff]

theorem spans_text : above.Spans key.text ↔ key.isStrictDescendant above = true := by
  rw [spans_iff, rangeContains_iff, toList_text, chars_prefix_iff, isStrictDescendant_iff]

theorem text_or_spans : key.text = above.text ∨ above.Spans key.text ↔
    key.isDescendantOrSelf above = true := by
  rw [spans_iff, ← subtreeContains_text, subtreeContains]
  simp

end Key

namespace Store
variable {s : Store} {hierarchy : HierarchyId}

/-- The keys of a hierarchy are stored as texts that are written for keys and can be read again. -/
def Canonical (s : Store) (hierarchy : HierarchyId) : Prop :=
  ∀ row ∈ s.nodes, row.hierarchy = hierarchy → ∃ key : Key, key.Bounded ∧ row.key = key.text

theorem Canonical.exists_key (hs : s.Canonical hierarchy) {row : NodeRow}
    (hrow : row ∈ s.rowsOf hierarchy) : row.Legible ∧ row.key = row.node.key.text := by
  obtain ⟨hin, hh⟩ := mem_rowsOf.1 hrow
  obtain ⟨key, hbounded, hkey⟩ := hs row hin hh
  obtain ⟨read, hread⟩ := Key.ofText?_text_isSome.2 hbounded
  obtain rfl := Key.eq_of_ofText?_text hread
  refine ⟨⟨read, hkey ▸ hread⟩, ?_⟩
  simp [NodeRow.node, hkey, hread]

theorem Canonical.node_key (hs : s.Canonical hierarchy) {row : NodeRow} (hrow : row ∈ s.rowsOf hierarchy)
    {key : Key} (hkey : row.key = key.text) : row.node.key = key :=
  Key.text_injective ((hs.exists_key hrow).2.symm.trans hkey)

/-- The range of a subtree is a filter by segments. -/
theorem Canonical.subtreeRows_eq (hs : s.Canonical hierarchy) (above : Key) :
    s.subtreeRows hierarchy above = (s.rowsOf hierarchy).filter fun row =>
      decide (above.segments <+: row.node.key.segments) := by
  apply List.filter_congr
  intro row hrow
  rw [Bool.eq_iff_iff, decide_eq_true_iff, (hs.exists_key hrow).2, Key.subtreeContains_text,
    Key.isDescendantOrSelf_iff]

theorem Canonical.mem_subtreeRows (hs : s.Canonical hierarchy) {above : Key} {row : NodeRow} :
    row ∈ s.subtreeRows hierarchy above ↔
      row ∈ s.rowsOf hierarchy ∧ above.segments <+: row.node.key.segments := by
  rw [hs.subtreeRows_eq, List.mem_filter, decide_eq_true_iff]

theorem pairwise_sortNodes (nodes : List Node) :
    (sortNodes nodes).Pairwise fun a b => a.key ≤ b.key := by
  have hkeys := Key.pairwise_sort (nodes.map (·.key))
  rw [← map_key_sortNodes] at hkeys
  exact List.pairwise_map.1 hkeys

theorem Canonical.exists_subtreeNodes (hs : s.Canonical hierarchy) (above : Key) :
    ∃ nodes, s.subtreeNodes hierarchy above = .ok nodes ∧ (nodes.Pairwise fun a b => a.key ≤ b.key) ∧
      nodes.Perm (((s.rowsOf hierarchy).map NodeRow.node).filter fun node =>
        decide (above.segments <+: node.key.segments)) := by
  have hlegible : ∀ row ∈ s.subtreeRows hierarchy above, row.Legible := fun row hrow =>
    (hs.exists_key (hs.mem_subtreeRows.1 hrow).1).1
  obtain ⟨rows, hperm, hnodes⟩ := subtreeNodes_eq hlegible
  refine ⟨_, hnodes, pairwise_sortNodes _, (sortNodes_perm _).trans ?_⟩
  rw [List.filter_map, Function.comp_def, ← hs.subtreeRows_eq]
  exact hperm.map _

theorem Canonical.exists_keyedAssets (hs : s.Canonical hierarchy) (above : Key) :
    ∃ pairs, s.keyedAssets (s.subtreeRows hierarchy above) = .ok pairs ∧ ∀ key asset,
      (key, asset) ∈ pairs ↔ above.segments <+: key.segments ∧
        ∃ row ∈ s.nodes, row.hierarchy = hierarchy ∧ row.key = key.text ∧ (asset, row.id) ∈ s.attachments := by
  have hkeys : ∀ row ∈ s.subtreeRows hierarchy above, row.Legible ∧ row.key = row.node.key.text :=
    fun row hrow => hs.exists_key (hs.mem_subtreeRows.1 hrow).1
  obtain ⟨pairs, hpairs⟩ : ∃ pairs, s.keyedAssets (s.subtreeRows hierarchy above) = .ok pairs :=
    Store.exists_keyedAssets fun row hrow => (hkeys row hrow).1
  refine ⟨pairs, hpairs, fun key asset => ?_⟩
  rw [mem_keyedAssets (fun row hrow => ⟨_, (hkeys row hrow).2⟩) hpairs]
  constructor
  · rintro ⟨row, hrow, hkey, hlink⟩
    obtain ⟨hrow, hbelow⟩ := hs.mem_subtreeRows.1 hrow
    obtain ⟨hin, hh⟩ := mem_rowsOf.1 hrow
    rw [hs.node_key hrow hkey] at hbelow
    exact ⟨hbelow, row, hin, hh, hkey, hlink⟩
  · rintro ⟨hbelow, row, hin, hh, hkey, hlink⟩
    have hrow := mem_rowsOf.2 ⟨hin, hh⟩
    rw [← hs.node_key hrow hkey] at hbelow
    exact ⟨row, hs.mem_subtreeRows.2 ⟨hrow, hbelow⟩, hkey, hlink⟩

theorem Canonical.seesAsset_iff (hs : s.Canonical hierarchy) {above : Key} {asset : AssetId} :
    s.seesAsset hierarchy above asset = true ↔ s.AttachedBelow hierarchy above asset := by
  simp only [seesAsset, List.any_eq_true, isAttached, List.contains_iff_mem]
  constructor
  · rintro ⟨row, hrow, hlink⟩
    obtain ⟨hrow, hbelow⟩ := hs.mem_subtreeRows.1 hrow
    obtain ⟨hin, hh⟩ := mem_rowsOf.1 hrow
    exact ⟨row, hin, hh, ⟨_, (hs.exists_key hrow).2, hbelow⟩, hlink⟩
  · rintro ⟨row, hin, hh, ⟨key, hkey, hbelow⟩, hlink⟩
    have hrow := mem_rowsOf.2 ⟨hin, hh⟩
    rw [← hs.node_key hrow hkey] at hbelow
    exact ⟨row, hs.mem_subtreeRows.2 ⟨hrow, hbelow⟩, hlink⟩

end Store

/-- The range of a key holds the texts of its strict descendants and of no other key. The nodes of a
subtree, the assets by key that are read from it, and the search for one asset or for some candidates
there all select the nodes whose keys begin with the segments of the given one. -/
theorem subtree_ranges_exact :
    (∀ key above : Key,
      (key.text = above.text ∨ above.Spans key.text ↔ key.isDescendantOrSelf above = true) ∧
      (above.Spans key.text ↔ key.isStrictDescendant above = true)) ∧
    ∀ (s : Store) (hierarchy : HierarchyId) (above : Key), s.Canonical hierarchy →
      (∃ nodes, s.subtreeNodes hierarchy above = .ok nodes ∧
        (nodes.Pairwise fun a b => a.key ≤ b.key) ∧
        nodes.Perm (((s.rowsOf hierarchy).map NodeRow.node).filter fun node =>
          decide (above.segments <+: node.key.segments))) ∧
      (∃ pairs, s.keyedAssets (s.subtreeRows hierarchy above) = .ok pairs ∧ ∀ key asset,
        (key, asset) ∈ pairs ↔ above.segments <+: key.segments ∧
          ∃ row ∈ s.nodes, row.hierarchy = hierarchy ∧ row.key = key.text ∧
            (asset, row.id) ∈ s.attachments) ∧
      (∀ asset, s.seesAsset hierarchy above asset = true ↔ s.AttachedBelow hierarchy above asset) ∧
      ∀ (candidates : List AssetId) asset, asset ∈ candidates.filter (s.seesAsset hierarchy above) ↔
        asset ∈ candidates ∧ s.AttachedBelow hierarchy above asset := by
  refine ⟨fun key above => ⟨Key.text_or_spans, Key.spans_text⟩, fun s hierarchy above hs => ?_⟩
  refine ⟨hs.exists_subtreeNodes above, hs.exists_keyedAssets above, fun asset => hs.seesAsset_iff,
    fun candidates asset => ?_⟩
  rw [List.mem_filter, hs.seesAsset_iff]

/-- A box and a crate on the second shelf of a depot; in the order of texts the tenth shelf comes
before it. Another hierarchy holds a key that nobody can read. -/
def depot : Store where
  hierarchies := [⟨1, "Depot"⟩, ⟨2, "Ruin"⟩]
  nodes := [⟨1, 1, "1", "", "Depot", "Depot", 0⟩, ⟨2, 1, "1:10", "1", "Tenth", "Depot/Tenth", 0⟩,
    ⟨3, 1, "1:2:10", "1:2", "Box", "Depot/Second/Box", 0⟩, ⟨4, 1, "1:2", "1", "Second", "Depot/Second", 0⟩,
    ⟨5, 1, "1:2:3", "1:2", "Crate", "Depot/Second/Crate", 0⟩, ⟨6, 2, "1:2:", "", "Ruin", "Ruin", 0⟩]
  assets := [⟨1, 1, "Lamp"⟩, ⟨2, 1, "Rope"⟩, ⟨3, 2, "Urn"⟩]
  attachments := [(1, 3), (2, 2), (1, 5), (3, 6)]

theorem subtree_ranges_exact_depot : depot.Canonical 1 ∧
    (∃ nodes, depot.subtreeNodes 1 ⟨1, [2]⟩ = .ok nodes ∧ (nodes.map (·.id)).Perm [3, 4, 5]) ∧
    (∃ pairs, depot.keyedAssets (depot.subtreeRows 1 ⟨1, [2]⟩) = .ok pairs ∧ (⟨1, [2, 10]⟩, 1) ∈ pairs) ∧
    depot.AttachedBelow 1 ⟨1, [2]⟩ 1 ∧ ¬depot.AttachedBelow 1 ⟨1, [2]⟩ 2 := by
  have hkeys : ∀ row ∈ depot.nodes, row.hierarchy = 1 →
      (∀ segment ∈ row.node.key.segments, segment ≤ Text.maxWord) ∧ row.key = row.node.key.text := by
    decide +kernel
  have hs : depot.Canonical 1 := fun row hrow hh => ⟨row.node.key, hkeys row hrow hh⟩
  obtain ⟨⟨nodes, hnodes, -, hperm⟩, ⟨pairs, hpairs, hmem⟩, hsees, -⟩ :=
    subtree_ranges_exact.2 depot 1 ⟨1, [2]⟩ hs
  refine ⟨hs, ⟨nodes, hnodes, hperm.map _⟩, ⟨pairs, hpairs, (hmem _ _).2 (by decide +kernel)⟩, ?_, ?_⟩
  · exact (hsees 1).1 (by decide +kernel)
  · exact fun hbelow => absurd ((hsees 2).2 hbelow) (by decide +kernel)

end Inventory
