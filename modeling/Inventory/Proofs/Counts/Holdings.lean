import Inventory.Proofs.Key.Text
import Inventory.Store.Attachments
import Mathlib.Data.Finset.Card
import Mathlib.Data.List.Dedup

/-! # What a cached amount should be

The holdings of a key are the distinct assets with an attachment to a node at or below it; a cached
amount is exact when it is their number. Amounts are changed only by adding to every row what is
given for its hierarchy and key (`shifted`), which leaves the holdings alone. -/
namespace Inventory
set_option autoImplicit false

/-- One key text stands at or below another: its fields begin with those of the other. -/
def Key.isTextBelow (text top : String) : Bool :=
  (Text.fields ':' top.toList).isPrefixOf (Text.fields ':' text.toList)

theorem Key.isTextBelow_text {key top : Key} :
    isTextBelow key.text top.text = true ↔ key.isDescendantOrSelf top = true := by
  rw [isTextBelow, List.isPrefixOf_iff_prefix, fields_prefix_iff]

/-- The row is of the hierarchy and stands at or below a key. -/
def NodeRow.isWithin (row : NodeRow) (hierarchy : HierarchyId) (top : String) : Bool :=
  row.hierarchy == hierarchy && Key.isTextBelow row.key top

/-- The node stands in the store, up to its amount. -/
def Node.IsIn (node : Node) (s : Store) : Prop :=
  ∃ row ∈ s.nodes, row.id = node.id ∧ row.hierarchy = node.hierarchy ∧ row.key = node.key.text

namespace Store

/-- The assets of the given attachments to nodes at or below a key. -/
def reach (nodes : List NodeRow) (links : List Attachment) (hierarchy : HierarchyId)
    (top : String) : Finset AssetId :=
  ((links.filter fun link =>
    nodes.any fun row => row.id == link.2 && row.isWithin hierarchy top).map (·.1)).toFinset

/-- The distinct assets that are attached to nodes at or below a key. -/
def holdings (s : Store) (hierarchy : HierarchyId) (top : String) : Finset AssetId :=
  reach s.nodes s.attachments hierarchy top

/-- Every cached amount of a hierarchy is the number of assets that its node holds. -/
def Counted (s : Store) (hierarchy : HierarchyId) : Prop :=
  ∀ row ∈ s.nodes, row.hierarchy = hierarchy →
    row.amount = (s.holdings row.hierarchy row.key).card

/-- Keys are stored as their canonical texts. -/
def Keyed (s : Store) : Prop := ∀ row ∈ s.nodes, ∃ key : Key, row.key = key.text

/-- The rows of nodes have distinct ids and keep their keys as canonical texts. -/
structure Indexed (s : Store) : Prop where
  nodeIds : (s.nodes.map (·.id)).Nodup
  keyed : s.Keyed

/-- Adds to every cached amount what is given for the hierarchy and the key of its row. -/
def shifted (s : Store) (delta : HierarchyId → String → Int) : Store :=
  { s with nodes := s.nodes.map fun row =>
      { row with amount := row.amount + delta row.hierarchy row.key } }

/-! ## Holdings -/

theorem Indexed.of_nodes {s t : Store} (hs : s.Indexed) (h : t.nodes = s.nodes) : t.Indexed where
  nodeIds := h ▸ hs.nodeIds
  keyed row hrow := hs.keyed row (h ▸ hrow)

theorem isWithin_iff {row : NodeRow} {key top : Key} {hierarchy : HierarchyId}
    (h : row.key = key.text) :
    row.isWithin hierarchy top.text = true ↔
      row.hierarchy = hierarchy ∧ key.isDescendantOrSelf top = true := by
  rw [NodeRow.isWithin, Bool.and_eq_true, beq_iff_eq, h, Key.isTextBelow_text]

theorem hierarchy_of_isWithin {row : NodeRow} {hierarchy : HierarchyId} {top : String}
    (h : row.isWithin hierarchy top = true) : row.hierarchy = hierarchy := by
  rw [NodeRow.isWithin, Bool.and_eq_true, beq_iff_eq] at h
  exact h.1

theorem mem_reach {nodes : List NodeRow} {links : List Attachment} {hierarchy : HierarchyId}
    {top : String} {asset : AssetId} :
    asset ∈ reach nodes links hierarchy top ↔
      ∃ row ∈ nodes, row.isWithin hierarchy top = true ∧ (asset, row.id) ∈ links := by
  simp only [reach, List.mem_toFinset, List.mem_map, List.mem_filter, List.any_eq_true,
    Bool.and_eq_true, beq_iff_eq]
  constructor
  · rintro ⟨⟨a, n⟩, ⟨hlink, row, hrow, hid, hwithin⟩, rfl⟩
    exact ⟨row, hrow, hwithin, hid ▸ hlink⟩
  · rintro ⟨row, hrow, hwithin, hlink⟩
    exact ⟨(asset, row.id), ⟨hlink, row, hrow, rfl, hwithin⟩, rfl⟩

theorem mem_holdings {s : Store} {hierarchy : HierarchyId} {top : String} {asset : AssetId} :
    asset ∈ s.holdings hierarchy top ↔
      ∃ row ∈ s.nodes, row.isWithin hierarchy top = true ∧ (asset, row.id) ∈ s.attachments :=
  mem_reach

theorem reach_congr {nodes : List NodeRow} {links links' : List Attachment}
    (h : ∀ link, link ∈ links ↔ link ∈ links') (hierarchy : HierarchyId) (top : String) :
    reach nodes links hierarchy top = reach nodes links' hierarchy top := by
  ext asset
  simp only [mem_reach, h]

theorem reach_append (nodes : List NodeRow) (links more : List Attachment)
    (hierarchy : HierarchyId) (top : String) :
    reach nodes (links ++ more) hierarchy top =
      reach nodes links hierarchy top ∪ reach nodes more hierarchy top := by
  ext asset
  simp only [mem_reach, List.mem_append, Finset.mem_union]
  constructor
  · rintro ⟨row, hrow, hwithin, h | h⟩
    · exact Or.inl ⟨row, hrow, hwithin, h⟩
    · exact Or.inr ⟨row, hrow, hwithin, h⟩
  · rintro (⟨row, hrow, hwithin, h⟩ | ⟨row, hrow, hwithin, h⟩)
    · exact ⟨row, hrow, hwithin, Or.inl h⟩
    · exact ⟨row, hrow, hwithin, Or.inr h⟩

theorem holdings_mono {s : Store} (hs : s.Keyed) {hierarchy : HierarchyId} {key above : Key}
    (h : key.isDescendantOrSelf above = true) :
    s.holdings hierarchy key.text ⊆ s.holdings hierarchy above.text := by
  intro asset ha
  obtain ⟨row, hrow, hwithin, hlink⟩ := mem_holdings.1 ha
  obtain ⟨k, hk⟩ := hs row hrow
  obtain ⟨hh, hd⟩ := (isWithin_iff hk).1 hwithin
  exact mem_holdings.2 ⟨row, hrow, (isWithin_iff hk).2 ⟨hh, Key.descendant_trans hd h⟩, hlink⟩

/-- The rows in the text range of a key are those at or below it. -/
theorem mem_subtreeRows {s : Store} {hierarchy : HierarchyId}
    (hs : ∀ row ∈ s.nodes, row.hierarchy = hierarchy → ∃ key : Key, row.key = key.text) {key : Key}
    {row : NodeRow} :
    row ∈ s.subtreeRows hierarchy key ↔ row ∈ s.nodes ∧ row.isWithin hierarchy key.text = true := by
  rw [subtreeRows, rowsOf, List.mem_filter, List.mem_filter, beq_iff_eq, and_assoc]
  apply and_congr_right
  intro hrow
  constructor
  · rintro ⟨hh, hin⟩
    obtain ⟨k, hk⟩ := hs row hrow hh
    rw [hk, Key.subtreeContains_text] at hin
    exact (isWithin_iff hk).2 ⟨hh, hin⟩
  · intro hwithin
    have hh := hierarchy_of_isWithin hwithin
    obtain ⟨k, hk⟩ := hs row hrow hh
    refine ⟨hh, ?_⟩
    rw [hk, Key.subtreeContains_text]
    exact ((isWithin_iff hk).1 hwithin).2

/-- Searching the text range of a subtree for an asset finds what is held there. -/
theorem seesAsset_iff {s : Store} (hs : s.Keyed) {hierarchy : HierarchyId} {key : Key}
    {asset : AssetId} :
    s.seesAsset hierarchy key asset = true ↔ asset ∈ s.holdings hierarchy key.text := by
  simp only [seesAsset, List.any_eq_true, mem_subtreeRows fun row hrow _ => hs row hrow, isAttached,
    List.contains_iff_mem, mem_holdings, and_assoc]

/-! ## Shifting amounts -/

section Shifted
variable (s : Store) (delta : HierarchyId → String → Int)

theorem shifted_nodes : (s.shifted delta).nodes = s.nodes.map fun row =>
    { row with amount := row.amount + delta row.hierarchy row.key } := rfl

theorem reach_shifted (links : List Attachment) (hierarchy : HierarchyId) (top : String) :
    reach (s.shifted delta).nodes links hierarchy top = reach s.nodes links hierarchy top := by
  ext asset
  simp only [mem_reach, shifted_nodes, List.mem_map]
  constructor
  · rintro ⟨-, ⟨row, hrow, rfl⟩, hwithin, hlink⟩
    exact ⟨row, hrow, hwithin, hlink⟩
  · rintro ⟨row, hrow, hwithin, hlink⟩
    exact ⟨_, ⟨row, hrow, rfl⟩, hwithin, hlink⟩

@[simp] theorem holdings_shifted (hierarchy : HierarchyId) (top : String) :
    (s.shifted delta).holdings hierarchy top = s.holdings hierarchy top :=
  reach_shifted s delta s.attachments hierarchy top

theorem keyed_shifted (hs : s.Keyed) : (s.shifted delta).Keyed := by
  intro row hrow
  rw [shifted_nodes, List.mem_map] at hrow
  obtain ⟨old, hold, rfl⟩ := hrow
  exact hs old hold

theorem shifted_shifted (more : HierarchyId → String → Int) :
    (s.shifted delta).shifted more = s.shifted fun h k => delta h k + more h k := by
  simp only [shifted, List.map_map]
  congr 1
  refine List.map_congr_left fun row _ => ?_
  simp [Int.add_assoc]

variable {s delta}

theorem shifted_congr {delta' : HierarchyId → String → Int}
    (h : ∀ row ∈ s.nodes, delta row.hierarchy row.key = delta' row.hierarchy row.key) :
    s.shifted delta = s.shifted delta' := by
  simp only [shifted]
  congr 1
  refine List.map_congr_left fun row hrow => ?_
  rw [h row hrow]

theorem shifted_eq_self (h : ∀ row ∈ s.nodes, delta row.hierarchy row.key = 0) :
    s.shifted delta = s := by
  have hmap : s.nodes.map (fun row =>
      { row with amount := row.amount + delta row.hierarchy row.key }) = s.nodes := by
    conv_rhs => rw [← List.map_id s.nodes]
    refine List.map_congr_left fun row hrow => ?_
    simp [h row hrow]
  rw [shifted, hmap]

end Shifted

theorem addAmount_eq (s : Store) (hierarchy : HierarchyId) (keys : List Key) (delta : Int) :
    (s.addAmount hierarchy keys delta).2 =
      s.shifted fun h k => if h = hierarchy ∧ ∃ key ∈ keys, key.text = k then delta else 0 := by
  by_cases hd : delta = 0
  · subst hd
    rw [shifted_eq_self (by simp)]
    rfl
  · simp only [addAmount, hd, if_false, shifted]
    congr 1
    refine List.map_congr_left fun row _ => ?_
    have hn : named hierarchy keys row = true ↔
        row.hierarchy = hierarchy ∧ ∃ key ∈ keys, key.text = row.key := by
      simp [named]
    by_cases h : named hierarchy keys row = true
    · rw [if_pos h, if_pos (hn.1 h)]
    · rw [if_neg h, if_neg (fun h' => h (hn.2 h')), Int.add_zero]

/-- The count that comes with a change of amounts is that of the rows that are no longer as they
were. -/
theorem addAmount_count {s : Store} (hid : (s.nodes.map (·.id)).Nodup) (hierarchy : HierarchyId)
    (keys : List Key) {delta : Int} (hd : delta ≠ 0) :
    (s.addAmount hierarchy keys delta).1 =
      (s.nodes.filter (· ∉ (s.addAmount hierarchy keys delta).2.nodes)).length := by
  simp only [addAmount, hd, if_false]
  rw [List.countP_eq_length_filter]
  congr 1
  refine List.filter_congr fun row hrow => ?_
  rw [Bool.eq_iff_iff, decide_eq_true_iff, List.mem_map]
  constructor
  · rintro hnamed ⟨old, hold, heq⟩
    have hsame : old = row := by
      apply List.inj_on_of_nodup_map hid hold hrow
      rw [← heq]
      split <;> rfl
    rw [hsame, if_pos hnamed] at heq
    have hamount : row.amount + delta = row.amount := congrArg NodeRow.amount heq
    omega
  · intro hgone
    by_contra hnamed
    exact hgone ⟨row, hrow, if_neg hnamed⟩

theorem keyed_addAmount {s : Store} (hs : s.Keyed) (hierarchy : HierarchyId) (keys : List Key)
    (delta : Int) : (s.addAmount hierarchy keys delta).2.Keyed := by
  rw [addAmount_eq]
  exact keyed_shifted _ _ hs

theorem seesAsset_addAmount {s : Store} (hs : s.Keyed) (hierarchy : HierarchyId) (keys : List Key)
    (delta : Int) (h : HierarchyId) (key : Key) (asset : AssetId) :
    (s.addAmount hierarchy keys delta).2.seesAsset h key asset = s.seesAsset h key asset := by
  rw [Bool.eq_iff_iff, seesAsset_iff (keyed_addAmount hs hierarchy keys delta), addAmount_eq, holdings_shifted,
    seesAsset_iff hs]

end Store
end Inventory
