import Inventory.Proofs.Counts.NodeBatch
import Inventory.Proofs.Store.Sound

/-! # Adding and removing attachments

Adding rows moves the holdings of a key up by what the rows reach and the key did not hold;
removing rows moves them down by what is not held otherwise. Amounts that are changed by just that
stay exact, and amounts that are left alone stay exact where the rows reach nothing. -/
namespace Inventory.Store
set_option autoImplicit false

/-- The store with further attachments. -/
def plus (s : Store) (rows : List Attachment) : Store :=
  { s with attachments := s.attachments ++ rows }

/-- The store without the given attachments. -/
def minus (s : Store) (rows : List Attachment) : Store :=
  { s with attachments := s.attachments.filter (!rows.contains ·) }

/-- Adds attachments, and adjusts the amounts if they are propagated. -/
def adding (s : Store) (rows : List Attachment) (propagate : Bool) : Store :=
  (s.plus rows).shifted fun h k => if propagate then s.gain rows h k else 0

/-- Removes attachments, and adjusts the amounts if they are propagated. -/
def removing (s : Store) (rows : List Attachment) (propagate : Bool) : Store :=
  (s.minus rows).shifted fun h k => if propagate then -(s.minus rows).gain rows h k else 0

/-- Marks a hierarchy unless its amounts were adjusted. -/
def marking (s : Store) (propagated : Bool) (hierarchy : HierarchyId) : Store :=
  { s with marked := if propagated || s.marked.contains hierarchy then s.marked
      else s.marked ++ [hierarchy] }

section
variable {s : Store} {rows : List Attachment} {propagate : Bool} {hierarchy : HierarchyId}

/-! ## The parts that change -/

@[simp] theorem minus_nodes : (s.minus rows).nodes = s.nodes := rfl
@[simp] theorem adding_attachments :
    (s.adding rows propagate).attachments = s.attachments ++ rows := rfl
@[simp] theorem marking_attachments :
    (s.marking propagate hierarchy).attachments = s.attachments := rfl

theorem mem_minus {link : Attachment} :
    link ∈ (s.minus rows).attachments ↔ link ∈ s.attachments ∧ link ∉ rows := by
  simp [minus]

theorem mem_removing {link : Attachment} :
    link ∈ (s.removing rows propagate).attachments ↔ link ∈ s.attachments ∧ link ∉ rows :=
  mem_minus

theorem mem_marking {h : HierarchyId} :
    h ∈ (s.marking propagate hierarchy).marked ↔
      h ∈ s.marked ∨ propagate = false ∧ h = hierarchy := by
  rw [marking]
  cases propagate with
  | true => simp
  | false =>
    by_cases hc : hierarchy ∈ s.marked
    · simp only [Bool.false_or, List.contains_iff_mem, hc, if_true, true_and]
      exact ⟨Or.inl, fun h => h.elim id fun he => he ▸ hc⟩
    · simp [hc]

theorem alike_plus (s : Store) (rows : List Attachment) : Alike s (s.plus rows) := ⟨rfl, rfl, rfl⟩

theorem alike_minus (s : Store) (rows : List Attachment) : Alike s (s.minus rows) := ⟨rfl, rfl, rfl⟩

theorem Indexed.minus (hs : s.Indexed) (rows : List Attachment) : (s.minus rows).Indexed :=
  hs.of_nodes rfl

theorem alike_adding (s : Store) (rows : List Attachment) (propagate : Bool) :
    Alike s (s.adding rows propagate) := (alike_plus s rows).trans (alike_shifted _ _)

theorem alike_removing (s : Store) (rows : List Attachment) (propagate : Bool) :
    Alike s (s.removing rows propagate) := (alike_minus s rows).trans (alike_shifted _ _)

theorem alike_marking (s : Store) (propagate : Bool) (hierarchy : HierarchyId) :
    Alike s (s.marking propagate hierarchy) := ⟨rfl, rfl, rfl⟩

/-! ## Holdings -/

theorem holdings_plus (h : HierarchyId) (k : String) :
    (s.plus rows).holdings h k = s.holdings h k ∪ reach s.nodes rows h k :=
  reach_append s.nodes s.attachments rows h k

theorem holdings_minus (hrows : ∀ row ∈ rows, row ∈ s.attachments) (h : HierarchyId) (k : String) :
    s.holdings h k = (s.minus rows).holdings h k ∪ reach s.nodes rows h k := by
  have hlinks : ∀ link, link ∈ s.attachments ↔ link ∈ (s.minus rows).attachments ++ rows := by
    intro link
    rw [List.mem_append, mem_minus]
    by_cases hin : link ∈ rows
    · exact ⟨fun _ => Or.inr hin, fun _ => hrows link hin⟩
    · exact ⟨fun hs => Or.inl ⟨hs, hin⟩, fun ho => ho.elim (·.1) fun hr => absurd hr hin⟩
  rw [holdings, reach_congr hlinks, reach_append]
  rfl

theorem gain_eq_zero (h : HierarchyId) (k : String) :
    s.gain rows h k = 0 ↔ reach s.nodes rows h k ⊆ s.holdings h k := by
  rw [gain, Int.natCast_eq_zero, Finset.card_eq_zero, Finset.sdiff_eq_empty_iff_subset]

theorem card_holdings_plus (h : HierarchyId) (k : String) :
    (((s.plus rows).holdings h k).card : Int) = (s.holdings h k).card + s.gain rows h k := by
  have hcard := Finset.card_sdiff_add_card (reach s.nodes rows h k) (s.holdings h k)
  rw [holdings_plus, gain, Finset.union_comm, ← hcard]
  omega

theorem card_holdings_minus (hrows : ∀ row ∈ rows, row ∈ s.attachments) (h : HierarchyId)
    (k : String) :
    ((s.holdings h k).card : Int) =
      ((s.minus rows).holdings h k).card + (s.minus rows).gain rows h k := by
  have hplus : s.holdings h k = ((s.minus rows).plus rows).holdings h k := by
    rw [holdings_plus, holdings_minus hrows]
    rfl
  rw [hplus, card_holdings_plus]

theorem gain_nil (h : HierarchyId) (k : String) : s.gain [] h k = 0 :=
  (gain_eq_zero h k).2 (Finset.empty_subset _)

theorem adding_nil (s : Store) (propagate : Bool) : s.adding [] propagate = s := by
  rw [adding, shifted_eq_self (by simp [gain_nil]), plus, List.append_nil]

theorem reach_eq_empty {nodes : List NodeRow} {h : HierarchyId}
    (hforeign : ∀ row ∈ nodes, row.hierarchy = h → ∀ asset, (asset, row.id) ∉ rows) (k : String) :
    reach nodes rows h k = ∅ := by
  rw [Finset.eq_empty_iff_forall_notMem]
  intro asset ha
  obtain ⟨row, hrow, hwithin, hlink⟩ := mem_reach.1 ha
  exact hforeign row hrow (hierarchy_of_isWithin hwithin) asset hlink

/-! ## Exact amounts -/

theorem counted_adding {h : HierarchyId} (hc : s.Counted h)
    (hp : propagate = true ∨ ∀ row ∈ s.nodes, row.hierarchy = h → ∀ asset, (asset, row.id) ∉ rows) :
    (s.adding rows propagate).Counted h := by
  intro row hrow hh
  rw [adding, shifted_nodes, List.mem_map] at hrow
  obtain ⟨old, hold, rfl⟩ := hrow
  rw [adding, holdings_shifted]
  show old.amount + _ = _
  rw [hc old hold hh, card_holdings_plus]
  rcases hp with rfl | hforeign
  · simp
  · have hzero : s.gain rows old.hierarchy old.key = 0 := by
      have hh' : old.hierarchy = h := hh
      rw [gain_eq_zero, hh', reach_eq_empty hforeign]
      exact Finset.empty_subset _
    simp [hzero]

theorem counted_removing {h : HierarchyId} (hc : s.Counted h)
    (hrows : ∀ row ∈ rows, row ∈ s.attachments)
    (hp : propagate = true ∨ ∀ row ∈ s.nodes, row.hierarchy = h → ∀ asset, (asset, row.id) ∉ rows) :
    (s.removing rows propagate).Counted h := by
  intro row hrow hh
  rw [removing, shifted_nodes, List.mem_map] at hrow
  obtain ⟨old, hold, rfl⟩ := hrow
  rw [removing, holdings_shifted]
  show old.amount + _ = _
  rw [hc old hold hh, card_holdings_minus hrows]
  rcases hp with rfl | hforeign
  · rw [if_pos rfl]
    exact Int.add_neg_cancel_right _ _
  · have hzero : (s.minus rows).gain rows old.hierarchy old.key = 0 := by
      have hh' : old.hierarchy = h := hh
      rw [gain_eq_zero, hh']
      rw [minus_nodes, reach_eq_empty hforeign]
      exact Finset.empty_subset _
    simp [hzero]

/-! ## Attachments within a hierarchy -/

theorem Alike.joins {t : Store} (h : Alike s t) (hj : s.Joins rows) : t.Joins rows := by
  intro link hlink
  obtain ⟨asset, hasset, row, hrow, hid, hrid, hh⟩ := hj link hlink
  obtain ⟨new, hnew, hid', hh', -, -⟩ := h.symm.exists_row hrow
  exact ⟨asset, h.assets ▸ hasset, new, hnew, hid, hid'.trans hrid, hh.trans hh'.symm⟩

theorem joined_adding (hs : s.Joined) (hj : s.Joins rows) : (s.adding rows propagate).Joined := by
  have h := alike_adding s rows propagate
  intro link hlink
  rcases List.mem_append.1 hlink with hold | hnew
  · exact h.joins hs link hold
  · exact h.joins hj link hnew

theorem joined_removing (hs : s.Joined) : (s.removing rows propagate).Joined := fun link hlink =>
  (alike_removing s rows propagate).joins hs link (mem_removing.1 hlink).1

theorem placed_adding (hs : s.Placed) : (s.adding rows propagate).Placed := fun asset hasset =>
  (hs asset hasset).imp fun _ h => List.mem_append_left _ h

end

end Inventory.Store
