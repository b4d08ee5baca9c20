import Inventory.Proofs.Store.Editing

/-! # What edits of attachments preserve

An edit within one hierarchy keeps rows distinct and within hierarchies, and it keeps the amounts of
every hierarchy exact if it propagates, else of every other one. Edits compose. When all assets are
attached in the end and the hierarchy is marked where needed, a sound store is sound again. -/
namespace Inventory.Store
set_option autoImplicit false

/-- What an edit of the attachments of a hierarchy keeps. -/
structure Keeps (propagate : Bool) (hierarchy : HierarchyId) (s t : Store) : Prop where
  alike : Alike s t
  marked : t.marked = s.marked
  single : s.attachments.Nodup → t.attachments.Nodup
  joined : s.Joined → t.Joined
  counted : ∀ h, propagate = true ∨ h ≠ hierarchy → s.Counted h → t.Counted h

section
variable {s t u : Store} {propagate : Bool} {hierarchy : HierarchyId} {rows : List Attachment}

theorem Keeps.trans (h : Keeps propagate hierarchy s t) (h' : Keeps propagate hierarchy t u) :
    Keeps propagate hierarchy s u where
  alike := h.alike.trans h'.alike
  marked := h'.marked.trans h.marked
  single hs := h'.single (h.single hs)
  joined hs := h'.joined (h.joined hs)
  counted k hk hs := h'.counted k hk (h.counted k hk hs)

/-- The rows are attachments to nodes of the hierarchy. -/
def Within (s : Store) (hierarchy : HierarchyId) (rows : List Attachment) : Prop :=
  ∀ link ∈ rows, ∀ row ∈ s.nodes, row.id = link.2 → row.hierarchy = hierarchy

theorem Within.foreign (h : s.Within hierarchy rows) {other : HierarchyId} (hne : other ≠ hierarchy) :
    ∀ row ∈ s.nodes, row.hierarchy = other → ∀ asset, (asset, row.id) ∉ rows := by
  intro row hrow hh asset hlink
  exact hne (hh.symm.trans (h _ hlink row hrow rfl))

theorem keeps_adding (hn : rows.Nodup) (hnew : ∀ link ∈ rows, link ∉ s.attachments)
    (hj : s.Joins rows) (hw : s.Within hierarchy rows) :
    Keeps propagate hierarchy s (s.adding rows propagate) where
  alike := alike_adding s rows propagate
  marked := rfl
  single hs := hs.append hn fun link hold hadded => hnew link hadded hold
  joined hs := joined_adding hs hj
  counted _ hh hc := counted_adding hc (hh.imp_right fun hne => hw.foreign hne)

theorem keeps_removing (propagate : Bool) (hold : ∀ link ∈ rows, link ∈ s.attachments)
    (hw : s.Within hierarchy rows) :
    Keeps propagate hierarchy s (s.removing rows propagate) where
  alike := alike_removing s rows propagate
  marked := rfl
  single hs := hs.filter _
  joined hs := joined_removing hs
  counted _ hh hc := counted_removing hc hold (hh.imp_right fun hne => hw.foreign hne)

theorem settled_iff : s.Settled ↔ ∀ h, h ∉ s.marked → s.Counted h := by
  constructor
  · intro hs h hh row hrow heq
    exact hs row hrow (heq ▸ hh)
  · intro hs row hrow hh
    exact hs row.hierarchy hh row hrow rfl

/-- An edit that marks its hierarchy where needed keeps a store steady. -/
theorem Keeps.steady (h : Keeps propagate hierarchy s t) (hs : s.Steady) :
    (t.marking propagate hierarchy).Steady := by
  have halike := h.alike.trans (alike_marking t propagate hierarchy)
  refine ⟨halike.formed hs.formed, h.single hs.single, h.joined hs.joined,
    halike.parented hs.parented, ?_⟩
  rw [settled_iff]
  intro other hother
  rw [mem_marking, not_or, not_and, h.marked] at hother
  refine h.counted other ?_ (settled_iff.1 hs.settled other hother.1)
  cases propagate with
  | true => exact Or.inl rfl
  | false => exact Or.inr (hother.2 rfl)

/-- An edit that attaches all assets in the end makes a store sound. -/
theorem Keeps.sound (h : Keeps propagate hierarchy s t) (hs : s.Steady) (hp : t.Placed) :
    (t.marking propagate hierarchy).Sound := ⟨h.steady hs, hp⟩

end

end Inventory.Store
