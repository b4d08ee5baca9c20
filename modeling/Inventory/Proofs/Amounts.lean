import Inventory.Proofs.Runs
import Mathlib.Data.Set.Card

/-! # Cached amounts

In a reachable store the cached amount of a node is the number of distinct assets that are attached
to it or to a node below it, unless its hierarchy is marked. Whatever requests did before, a
hierarchy whose amounts may be out of date has a mark. -/
namespace Inventory.Store
set_option autoImplicit false

/-- The second row names the first as its parent. -/
def IsParent (s : Store) (parent child : NodeRow) : Prop :=
  parent ∈ s.nodes ∧ child ∈ s.nodes ∧ child.hierarchy = parent.hierarchy ∧
    child.parentKey = parent.key

/-- The second row is the first or one of its descendants. -/
def Descends (s : Store) : NodeRow → NodeRow → Prop := Relation.ReflTransGen s.IsParent

variable {s : Store}

/-- Below a key are the descendants of its row. -/
theorem Sound.descends_of_below (hs : s.Sound) {top row : NodeRow} (htop : top ∈ s.nodes)
    (hrow : row ∈ s.nodes) {topKey key : Key} (htopKey : top.key = topKey.text)
    (hkey : row.key = key.text) (h : key.isDescendantOrSelf topKey = true) : s.Descends top row := by
  -- from parent to parent the key gets shorter, until it is that of the top
  induction hlen : key.path.length generalizing row key with
  | zero =>
    have hsame : key = topKey := by
      by_contra hne
      have hlonger := Key.length_segments_lt h hne
      rw [Key.segments, Key.segments, List.length_cons, List.length_cons, hlen] at hlonger
      omega
    rw [hs.formed.eq_of_key htop hrow (by rw [htopKey, hkey, hsame])]
    exact Relation.ReflTransGen.refl
  | succ n ih =>
    have hne : key.path ≠ [] := by
      intro hnil
      rw [hnil] at hlen
      cases hlen
    obtain ⟨parent, hparent⟩ := Option.ne_none_iff_exists'.1 (mt Key.parent?_eq_none.1 hne)
    rcases (Key.descendant_iff_of_parent? hparent).1 h with rfl | habove
    · rw [hs.formed.eq_of_key htop hrow (by rw [htopKey, hkey])]
      exact Relation.ReflTransGen.refl
    · have hpk : row.parentKey = parent.text := by
        rw [hs.formed.parentKey_eq hrow hkey, Key.parentText_of_parent? hparent]
      obtain ⟨up, hup, hhost, hupkey⟩ := hs.parented row hrow (hpk ▸ Key.text_ne_empty parent)
      refine (ih hup (hupkey.trans hpk) habove ?_).tail ⟨hup, hrow, hhost.symm, hupkey.symm⟩
      obtain ⟨segment, rfl⟩ := Key.eq_child_of_parent? hparent
      simpa [Key.child] using hlen

/-- Descendants stand below the key of their ancestor, in its hierarchy. -/
theorem Sound.below_of_descends (hs : s.Sound) {top row : NodeRow} (htop : top ∈ s.nodes)
    (h : s.Descends top row) : row ∈ s.nodes ∧ row.isWithin top.hierarchy top.key = true := by
  obtain ⟨topKey, htopKey, -⟩ := hs.formed.canonical top htop
  induction h with
  | refl =>
    refine ⟨htop, ?_⟩
    rw [htopKey, isWithin_iff htopKey]
    exact ⟨rfl, Key.descendant_refl topKey⟩
  | tail _ hstep ih =>
    obtain ⟨-, hchild, hhost, hparentKey⟩ := hstep
    obtain ⟨hin, hbelow⟩ := ih
    obtain ⟨key, hkey, hparent⟩ := hs.formed.canonical _ hchild
    obtain ⟨up, hup, -⟩ := hs.formed.canonical _ hin
    rw [htopKey, isWithin_iff hup] at hbelow
    have hkeys : key.parent? = some up :=
      Key.parentText_eq_text.1 (hparent.symm.trans (hparentKey.trans hup))
    refine ⟨hchild, ?_⟩
    rw [htopKey, isWithin_iff hkey]
    refine ⟨hhost.trans hbelow.1, ?_⟩
    exact (Key.descendant_iff_of_parent? hkeys).2 (Or.inr hbelow.2)

theorem Sound.coe_holdings (hs : s.Sound) {row : NodeRow} (hrow : row ∈ s.nodes) :
    (s.holdings row.hierarchy row.key : Set AssetId) =
      {asset | ∃ below, s.Descends row below ∧ (asset, below.id) ∈ s.attachments} := by
  ext asset
  rw [Finset.mem_coe, mem_holdings]
  constructor
  · rintro ⟨below, hbelow, hwithin, hlink⟩
    obtain ⟨topKey, htopKey, -⟩ := hs.formed.canonical row hrow
    obtain ⟨key, hkey, -⟩ := hs.formed.canonical below hbelow
    rw [htopKey, isWithin_iff hkey] at hwithin
    exact ⟨below, hs.descends_of_below hrow hbelow htopKey hkey hwithin.2, hlink⟩
  · rintro ⟨below, hdescends, hlink⟩
    obtain ⟨hbelow, hwithin⟩ := hs.below_of_descends hrow hdescends
    exact ⟨below, hbelow, hwithin, hlink⟩

theorem Sound.card_holdings (hs : s.Sound) {row : NodeRow} (hrow : row ∈ s.nodes) :
    (s.holdings row.hierarchy row.key).card =
      ({asset | ∃ below, s.Descends row below ∧ (asset, below.id) ∈ s.attachments} : Set AssetId).ncard := by
  rw [← hs.coe_holdings hrow, Set.ncard_coe_finset]

/-- Every amount of a hierarchy that is not marked is the number of distinct assets that are
attached to the node or to one of its descendants. -/
theorem Reachable.amount_eq (h : s.Reachable) {row : NodeRow} (hrow : row ∈ s.nodes)
    (hunmarked : row.hierarchy ∉ s.marked) :
    row.amount =
      ({asset | ∃ below, s.Descends row below ∧ (asset, below.id) ∈ s.attachments} : Set AssetId).ncard := by
  rw [← h.sound.coe_holdings hrow, Set.ncard_coe_finset]
  exact h.sound.settled row hrow hunmarked

/-- The root of the library holds the asset of its child. -/
theorem amount_eq_library :
    (⟨1, 1, "1", "", "Library", "/Library", 1⟩ : NodeRow).amount =
      ({asset | ∃ below, (({} : Tree).after library).store.Descends
          ⟨1, 1, "1", "", "Library", "/Library", 1⟩ below ∧
        (asset, below.id) ∈ (({} : Tree).after library).store.attachments} : Set AssetId).ncard :=
  (Tree.reachable_after Reachable.empty library).amount_eq (by decide +kernel) (by decide +kernel)

end Inventory.Store
