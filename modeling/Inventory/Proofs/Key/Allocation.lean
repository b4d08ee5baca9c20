import Inventory.Key.Allocation
import Inventory.Proofs.Key.Order

/-! # Free numbers and keys

The next number comes right after the largest in use, or is the first one, so that it has 64 bits as
long as those in use are below the largest of these. The numbers that count are those of the children
of the parent, or those of the roots; with the next of them a key comes after all these, and so it is
none of the keys there are. -/
namespace Inventory.Key
set_option autoImplicit false

/-! ## Numbers -/

theorem nextNumber_eq (used : List Nat) :
    nextNumber used = 1 ∨ ∃ n ∈ used, nextNumber used = n + 1 := by
  cases hmax : used.max? with
  | none => simp [nextNumber, hmax]
  | some n => exact Or.inr ⟨n, (List.max?_eq_some_iff.1 hmax).1, by simp [nextNumber, hmax]⟩

theorem exists_of_lt_nextNumber {used : List Nat} {m : Nat} (hm : 1 ≤ m) (h : m < nextNumber used) :
    ∃ n ∈ used, m ≤ n := by
  rcases nextNumber_eq used with hone | ⟨n, hn, hnext⟩
  · omega
  · exact ⟨n, hn, by omega⟩

theorem one_le_nextNumber (used : List Nat) : 1 ≤ nextNumber used := by
  rcases nextNumber_eq used with hone | ⟨n, -, hnext⟩ <;> omega

theorem nextNumber_le {used : List Nat} {bound : Nat} (hbound : 1 ≤ bound)
    (h : ∀ n ∈ used, n < bound) : nextNumber used ≤ bound := by
  rcases nextNumber_eq used with hone | ⟨n, hn, hnext⟩
  · omega
  · have := h n hn
    omega

theorem nextNumber_mono {used others : List Nat} (h : used ⊆ others) :
    nextNumber used ≤ nextNumber others := by
  rcases nextNumber_eq used with hone | ⟨n, hn, hnext⟩
  · have := one_le_nextNumber others
    omega
  · have := lt_nextNumber (h hn)
    omega

theorem nextNumber_congr {used others : List Nat} (h : ∀ n, n ∈ others ↔ n ∈ used) :
    nextNumber others = nextNumber used :=
  le_antisymm (nextNumber_mono fun n hn => (h n).1 hn) (nextNumber_mono fun n hn => (h n).2 hn)

/-! ## Children and roots -/

theorem isChildOf_child (key : Key) (n : Nat) : (key.child n).isChildOf key = true := by
  rw [isChildOf, Bool.and_eq_true, beq_iff_eq, isDescendantOrSelf_iff, depth, depth, segments_child]
  exact ⟨List.length_append, List.prefix_append _ _⟩

/-- A key that begins with another and has one segment more is a child of it. -/
theorem isChildOf_iff {key parent : Key} :
    key.isChildOf parent = true ↔ key.parent? = some parent := by
  constructor
  · intro h
    rw [isChildOf, Bool.and_eq_true, beq_iff_eq, isDescendantOrSelf_iff, depth, depth] at h
    obtain ⟨hlength, tail, htail⟩ := h
    have hone : tail.length = 1 := by
      have := congrArg List.length htail
      rw [List.length_append] at this
      omega
    obtain ⟨n, rfl⟩ := List.length_eq_one_iff.1 hone
    rw [← segments_child] at htail
    rw [← segments_injective htail, parent?_child]
  · intro h
    obtain ⟨n, rfl⟩ := eq_child_of_parent? h
    exact isChildOf_child parent n

theorem isRoot_iff {key : Key} : key.isRoot = true ↔ key.parent? = none := by
  rw [isRoot, List.isEmpty_iff, parent?_eq_none]

theorem eq_ofRoot {key : Key} (h : key.parent? = none) : key = ofRoot key.lastSegment := by
  obtain ⟨root, path⟩ := key
  obtain rfl : path = [] := parent?_eq_none.1 h
  rfl

theorem mem_childNumbers {parent : Key} {existing : List Key} {n : Nat} :
    n ∈ (existing.filter (·.isChildOf parent)).map lastSegment ↔ parent.child n ∈ existing := by
  simp only [List.mem_map, List.mem_filter]
  constructor
  · rintro ⟨key, ⟨hkey, hchild⟩, rfl⟩
    obtain ⟨m, rfl⟩ := eq_child_of_parent? (isChildOf_iff.1 hchild)
    rwa [lastSegment_child]
  · intro h
    exact ⟨parent.child n, ⟨h, isChildOf_child parent n⟩, lastSegment_child parent n⟩

theorem mem_rootNumbers {existing : List Key} {n : Nat} :
    n ∈ (existing.filter isRoot).map lastSegment ↔ ofRoot n ∈ existing := by
  simp only [List.mem_map, List.mem_filter]
  constructor
  · rintro ⟨key, ⟨hkey, hroot⟩, rfl⟩
    rwa [← eq_ofRoot (isRoot_iff.1 hroot)]
  · intro h
    exact ⟨ofRoot n, ⟨h, rfl⟩, rfl⟩

theorem child_lt_child (parent : Key) {m n : Nat} (h : m < n) : parent.child m < parent.child n := by
  show (parent.child m).segments < (parent.child n).segments
  rw [segments_child, segments_child]
  apply List.append_left_lt
  exact List.cons_lt_cons_iff.2 (Or.inl h)

theorem ofRoot_lt_ofRoot {m n : Nat} (h : m < n) : ofRoot m < ofRoot n :=
  List.cons_lt_cons_iff.2 (Or.inl h)

/-! ## Free keys -/

/-- The key has a number of 64 bits, is none of the given ones, and comes after those of them that
have the same parent, or like it have none. -/
structure FreeAmong (existing : List Key) (parent : Option Key) (key : Key) : Prop where
  placed : key.parent? = parent
  fits : key.lastSegment ≤ Text.maxWord
  new : key ∉ existing
  last : ∀ other ∈ existing, other.parent? = parent → other < key

/-- The numbers of the given keys that have this parent are not used up. -/
def HasRoom (existing : List Key) (parent : Option Key) : Prop :=
  ∀ key ∈ existing, key.parent? = parent → key.lastSegment < Text.maxWord

instance (existing : List Key) (parent : Option Key) : Decidable (HasRoom existing parent) :=
  inferInstanceAs (Decidable (∀ key ∈ existing, key.parent? = parent → key.lastSegment < Text.maxWord))

theorem lt_nextChild {parent : Key} {existing : List Key} {n : Nat} (h : parent.child n ∈ existing) :
    parent.child n < nextChild parent existing :=
  child_lt_child parent (lt_nextNumber (mem_childNumbers.2 h))

theorem nextChild_not_mem (parent : Key) {existing : List Key} : nextChild parent existing ∉ existing :=
  fun h => precedes_irrefl _ (lt_nextChild h)

theorem lt_nextRoot {existing : List Key} {n : Nat} (h : ofRoot n ∈ existing) :
    ofRoot n < nextRoot existing :=
  ofRoot_lt_ofRoot (lt_nextNumber (mem_rootNumbers.2 h))

theorem nextRoot_not_mem {existing : List Key} : nextRoot existing ∉ existing :=
  fun h => precedes_irrefl _ (lt_nextRoot h)

theorem nextChild_free {parent : Key} {existing : List Key} (h : HasRoom existing (some parent)) :
    FreeAmong existing (some parent) (nextChild parent existing) where
  placed := parent?_child _ _
  fits := by
    rw [nextChild, lastSegment_child]
    apply nextNumber_le (by decide)
    intro n hn
    have hroom := h _ (mem_childNumbers.1 hn) (parent?_child _ _)
    rwa [lastSegment_child] at hroom
  new := nextChild_not_mem parent
  last other hother hup := by
    obtain ⟨n, rfl⟩ := eq_child_of_parent? hup
    exact lt_nextChild hother

theorem nextRoot_free {existing : List Key} (h : HasRoom existing none) :
    FreeAmong existing none (nextRoot existing) where
  placed := rfl
  fits := by
    show nextNumber _ ≤ Text.maxWord
    apply nextNumber_le (by decide)
    intro n hn
    exact h _ (mem_rootNumbers.1 hn) rfl
  new := nextRoot_not_mem
  last other hother hup := by
    rw [eq_ofRoot hup] at hother ⊢
    exact lt_nextRoot hother

theorem nextChild_congr {parent : Key} {existing others : List Key}
    (h : ∀ key, key.parent? = some parent → (key ∈ others ↔ key ∈ existing)) :
    nextChild parent others = nextChild parent existing := by
  rw [nextChild, nextChild]
  congr 1
  apply nextNumber_congr
  intro n
  rw [mem_childNumbers, mem_childNumbers, h _ (parent?_child _ _)]

theorem nextRoot_congr {existing others : List Key}
    (h : ∀ key, key.parent? = none → (key ∈ others ↔ key ∈ existing)) :
    nextRoot others = nextRoot existing := by
  rw [nextRoot, nextRoot]
  congr 1
  apply nextNumber_congr
  intro n
  rw [mem_rootNumbers, mem_rootNumbers, h _ rfl]

end Inventory.Key
