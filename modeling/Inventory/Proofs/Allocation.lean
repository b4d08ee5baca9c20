import Inventory.Proofs.Key.Allocation
import Inventory.Proofs.Key.Format
import Inventory.Proofs.Name

/-! # New keys and names are free

The numbers in names are told by what is written after the preset text and a space: the digits of a
number of 64 bits, which zeros and a plus sign may precede. The next name has a number after all of
these, written in digits alone, and so no sibling has that name, in whatever way it spells its own
number. Together with the free keys this is all a new child needs to be told from its siblings. -/
namespace Inventory
set_option autoImplicit false

namespace Text

theorem readUnsigned?_eq_some_iff {text : List Char} {n : Nat} :
    readUnsigned? text = some n ↔
      ∃ sign run, text = sign ++ run ∧ (sign = [] ∨ sign = ['+']) ∧ IsWord run n := by
  constructor
  · intro h
    rw [readUnsigned?.eq_def] at h
    split at h
    · exact ⟨['+'], _, rfl, Or.inr rfl, readWord?_eq_some_iff.1 h⟩
    · exact ⟨[], text, rfl, Or.inl rfl, readWord?_eq_some_iff.1 h⟩
  · rintro ⟨sign, run, rfl, rfl | rfl, hword⟩
    · rw [List.nil_append, readUnsigned?]
      · exact readWord?_eq_some_iff.2 hword
      · rintro digits rfl
        exact absurd (hword.digits '+' List.mem_cons_self) (by decide)
    · exact readWord?_eq_some_iff.2 hword

end Text

namespace Name

/-- The name is the text, a space and a numeral of 64 bits, perhaps with a plus sign or zeros. -/
def Numbered (text name : String) (n : Nat) : Prop :=
  ∃ sign run, name.toList = text.toList ++ ' ' :: (sign ++ run) ∧ (sign = [] ∨ sign = ['+']) ∧
    Text.IsWord run n

theorem presetNumber?_eq_some_iff {text name : String} {n : Nat} :
    presetNumber? text name = some n ↔ Numbered text name n := by
  constructor
  · intro h
    rw [presetNumber?] at h
    by_cases hlead : (text.toList ++ [' ']).isPrefixOf name.toList = true
    · obtain ⟨rest, hrest⟩ := List.isPrefixOf_iff_prefix.1 hlead
      rw [if_pos hlead, ← hrest, List.drop_left, Text.readUnsigned?_eq_some_iff] at h
      obtain ⟨sign, run, rfl, hsign, hword⟩ := h
      exact ⟨sign, run, by simp [← hrest], hsign, hword⟩
    · rw [if_neg hlead] at h
      cases h
  · rintro ⟨sign, run, hlist, hsign, hword⟩
    rw [presetNumber?_of_toList hlist, Text.readUnsigned?_eq_some_iff]
    exact ⟨sign, run, rfl, hsign, hword⟩

/-- The numbers that siblings have after the text are not used up. -/
def HasRoom (text : String) (siblings : List String) : Prop :=
  ∀ name ∈ siblings, ∀ n, Numbered text name n → n < Text.maxWord

theorem hasRoom_iff {text : String} {siblings : List String} :
    (∀ n ∈ siblings.filterMap (presetNumber? text), n < Text.maxWord) ↔ HasRoom text siblings := by
  simp only [List.mem_filterMap, presetNumber?_eq_some_iff, HasRoom]
  constructor
  · exact fun h name hname n hn => h n ⟨name, hname, hn⟩
  · rintro h n ⟨name, hname, hn⟩
    exact h name hname n hn

instance (text : String) (siblings : List String) : Decidable (HasRoom text siblings) :=
  decidable_of_iff _ hasRoom_iff

theorem lt_presetNumber {text name : String} {siblings : List String} {n : Nat}
    (hname : name ∈ siblings) (h : Numbered text name n) : n < presetNumber text siblings :=
  Key.lt_nextNumber (List.mem_filterMap.2 ⟨name, hname, presetNumber?_eq_some_iff.2 h⟩)

theorem presetNumber_le {text : String} {siblings : List String} (h : HasRoom text siblings) :
    presetNumber text siblings ≤ Text.maxWord :=
  Key.nextNumber_le (by decide) (hasRoom_iff.2 h)

theorem numbered_preset {text : String} {siblings : List String} (h : HasRoom text siblings) :
    Numbered text (preset text siblings) (presetNumber text siblings) :=
  presetNumber?_eq_some_iff.1 (presetNumber?_self text (presetNumber_le h))

end Name

/-- As long as the numbers in use are below the largest of 64 bits, a new child or root gets a key
that none of the given keys is and that comes after all with the same parent, or after all roots, and
nothing but these decides which. A preset name gets a number after those of its siblings, which none
of them has in its name. -/
theorem allocation_fresh :
    (∀ (parent : Key) (existing : List Key),
      (Key.HasRoom existing (some parent) →
        Key.FreeAmong existing (some parent) (Key.nextChild parent existing)) ∧
      ∀ others : List Key, (∀ key, key.parent? = some parent → (key ∈ others ↔ key ∈ existing)) →
        Key.nextChild parent others = Key.nextChild parent existing) ∧
    (∀ existing : List Key,
      (Key.HasRoom existing none → Key.FreeAmong existing none (Key.nextRoot existing)) ∧
      ∀ others : List Key, (∀ key, key.parent? = none → (key ∈ others ↔ key ∈ existing)) →
        Key.nextRoot others = Key.nextRoot existing) ∧
    ∀ (text : String) (siblings : List String), Name.HasRoom text siblings →
      Name.preset text siblings ∉ siblings ∧
      ∃ n ≤ Text.maxWord, Name.Numbered text (Name.preset text siblings) n ∧
        ∀ name ∈ siblings, ∀ m, Name.Numbered text name m → m < n := by
  refine ⟨fun parent existing => ⟨Key.nextChild_free, fun others => Key.nextChild_congr⟩,
    fun existing => ⟨Key.nextRoot_free, fun others => Key.nextRoot_congr⟩, fun text siblings hroom => ?_⟩
  have hfits := Name.presetNumber_le hroom
  refine ⟨Name.preset_not_mem hfits, Name.presetNumber text siblings, hfits, Name.numbered_preset hroom, ?_⟩
  exact fun name hname m => Name.lt_presetNumber hname

/-- Below the shelf 1:4 the keys of its boxes count, and not those of their contents, of the shelf 1:40
or of a whole other tree. Of the names, one is numbered with a sign and one with zeros, and one has too
large a number to have any. -/
theorem allocation_fresh_shelf :
    Key.nextChild ⟨1, [4]⟩ [⟨1, [4, 7]⟩, ⟨1, [4, 7, 30]⟩, ⟨1, [40, 9]⟩, ⟨9, []⟩] = ⟨1, [4, 8]⟩ ∧
    Key.FreeAmong [⟨1, [4, 7]⟩, ⟨1, [4, 7, 30]⟩, ⟨1, [40, 9]⟩, ⟨9, []⟩] (some ⟨1, [4]⟩) ⟨1, [4, 8]⟩ ∧
    Key.FreeAmong [⟨1, [4, 7]⟩, ⟨9, []⟩] none ⟨10, []⟩ ∧
    Name.preset "Box" ["Box +9", "Box 007", "Boxes 40", "Box 18446744073709551616"] = "Box 10" ∧
    "Box 10" ∉ ["Box +9", "Box 007", "Boxes 40", "Box 18446744073709551616"] := by
  obtain ⟨hchild, hroot, hname⟩ := allocation_fresh
  have hkeys : Key.HasRoom [⟨1, [4, 7]⟩, ⟨1, [4, 7, 30]⟩, ⟨1, [40, 9]⟩, ⟨9, []⟩] (some ⟨1, [4]⟩) := by
    decide
  have hroots : Key.HasRoom [⟨1, [4, 7]⟩, ⟨9, []⟩] none := by decide
  have hnames : Name.HasRoom "Box" ["Box +9", "Box 007", "Boxes 40", "Box 18446744073709551616"] := by
    decide +kernel
  have hpreset : Name.preset "Box" ["Box +9", "Box 007", "Boxes 40", "Box 18446744073709551616"] =
      "Box 10" := by
    decide +kernel
  exact ⟨rfl, (hchild _ _).1 hkeys, (hroot _).1 hroots, hpreset, hpreset ▸ (hname _ _ hnames).1⟩

end Inventory
