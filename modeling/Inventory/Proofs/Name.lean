import Inventory.Name
import Mathlib.Data.List.DropRight

/-! # Names that are stored as they are

A name that has been validated, and a part of a path, is stored unchanged, so that looking it up
among siblings and storing it agree. A preset name is new among its siblings as long as its number
has 64 bits, for the numbers of the siblings are read back. A path gives back the names that it was
put together from. -/
namespace Inventory
set_option autoImplicit false

/-! ## Trimming -/

namespace Text

theorem trim_prefix_dropWhile (text : List Char) : trim text <+: text.dropWhile isBlank :=
  List.rdropWhile_prefix isBlank _

theorem trimmed_trim (text : List Char) : Trimmed (trim text) := by
  have hhead : (trim text).head?.all (!isBlank ·) := by
    cases htrim : trim text with
    | nil => rfl
    | cons c rest =>
      have hblank := head?_dropWhile_isBlank text
      obtain ⟨more, hmore⟩ := trim_prefix_dropWhile text
      rw [← hmore, htrim] at hblank
      exact hblank
  have hlast : (trim text).getLast?.all (!isBlank ·) := by
    have hblank := head?_dropWhile_isBlank (text.dropWhile isBlank).reverse
    rwa [trim, List.getLast?_reverse]
  exact ⟨hhead, hlast⟩

theorem trim_trim (text : List Char) : trim (trim text) = trim text :=
  trim_of_trimmed (trimmed_trim text)

theorem mem_of_mem_trim {text : List Char} {c : Char} (h : c ∈ trim text) : c ∈ text :=
  (List.dropWhile_suffix isBlank).subset ((trim_prefix_dropWhile text).subset h)

theorem not_isBlank_of_isDigit {c : Char} (h : c.isDigit = true) : isBlank c = false := by
  have hrange : 48 ≤ c.toNat ∧ c.toNat ≤ 57 := by
    simpa [Char.isDigit, UInt32.le_iff_toNat_le] using h
  simp only [isBlank, Bool.or_eq_false_iff, Bool.and_eq_false_iff, beq_eq_false_iff_ne,
    decide_eq_false_iff_not]
  omega

/-! ## Fields -/

theorem fields_append_fields {sep : Char} (text rest : List Char) :
    fields sep (text ++ sep :: rest) = fields sep text ++ fields sep rest := by
  induction text with
  | nil => simp [fields]
  | cons c more ih =>
    rw [List.cons_append, fields, fields, ih]
    by_cases hc : c = sep
    · rw [if_pos hc, if_pos hc]
      rfl
    · rw [if_neg hc, if_neg hc]
      cases hfields : fields sep more with
      | nil => exact absurd hfields (fields_ne_nil sep more)
      | cons first others => rfl

theorem not_mem_of_mem_fields {sep : Char} {text field : List Char} (h : field ∈ fields sep text) :
    sep ∉ field := by
  induction text generalizing field with
  | nil =>
    rw [fields, List.mem_singleton] at h
    rw [h]
    exact List.not_mem_nil
  | cons c rest ih =>
    rw [fields] at h
    by_cases hc : c = sep
    · rw [if_pos hc] at h
      rcases List.mem_cons.1 h with rfl | hrest
      · exact List.not_mem_nil
      · exact ih hrest
    · rw [if_neg hc] at h
      cases hfields : fields sep rest with
      | nil => exact absurd hfields (fields_ne_nil sep rest)
      | cons first more =>
        rw [hfields] at h ih
        rcases List.mem_cons.1 h with rfl | hmore
        · have hfirst : sep ∉ first := ih List.mem_cons_self
          rw [List.mem_cons, not_or]
          exact ⟨fun heq => hc heq.symm, hfirst⟩
        · exact ih (List.mem_cons_of_mem _ hmore)

end Text

/-! ## Stored names -/

namespace Name

/-- The name is stored as it is. -/
def Plain (name : String) : Prop := validate name = .ok name

theorem plain_of_trimmed {text : List Char} (htrim : Text.trim text = text) (hne : text ≠ [])
    (hslash : '/' ∉ text) : Plain (String.ofList text) := by
  have hempty : text.isEmpty = false := by simpa using hne
  have hno : text.contains '/' = false := by simpa using hslash
  rw [Plain, validate, String.toList_ofList, htrim, hempty, hno]
  rfl

theorem plain_iff {name : String} :
    Plain name ↔ name.toList ≠ [] ∧ Text.trim name.toList = name.toList ∧ '/' ∉ name.toList := by
  constructor
  · intro h
    rw [Plain, validate] at h
    by_cases hempty : (Text.trim name.toList).isEmpty = true
    · rw [if_pos hempty] at h
      cases h
    · rw [if_neg hempty] at h
      by_cases hslash : (Text.trim name.toList).contains '/' = true
      · rw [if_pos hslash] at h
        cases h
      · rw [if_neg hslash] at h
        have htrim : Text.trim name.toList = name.toList := by
          rw [← String.toList_ofList (l := Text.trim name.toList), Except.ok.inj h]
        rw [htrim] at hempty hslash
        exact ⟨by simpa using hempty, htrim, by simpa using hslash⟩
  · rintro ⟨hne, htrim, hslash⟩
    have hplain := plain_of_trimmed htrim hne hslash
    rwa [String.ofList_toList] at hplain

theorem plain_of_validate {text name : String} (h : validate text = .ok name) : Plain name := by
  rw [validate] at h
  by_cases hempty : (Text.trim text.toList).isEmpty = true
  · rw [if_pos hempty] at h
    cases h
  · rw [if_neg hempty] at h
    by_cases hslash : (Text.trim text.toList).contains '/' = true
    · rw [if_pos hslash] at h
      cases h
    · rw [if_neg hslash] at h
      cases h
      refine plain_of_trimmed (Text.trim_trim _) (by simpa using hempty) ?_
      rwa [List.contains_iff_mem] at hslash

theorem plain_of_mem_parts {path part : String} (h : part ∈ parts path) : Plain part := by
  obtain ⟨text, htext, rfl⟩ := List.mem_map.1 h
  obtain ⟨htrimmed, hne⟩ := List.mem_filter.1 htext
  obtain ⟨field, hfield, rfl⟩ := List.mem_map.1 htrimmed
  have hslash : '/' ∉ Text.trim field := fun hin =>
    Text.not_mem_of_mem_fields hfield (Text.mem_of_mem_trim hin)
  exact plain_of_trimmed (Text.trim_trim field) (by simpa using hne) hslash

/-- The names along a path from a root, which the path may name first. -/
def below (root path : String) : List String :=
  if (parts path).head? = some root then (parts path).tail else parts path

theorem plain_of_mem_below {path root name : String} (h : name ∈ below root path) : Plain name := by
  rw [below] at h
  by_cases hlead : (parts path).head? = some root
  · rw [if_pos hlead] at h
    exact plain_of_mem_parts (List.mem_of_mem_tail h)
  · rw [if_neg hlead] at h
    exact plain_of_mem_parts h

/-! ## Paths -/

theorem parts_append (path rest : String) :
    parts (path ++ "/" ++ rest) = parts path ++ parts rest := by
  have hlist : (path ++ "/" ++ rest).toList = path.toList ++ '/' :: rest.toList := by simp
  rw [parts, hlist, Text.fields_append_fields, List.map_append, List.filter_append, List.map_append]
  rfl

theorem Plain.parts_eq {name : String} (h : Plain name) : parts name = [name] := by
  obtain ⟨hne, htrim, hslash⟩ := plain_iff.1 h
  have hempty : name.toList.isEmpty = false := by simpa using hne
  rw [parts, Text.fields_of_not_mem hslash, List.map_singleton, htrim,
    List.filter_singleton, hempty]
  simp

theorem Plain.parts_root {name : String} (h : Plain name) : parts ("/" ++ name) = [name] := by
  have hempty : parts "" = [] := rfl
  have happend := parts_append "" name
  rwa [hempty, h.parts_eq] at happend

/-- A path that goes on with further names. -/
def extend (path : String) (names : List String) : String :=
  names.foldl (fun path name => path ++ "/" ++ name) path

theorem parts_extend {path : String} {names : List String} (h : ∀ name ∈ names, Plain name) :
    parts (extend path names) = parts path ++ names := by
  induction names generalizing path with
  | nil => exact (List.append_nil _).symm
  | cons name rest ih =>
    have hgoes : extend path (name :: rest) = extend (path ++ "/" ++ name) rest := rfl
    rw [hgoes, ih fun other hother => h other (List.mem_cons_of_mem _ hother), parts_append,
      (h name List.mem_cons_self).parts_eq, List.append_assoc, List.singleton_append]

/-- A path that leads with its root is followed from there. -/
theorem below_extend {root : String} {names : List String} (hroot : Plain root)
    (h : ∀ name ∈ names, Plain name) : below root (extend ("/" ++ root) names) = names := by
  rw [below, parts_extend h, hroot.parts_root, List.singleton_append, List.head?_cons, if_pos rfl,
    List.tail_cons]

/-! ## Preset names -/

theorem readUnsigned?_numeral {n : Nat} (h : n ≤ Text.maxWord) :
    Text.readUnsigned? (Text.numeral n) = some n := by
  have hread := Text.readWord?_numeral h
  cases hdigits : Text.numeral n with
  | nil => exact absurd hdigits (Text.numeral_ne_nil n)
  | cons c rest =>
    have hdigit : c.isDigit = true := Text.isDigit_of_mem_numeral (hdigits ▸ List.mem_cons_self)
    have hplus : c ≠ '+' := by
      rintro rfl
      exact absurd hdigit (by decide)
    rw [hdigits] at hread
    rw [Text.readUnsigned?]
    · exact hread
    · intro digits heq
      exact hplus (List.cons.inj heq).1

theorem toList_numbered (text : String) (n : Nat) :
    s!"{text} {n}".toList = text.toList ++ ' ' :: Text.numeral n := by
  simp [toString, Text.numeral]

/-- What follows the preset text and a space is read. -/
theorem presetNumber?_of_toList {text name : String} {rest : List Char}
    (h : name.toList = text.toList ++ ' ' :: rest) : presetNumber? text name = Text.readUnsigned? rest := by
  have hlist : name.toList = (text.toList ++ [' ']) ++ rest := by
    rw [h, List.append_assoc]
    rfl
  have hlead : (text.toList ++ [' ']).isPrefixOf ((text.toList ++ [' ']) ++ rest) = true :=
    List.isPrefixOf_iff_prefix.2 (List.prefix_append _ _)
  rw [presetNumber?, hlist, if_pos hlead, List.drop_left]

theorem presetNumber?_self (text : String) {n : Nat} (h : n ≤ Text.maxWord) :
    presetNumber? text s!"{text} {n}" = some n := by
  rw [presetNumber?_of_toList (toList_numbered text n), readUnsigned?_numeral h]

theorem preset_not_mem {text : String} {siblings : List String}
    (h : presetNumber text siblings ≤ Text.maxWord) : preset text siblings ∉ siblings := by
  intro hin
  have hnumber : presetNumber text siblings ∈ siblings.filterMap (presetNumber? text) :=
    List.mem_filterMap.2 ⟨_, hin, presetNumber?_self text h⟩
  exact absurd (Key.lt_nextNumber hnumber) (lt_irrefl _)

/-- The text can stand in front of numbers: it begins with no blank and has no slash. -/
def Leads (text : String) : Prop :=
  (∃ c rest, text.toList = c :: rest ∧ Text.isBlank c = false) ∧ '/' ∉ text.toList

theorem Leads.plain {text : String} (h : Leads text) (n : Nat) : Plain s!"{text} {n}" := by
  obtain ⟨⟨c, rest, hlist, hc⟩, hslash⟩ := h
  rw [plain_iff, toList_numbered]
  refine ⟨by simp, Text.trim_of_trimmed ⟨?_, ?_⟩, ?_⟩
  · simp [hlist, hc]
  · have hlast : (text.toList ++ (' ' :: Text.numeral n)).getLast? = (Text.numeral n).getLast? := by
      rw [List.getLast?_append_of_ne_nil _ (List.cons_ne_nil _ _),
        List.getLast?_cons_of_ne_nil (Text.numeral_ne_nil n)]
    rw [hlast]
    cases hdigit : (Text.numeral n).getLast? with
    | none => rfl
    | some d =>
      have hd := Text.isDigit_of_mem_numeral (List.mem_of_getLast? hdigit)
      simp [Text.not_isBlank_of_isDigit hd]
  · rw [List.mem_append, List.mem_cons, not_or, not_or]
    exact ⟨hslash, by decide, fun hin => absurd (Text.isDigit_of_mem_numeral hin) (by decide)⟩

end Name
end Inventory
