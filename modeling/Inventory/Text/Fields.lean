/-! Text as fields between separators. A text without the separator is one field, the empty text
is one empty field, and joining the fields gives the text back. -/
namespace Inventory.Text
set_option autoImplicit false

/-- The fields of a text, in order; there is one more of them than there are separators. -/
def fields (sep : Char) : List Char → List (List Char)
  | [] => [[]]
  | c :: rest =>
    if c = sep then [] :: fields sep rest
    else
      match fields sep rest with
      | [] => [[c]]
      | field :: more => (c :: field) :: more

/-- Fields written one after another with the separator between neighbours. -/
def joined (sep : Char) : List (List Char) → List Char
  | [] => []
  | [field] => field
  | field :: more => field ++ sep :: joined sep more

theorem fields_ne_nil (sep : Char) (text : List Char) : fields sep text ≠ [] := by
  cases text with
  | nil => simp [fields]
  | cons c rest => unfold fields; split <;> (try split) <;> simp

theorem joined_fields (sep : Char) (text : List Char) : joined sep (fields sep text) = text := by
  induction text with
  | nil => rfl
  | cons c rest ih =>
    unfold fields
    have hne := fields_ne_nil sep rest
    split
    · rename_i h
      cases hf : fields sep rest with
      | nil => exact absurd hf hne
      | cons field more => rw [hf] at ih; simp [joined, ih, h]
    · cases hf : fields sep rest with
      | nil => exact absurd hf hne
      | cons field more =>
        rw [hf] at ih
        cases more with
        | nil => simp_all [joined]
        | cons next others => simp_all [joined]

/-- A text without the separator is a single field. -/
theorem fields_of_not_mem {sep : Char} {text : List Char} (h : sep ∉ text) :
    fields sep text = [text] := by
  induction text with
  | nil => rfl
  | cons c rest ih =>
    simp only [List.mem_cons, not_or] at h
    unfold fields
    rw [if_neg (fun e => h.1 e.symm), ih h.2]

theorem fields_append {sep : Char} {field : List Char} (h : sep ∉ field) (rest : List Char) :
    fields sep (field ++ sep :: rest) = field :: fields sep rest := by
  induction field with
  | nil => simp [fields]
  | cons c cs ih =>
    simp only [List.mem_cons, not_or] at h
    rw [List.cons_append, fields, if_neg (fun e => h.1 e.symm), ih h.2]

theorem fields_joined {sep : Char} {parts : List (List Char)} (hne : parts ≠ [])
    (h : ∀ part ∈ parts, sep ∉ part) : fields sep (joined sep parts) = parts := by
  induction parts with
  | nil => exact absurd rfl hne
  | cons part more ih =>
    cases more with
    | nil => exact fields_of_not_mem (h part (by simp))
    | cons next others =>
      rw [joined, fields_append (h part (by simp)), ih (by simp) (fun p hp => h p (by simp [hp]))]
      simp

end Inventory.Text
