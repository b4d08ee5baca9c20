/-! Blank characters and trimming. Blank is the White_Space property of Unicode, so a name of
ideographic spaces is as blank as one of tabs. -/
namespace Inventory.Text
set_option autoImplicit false

/-- Characters with the White_Space property. -/
def isBlank (c : Char) : Bool :=
  let n := c.toNat
  (9 ≤ n && n ≤ 13) || n == 0x20 || n == 0x85 || n == 0xa0 || n == 0x1680 ||
    (0x2000 ≤ n && n ≤ 0x200a) || n == 0x2028 || n == 0x2029 || n == 0x202f || n == 0x205f ||
    n == 0x3000

/-- A text without the blank characters at its two ends. -/
def trim (text : List Char) : List Char :=
  ((text.dropWhile isBlank).reverse.dropWhile isBlank).reverse

/-- The ends of a trimmed text are not blank. -/
def Trimmed (text : List Char) : Prop :=
  text.head?.all (!isBlank ·) ∧ text.getLast?.all (!isBlank ·)

theorem head?_dropWhile_isBlank (text : List Char) :
    (text.dropWhile isBlank).head?.all (!isBlank ·) := by
  induction text with
  | nil => rfl
  | cons c rest ih =>
    rw [List.dropWhile_cons]
    split
    · exact ih
    · rename_i h; simpa using h

theorem dropWhile_isBlank_of_head? {text : List Char} (h : text.head?.all (!isBlank ·)) :
    text.dropWhile isBlank = text := by
  cases text with
  | nil => rfl
  | cons c rest =>
    have hc : isBlank c = false := by simpa using h
    rw [List.dropWhile_cons, if_neg (by simp [hc])]

theorem trim_of_trimmed {text : List Char} (h : Trimmed text) : trim text = text := by
  rw [trim, dropWhile_isBlank_of_head? h.1, dropWhile_isBlank_of_head?, List.reverse_reverse]
  simpa [List.head?_reverse] using h.2

end Inventory.Text
