import Inventory.CommandLine.Output
import Inventory.Proofs.Key.Text

/-! # What a count prints

The text of a key is made of digits and colons, so that it stands in a document as it is. A count
prints a line that ends with its two numbers, or a document with four fields, a line for each. -/
namespace Inventory
set_option autoImplicit false

namespace Json

/-- A text in which nothing is escaped stands between quotation marks as it is. -/
theorem quote_of_plain {text : String} (h : ∀ c ∈ text.toList, quoteChar c = [c]) :
    quote text = "\"" ++ text ++ "\"" := by
  have hplain : text.toList.flatMap quoteChar = text.toList := by
    rw [List.flatMap_congr h]
    exact List.flatMap_singleton' _
  rw [quote, hplain]
  apply String.toList_inj.1
  simp

theorem quoteChar_of_isDigit {c : Char} (h : c.isDigit = true) : quoteChar c = [c] := by
  have hne : ∀ d : Char, d.isDigit = false → c ≠ d := fun _ hd => Text.ne_of_isDigit h hd
  have hcontrol : ¬c.toNat < 0x20 := by
    have hvalue : c.toNat = c.val.toNat := rfl
    have hzero : '0'.val.toNat = 48 := rfl
    rw [Char.isDigit, Bool.and_eq_true, decide_eq_true_iff, decide_eq_true_iff] at h
    have hlow := UInt32.le_iff_toNat_le.1 h.1
    omega
  rw [quoteChar, if_neg (hne _ (by decide)), if_neg (hne _ (by decide)), if_neg (hne _ (by decide)),
    if_neg (hne _ (by decide)), if_neg (hne _ (by decide)), if_neg (hne _ (by decide)),
    if_neg (hne _ (by decide)), if_neg hcontrol]

theorem quote_key (key : Key) : quote key.text = "\"" ++ key.text ++ "\"" := by
  apply quote_of_plain
  intro c hc
  rcases key.isDigit_or_colon hc with hdigit | rfl
  · exact quoteChar_of_isDigit hdigit
  · decide

end Json

namespace CommandLine.Output
variable (id : NodeId) (key : Key) (n : Nat)

theorem render_count_text : (count id key n n).render .text =
    s!"{key.text} cached={n} computed={n}\n" := String.empty_append

theorem render_count_json : (count id key n n).render .json =
    s!"\x7b\n  \"node\": {id},\n  \"key\": \"{key.text}\",\n  \"cached\": {n},\n  \"computed\": {n}\n\x7d\n" := by
  have hnode : Json.quote "node" = "\"node\"" := rfl
  have hkey : Json.quote "key" = "\"key\"" := rfl
  have hcached : Json.quote "cached" = "\"cached\"" := rfl
  have hcomputed : Json.quote "computed" = "\"computed\"" := rfl
  have hnumber : toString (n : Int) = toString n := rfl
  have htext : ∀ text : String, toString text = text := fun _ => rfl
  rw [render, document, Json.pretty]
  simp only [Json.prettyFields, Json.pretty, Json.block, natural, hnode, hkey, hcached, hcomputed,
    Json.quote_key, hnumber, htext]
  apply String.toList_inj.1
  simp [Json.lineStart]

end CommandLine.Output
end Inventory
