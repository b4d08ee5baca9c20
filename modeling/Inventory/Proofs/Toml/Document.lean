import Inventory.Proofs.Toml.Quote
import Inventory.Proofs.Toml.Scalar
import Inventory.Toml.Document

/-! # Documents that are read line by line

A reader takes something off the front of a text. Put one after another, readers take their parts off
one by one, and a document is read when each of its lines is: `Draft.Reads` says what a text does to
the draft of a document, whatever the bound on the number of lines, as long as it is large enough. -/
namespace Inventory.Toml
set_option autoImplicit false

/-- The text starts with a character that is no blank. -/
def Unblank (text : List Char) : Prop := ∃ c more, text = c :: more ∧ c ≠ ' ' ∧ c ≠ '\t'

theorem unblank_cons {c : Char} (hs : c ≠ ' ') (ht : c ≠ '\t') (more : List Char) : Unblank (c :: more) :=
  ⟨c, more, rfl, hs, ht⟩

theorem Unblank.append {text : List Char} (h : Unblank text) (rest : List Char) : Unblank (text ++ rest) := by
  obtain ⟨c, more, rfl, hs, ht⟩ := h
  exact unblank_cons hs ht _

namespace Reader
variable {α β : Type} {text rest : List Char}

theorem bind_eq {x : Reader α} {next : α → Reader β} {a : α} (h : x text = some (a, rest)) :
    (x >>= next) text = next a rest := by
  show (x text).bind _ = _
  rw [h]
  rfl

theorem map_eq {x : Reader α} {f : α → β} {a : α} (h : x text = some (a, rest)) :
    (f <$> x) text = some (f a, rest) := by
  show (x text).bind _ = _
  rw [h]
  rfl

theorem char_cons (c : Char) (rest : List Char) : char c (c :: rest) = some ((), rest) := by
  simp [char, expect?]

theorem peek_cons (c : Char) (rest : List Char) : peek (c :: rest) = some (some c, c :: rest) := rfl

/-- A run that is followed by a character outside is taken off. -/
theorem run_append {test : Char → Bool} {chars : List Char} (h : ∀ c ∈ chars, test c = true) {c : Char}
    (hc : test c = false) (rest : List Char) :
    run test (chars ++ c :: rest) = some (chars, c :: rest) := by
  simp [run, List.takeWhile_append_of_pos h, List.dropWhile_append_of_pos h, hc]

theorem blanks_append {gap : List Char} (hgap : ∀ c ∈ gap, c = ' ' ∨ c = '\t') (h : Unblank text) :
    blanks (gap ++ text) = some ((), text) := by
  obtain ⟨c, more, rfl, hs, ht⟩ := h
  have hblank : ∀ d ∈ gap, (d == ' ' || d == '\t') = true := by simpa using hgap
  have hc : (c == ' ' || c == '\t') = false := by simp [hs, ht]
  exact map_eq (run_append hblank hc more)

theorem blanks_eq (h : Unblank text) : blanks text = some ((), text) :=
  blanks_append (List.forall_mem_nil _) h

theorem lineEnd_break (rest : List Char) : lineEnd ('\n' :: rest) = some ((), rest) := rfl

end Reader

open Reader

/-! ## Keys -/

/-- The name can stand for a key without quotes. -/
structure IsBare (name : String) : Prop where
  nonempty : name.toList ≠ []
  chars : ∀ c ∈ name.toList, isKeyChar c = true

instance (name : String) : Decidable (IsBare name) :=
  decidable_of_iff (name.toList ≠ [] ∧ name.toList.all isKeyChar = true)
    ⟨fun h => ⟨h.1, List.all_eq_true.1 h.2⟩, fun h => ⟨h.1, List.all_eq_true.2 h.2⟩⟩

section Key
variable {name : String}

theorem IsBare.exists_head (h : IsBare name) :
    ∃ first more, name.toList = first :: more ∧ ∀ d, isKeyChar d = false → first ≠ d := by
  obtain ⟨first, more, heq⟩ := List.exists_cons_of_ne_nil h.nonempty
  refine ⟨first, more, heq, ?_⟩
  rintro d hd rfl
  simp [h.chars first (heq ▸ List.mem_cons_self)] at hd

theorem IsBare.unblank (h : IsBare name) : Unblank name.toList := by
  obtain ⟨first, more, heq, hfirst⟩ := h.exists_head
  exact ⟨first, more, heq, hfirst ' ' (by decide), hfirst '\t' (by decide)⟩

theorem IsBare.exists_peek (h : IsBare name) (rest : List Char) :
    ∃ first, peek (name.toList ++ rest) = some (some first, name.toList ++ rest) ∧
      ∀ d, isKeyChar d = false → first ≠ d := by
  obtain ⟨first, more, heq, hfirst⟩ := h.exists_head
  refine ⟨first, ?_, hfirst⟩
  rw [heq]
  rfl

theorem keyPart_bare (h : IsBare name) {c : Char} (hc : isKeyChar c = false) (rest : List Char) :
    keyPart (name.toList ++ c :: rest) = some (name, c :: rest) := by
  obtain ⟨first, hpeek, hfirst⟩ := h.exists_peek (c :: rest)
  unfold keyPart
  rw [bind_eq hpeek]
  generalize hnext : some first = next
  split
  · cases hnext
    exact absurd rfl (hfirst '"' (by decide))
  · cases hnext
    exact absurd rfl (hfirst '\'' (by decide))
  · rw [bind_eq (run_append h.chars hc rest), List.isEmpty_eq_false_iff.2 h.nonempty, String.ofList_toList]
    rfl

/-- A bare key is read with the blanks behind it. -/
theorem key_bare (h : IsBare name) (gap : List Char) (hgap : ∀ d ∈ gap, d = ' ' ∨ d = '\t') {c : Char}
    (hc : isKeyChar c = false) (hs : c ≠ ' ') (ht : c ≠ '\t') (hdot : c ≠ '.') (rest : List Char) :
    key (name.toList ++ (gap ++ c :: rest)) = some ([name], c :: rest) := by
  have hstart := blanks_eq (h.unblank.append (gap ++ c :: rest))
  have hend : blanks (gap ++ c :: rest) = some ((), c :: rest) :=
    blanks_append hgap (unblank_cons hs ht rest)
  have hpart : keyPart (name.toList ++ (gap ++ c :: rest)) = some (name, gap ++ c :: rest) := by
    cases gap with
    | nil => exact keyPart_bare h hc rest
    | cons d others =>
      have hd : isKeyChar d = false := by
        rcases hgap d List.mem_cons_self with rfl | rfl <;> rfl
      exact keyPart_bare h hd _
  have hloop : ∀ bound, keyLoop (bound + 1) (name.toList ++ (gap ++ c :: rest)) = some ([name], c :: rest) := by
    intro bound
    rw [keyLoop, bind_eq hstart, bind_eq hpart, bind_eq hend, bind_eq (peek_cons c rest),
      if_neg (by simpa using hdot)]
    rfl
  unfold key
  rw [bind_eq (rfl : remaining _ = some (_, _)), bind_eq (hloop _)]
  rfl

end Key

/-! ## Values -/

/-- What is written is read as the value, up to the end of its line. -/
structure Spells (chars : List Char) (v : Value) : Prop where
  unblank : Unblank chars
  reads : ∀ rest, value (chars ++ '\n' :: rest) = some (v, '\n' :: rest)

theorem scalar_append {token : List Char} (h : ∀ c ∈ token, isScalarChar c = true) (rest : List Char) :
    scalar (token ++ '\n' :: rest) = (scalar? token).map (·, '\n' :: rest) := by
  unfold scalar
  rw [bind_eq (run_append h (by decide) rest)]
  rfl

theorem value_digit {c : Char} (hc : c.isDigit = true) (rest : List Char) :
    value (c :: rest) = scalar (c :: rest) := by
  show valueWithin (78 + 1) _ = _
  rw [valueWithin, bind_eq (peek_cons c rest)]
  generalize hnext : some c = next
  split
  case h_5 => rfl
  all_goals
    cases hnext
    exact absurd hc (by decide)

theorem spells_numeral {n : Nat} (h : (n : Int) ≤ Text.maxSigned) :
    Spells (Text.numeral n) (.integer n) := by
  have hdigits : ∀ c ∈ Text.numeral n, c.isDigit = true := fun _ => Text.isDigit_of_mem_numeral
  have hscalar : ∀ c ∈ Text.numeral n, isScalarChar c = true := by
    intro c hc
    simp [isScalarChar, Char.isAlphanum, hdigits c hc]
  have hread : ∀ rest, scalar (Text.numeral n ++ '\n' :: rest) = some (.integer n, '\n' :: rest) := by
    intro rest
    rw [scalar_append hscalar, scalar?_numeral h]
    rfl
  obtain ⟨first, more, heq⟩ := List.exists_cons_of_ne_nil (Text.numeral_ne_nil n)
  rw [heq] at hdigits hread ⊢
  have hfirst := hdigits first List.mem_cons_self
  exact ⟨unblank_cons (Text.ne_of_isDigit hfirst (by decide)) (Text.ne_of_isDigit hfirst (by decide)) more,
    fun rest => (value_digit hfirst _).trans (hread rest)⟩

theorem exists_head_writeString (text : List Char) :
    ∃ q more, writeString text = q :: more ∧ (q = '"' ∨ q = '\'') := by
  unfold writeString
  split
  · exact ⟨'"', _, rfl, Or.inl rfl⟩
  · exact ⟨'\'', _, rfl, Or.inr rfl⟩
  · exact ⟨'"', _, rfl, Or.inl rfl⟩
  · exact ⟨'\'', _, rfl, Or.inr rfl⟩

theorem value_quote {q : Char} (hq : q = '"' ∨ q = '\'') {text rest : List Char} {read : List Char}
    (h : string? (q :: text) = some (read, rest)) :
    value (q :: text) = some (.string (String.ofList read), rest) := by
  show valueWithin (78 + 1) _ = _
  rw [valueWithin, bind_eq (peek_cons q _)]
  rcases hq with rfl | rfl
  · exact map_eq h
  · exact map_eq h

theorem spells_writeString (text : List Char) :
    Spells (writeString text) (.string (String.ofList text)) := by
  have hread : ∀ rest, string? (writeString text ++ '\n' :: rest) = some (text, '\n' :: rest) := fun rest =>
    string?_writeString text (by simp) (by simp)
  obtain ⟨q, more, heq, hq⟩ := exists_head_writeString text
  rw [heq] at hread ⊢
  refine ⟨unblank_cons ?_ ?_ more, fun rest => value_quote hq (hread rest)⟩
  · rcases hq with rfl | rfl <;> decide
  · rcases hq with rfl | rfl <;> decide

/-! ## Lines -/

section Line
variable {name : String} {chars : List Char} {v : Value}

/-- The line that sets a key to a value. -/
def setting (name : String) (chars : List Char) : List Char :=
  name.toList ++ " = ".toList ++ chars ++ ['\n']

theorem setting_append (name : String) (chars rest : List Char) :
    setting name chars ++ rest = name.toList ++ ([' '] ++ '=' :: ([' '] ++ (chars ++ '\n' :: rest))) := by
  simp [setting]

theorem pair_setting (h : IsBare name) (hv : Spells chars v) (rest : List Char) :
    pair value (setting name chars ++ rest) = some (([name], v), '\n' :: rest) := by
  have hkey := key_bare h [' '] (by simp) (c := '=') (by decide) (by decide) (by decide) (by decide)
    ([' '] ++ (chars ++ '\n' :: rest))
  have hblanks : blanks ([' '] ++ (chars ++ '\n' :: rest)) = some ((), chars ++ '\n' :: rest) :=
    blanks_append (by simp) (hv.unblank.append _)
  rw [setting_append, pair, bind_eq hkey, bind_eq (char_cons '=' _), bind_eq hblanks,
    bind_eq (hv.reads rest)]
  rfl

theorem expression_setting (draft : Draft) (h : IsBare name) (hv : Spells chars v) (rest : List Char) :
    expression draft (setting name chars ++ rest) =
      (Entries.within draft.current (addAt [name] v) draft.entries).map
        fun entries => ({ draft with entries }, rest) := by
  have hpair := pair_setting h hv rest
  rw [setting_append] at hpair ⊢
  obtain ⟨first, hpeek, hfirst⟩ := h.exists_peek ([' '] ++ '=' :: ([' '] ++ (chars ++ '\n' :: rest)))
  have hcomment : some first ≠ some '#' := by simpa using hfirst '#' (by decide)
  have hheader : some first ≠ some '[' := by simpa using hfirst '[' (by decide)
  have hbreak : isLineBreak (some first) = false := by
    simp [isLineBreak, hfirst '\n' (by decide), hfirst '\r' (by decide)]
  unfold expression
  rw [bind_eq hpeek, if_neg hcomment, hbreak, if_neg Bool.false_ne_true, if_neg hheader, bind_eq hpair]
  show (lineEnd >>= _) _ = _
  rw [bind_eq (lineEnd_break rest)]
  cases Entries.within draft.current (addAt [name] v) draft.entries with
  | none => rfl
  | some entries => rfl

theorem expression_header (draft : Draft) (h : IsBare name) (rest : List Char) :
    expression draft ('[' :: (name.toList ++ ']' :: '\n' :: rest)) =
      (draft.openBy Entries.openTable [name]).map (·, rest) := by
  have hkey : key (name.toList ++ ']' :: '\n' :: rest) = some ([name], ']' :: '\n' :: rest) :=
    key_bare h [] (List.forall_mem_nil _) (by decide) (by decide) (by decide) (by decide) ('\n' :: rest)
  obtain ⟨first, hpeek, hfirst⟩ := h.exists_peek (']' :: '\n' :: rest)
  have hheader : some first ≠ some '[' := by simpa using hfirst '[' (by decide)
  rw [expression, bind_eq (peek_cons '[' _), if_neg (by decide), if_neg (by decide), if_pos rfl, header,
    bind_eq (char_cons '[' _), bind_eq hpeek, if_neg hheader, bind_eq hkey, bind_eq (char_cons ']' _),
    bind_eq (lineEnd_break rest)]

theorem expression_break (draft : Draft) (rest : List Char) :
    expression draft ('\n' :: rest) = some (draft, rest) := rfl

end Line

/-! ## Documents -/

/-- A text turns one draft of a document into another, expression by expression. -/
def Draft.Reads (draft : Draft) (text : List Char) (result : Draft) : Prop :=
  ∀ bound, text.length ≤ bound → documentLoop draft bound text = some (result, [])

theorem Draft.Reads.nil (draft : Draft) : draft.Reads [] draft := by
  intro bound _
  cases bound <;> rfl

theorem Draft.Reads.step {draft next result : Draft} {text rest : List Char}
    (h : expression draft text = some (next, rest)) (htext : Unblank text)
    (hless : rest.length < text.length) (hrest : next.Reads rest result) : draft.Reads text result := by
  obtain ⟨c, more, rfl, hs, ht⟩ := htext
  intro bound hbound
  obtain ⟨bound, rfl⟩ := Nat.exists_eq_succ_of_ne_zero (show bound ≠ 0 by omega)
  rw [documentLoop, bind_eq (blanks_eq (unblank_cons hs ht more)), bind_eq (peek_cons c more)]
  show (expression draft >>= _) _ = _
  rw [bind_eq h]
  exact hrest bound (by omega)

theorem parse?_ofList {chars : List Char} {result : Draft} (hmark : ∀ rest, chars ≠ '\ufeff' :: rest)
    (h : Draft.Reads {} chars result) : parse? (String.ofList chars) = some result.entries := by
  have hread := h _ (Nat.le_refl _)
  unfold parse?
  rw [String.toList_ofList]
  dsimp only
  split
  · exact absurd rfl (hmark _)
  · rw [hread]
    rfl

/-! ## Settings of a table -/

theorem put_of_lookup {entries : Entries} {name : String} (h : entries.lookup name = none) (v : Value) :
    entries.put name v = entries ++ [(name, v)] := by
  induction entries with
  | nil => rfl
  | cons entry more ih =>
    obtain ⟨k, old⟩ := entry
    rw [List.lookup_cons] at h
    split at h
    · cases h
    · rename_i hk
      have hne : k ≠ name := by
        rintro rfl
        simp at hk
      rw [Entries.put, if_neg hne, ih h, List.cons_append]

theorem addAt_fresh {entries : Entries} {name : String} (h : name ∉ entries.map Prod.fst) (v : Value) :
    addAt [name] v entries = some (entries ++ [(name, v)]) := by
  have hlookup : entries.lookup name = none := by
    rw [List.lookup_eq_none_iff]
    intro entry hentry
    simpa using fun heq : name = entry.1 => h (heq ▸ List.mem_map_of_mem hentry)
  show entries.add? name v = _
  rw [Entries.add?, hlookup, ← put_of_lookup hlookup]
  rfl

theorem within_only (table : String) (change : Entries → Option Entries) (entries : Entries) :
    Entries.within [table] change [(table, .table .section entries)] =
      (change entries).map fun changed => [(table, .table .section changed)] := by
  cases h : change entries <;> simp [Entries.within, Entries.put, h]

/-- Lines that set distinct keys add them to the open table in their order. -/
theorem Draft.Reads.settings {table : String} {lines : List (String × List Char)} {entries done : Entries}
    {rest : List Char} {result : Draft}
    (h : List.Forall₂ (fun line entry => line.1 = entry.1 ∧ Spells line.2 entry.2) lines entries)
    (hbare : ∀ entry ∈ entries, IsBare entry.1)
    (hdistinct : (done.map Prod.fst ++ entries.map Prod.fst).Nodup)
    (hrest : Draft.Reads ⟨[table], [(table, .table .section (done ++ entries))]⟩ rest result) :
    Draft.Reads ⟨[table], [(table, .table .section done)]⟩
      (lines.flatMap (fun line => setting line.1 line.2) ++ rest) result := by
  induction h generalizing done with
  | nil => simpa using hrest
  | @cons line entry lines entries hline _ ih =>
    obtain ⟨name, chars⟩ := line
    obtain ⟨_, v⟩ := entry
    obtain ⟨rfl, hspells⟩ := hline
    rw [List.forall_mem_cons] at hbare
    obtain ⟨hname, hbare⟩ := hbare
    have hfresh : name ∉ done.map Prod.fst := fun hmem =>
      (List.nodup_append.1 hdistinct).2.2 name hmem name List.mem_cons_self rfl
    have hmore : Draft.Reads ⟨[table], [(table, .table .section (done ++ [(name, v)]))]⟩ _ result :=
      ih hbare (by simpa using hdistinct) (by simpa using hrest)
    have hread := expression_setting ⟨[table], [(table, .table .section done)]⟩ hname hspells
      (lines.flatMap (fun line => setting line.1 line.2) ++ rest)
    rw [within_only, addAt_fresh hfresh] at hread
    rw [List.flatMap_cons, List.append_assoc]
    apply Draft.Reads.step hread
    · rw [setting_append]
      exact hname.unblank.append _
    · simp [setting]
      omega
    · exact hmore

end Inventory.Toml
