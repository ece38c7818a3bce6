import SheetGloss.Proofs.AddressGrammar
import SheetGloss.Proofs.EntryPoints

/-!
# Addresses and their texts

Printing gives one text to each address, with capital letters and a row that does not begin with
zero. Reading gives the address back from it, and printing what was read from another spelling only
puts its letters in capitals and drops the zeros at the front of its row. A printed formula is read
back too, whatever its expression.
-/

namespace SheetGloss

namespace Address

/-- The text of a reference with its letters in capitals and without the zeros at the front of its
row. -/
def normalForm (s : Text) : Text :=
  (s.takeWhile (!Char.isDigit ·)).map Char.toUpper ++
    (s.dropWhile (!Char.isDigit ·)).dropWhile (· == '0')

variable {s : Text} {a : Address} {letters digits : Text}

lemma map_toUpper_mark (fixed : Bool) : (mark fixed).map Char.toUpper = mark fixed := by
  cases fixed <;> decide

lemma isDigit_of_mem_mark {fixed : Bool} {c : Char} (h : c ∈ mark fixed) : c.isDigit = false := by
  cases fixed with
  | true =>
    rw [List.mem_singleton.mp h]
    decide
  | false => cases h

lemma normalForm_spelled (h : a.Spelling letters digits) :
    normalForm (a.spelled letters digits) =
      a.spelled (letters.map Char.toUpper) (digits.dropWhile (· == '0')) := by
  have hsplit : a.spelled letters digits =
      (mark a.columnFixed ++ (letters ++ mark a.rowFixed)) ++ digits := by
    simp only [spelled, List.append_assoc]
  have hfront : ∀ c ∈ mark a.columnFixed ++ (letters ++ mark a.rowFixed),
      (!c.isDigit) = true := by
    intro c hc
    rw [Bool.not_eq_true']
    simp only [List.mem_append] at hc
    rcases hc with hc | hc | hc
    · exact isDigit_of_mem_mark hc
    · exact isDigit_of_isAlpha (h.column.alpha c hc)
    · exact isDigit_of_mem_mark hc
  have hback : ∀ c ∈ digits.head?, (!c.isDigit) = false := by
    intro c hc
    rw [h.digit c (List.mem_of_mem_head? hc)]
    rfl
  rw [normalForm, hsplit, Text.takeWhile_run hfront hback, Text.dropWhile_run hfront hback,
    List.map_append, List.map_append, map_toUpper_mark, map_toUpper_mark, spelled]
  simp only [List.append_assoc]

/-- Printing the address that was read from a text gives the normal form of the text. -/
lemma toText_of_parse (h : parse s = .ok a) : a.toText = normalForm (Text.trim s) := by
  obtain ⟨letters, digits, hs, htext⟩ := parse_eq_ok_iff.mp h
  have hcolumn := Column.letters_of_value hs.column.ne_nil hs.column.alpha
  have hrow := Text.dropWhile_zero hs.digit
  rw [hs.column.value_eq, Nat.add_sub_cancel] at hcolumn
  rw [hs.value_eq, if_neg (Nat.succ_ne_zero _)] at hrow
  rw [htext, normalForm_spelled hs, toText_eq_spelled, hcolumn, hrow]

lemma parse_toText_iff :
    parse a.toText = .ok a ↔ a.row.toNat < maxRows ∧ a.column.toNat < maxColumns :=
  ⟨fun h => ⟨row_lt_of_parse h, column_lt_of_parse h⟩, fun h => parse_toText h.1 h.2⟩

end Address

namespace CellFormula

variable {s : Text} {f : CellFormula}

lemma exists_parse_cell (h : parse s = .ok f) : ∃ before, Address.parse before = .ok f.cell := by
  unfold parse at h
  split at h
  · cases h
  · next before expression _ =>
    obtain ⟨cell, hcell, hf⟩ := exists_of_bind_eq_ok h
    cases hf
    exact ⟨before, hcell⟩

lemma parse_toText_iff : parse f.toText = .ok f ↔
    f.cell.row.toNat < maxRows ∧ f.cell.column.toNat < maxColumns := by
  constructor
  · intro h
    obtain ⟨before, hcell⟩ := exists_parse_cell h
    exact ⟨Address.row_lt_of_parse hcell, Address.column_lt_of_parse hcell⟩
  · rintro ⟨hrow, hcolumn⟩
    exact parse_toText hrow hcolumn

end CellFormula

namespace Address

/-- The text of an address is read back exactly when the address lies inside the sheet; printing
what was read from a text gives the normal form of the text; and the text of a formula is read back
exactly when its cell lies inside the sheet, whatever its expression. -/
theorem texts_read_back :
    (∀ a : Address, parse a.toText = .ok a ↔
      a.row.toNat < maxRows ∧ a.column.toNat < maxColumns) ∧
    (∀ s a, parse s = .ok a → a.toText = normalForm (Text.trim s)) ∧
    (∀ f : CellFormula, CellFormula.parse f.toText = .ok f ↔
      f.cell.row.toNat < maxRows ∧ f.cell.column.toNat < maxColumns) :=
  ⟨fun _ => parse_toText_iff, fun _ _ => toText_of_parse, fun _ => CellFormula.parse_toText_iff⟩

/-- A reference in small letters, with blanks around it and zeros in front of its row. -/
theorem texts_read_back_padded :
    parse (Text.lit "\u2003$xfd$0010 ") = .ok ⟨9, 16383, true, true⟩ ∧
      toText ⟨9, 16383, true, true⟩ = normalForm (Text.trim (Text.lit "\u2003$xfd$0010 ")) ∧
      normalForm (Text.trim (Text.lit "\u2003$xfd$0010 ")) = Text.lit "$XFD$10" := by
  have hread : parse (Text.lit "\u2003$xfd$0010 ") = .ok ⟨9, 16383, true, true⟩ := by
    decide +kernel
  exact ⟨hread, texts_read_back.2.1 _ _ hread, by decide +kernel⟩

end Address

end SheetGloss
