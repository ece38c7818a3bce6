import Mathlib.Data.List.TFAE
import Mathlib.Tactic.TFAE
import SheetGloss.Proofs.ExchangeText
import SheetGloss.Proofs.SheetEdits
import SheetGloss.Proofs.SpanText

/-!
# Spans in order

A span made from two columns or read from its text never begins right of its end. In order, and only
then, its size is found without passing below zero and is the number of its columns, of which there
is at least one. The JSON form is read without a look at the order, so it gives every span.
-/

namespace SheetGloss.ColumnSpan

/-- What a span is made from: two columns, the text of a span, or the text of its JSON form. -/
inductive Source where
  | ends (first last : UInt16)
  | text (s : Text)
  | json (s : Text)
  deriving DecidableEq, Repr

/-- The span that a source gives, if it gives one. -/
def ofSource? : Source → Option ColumnSpan
  | .ends first last => ofEnds? first last
  | .text s => (parse s).toOption
  | .json s => (Json.parse? s).bind ofJson?

variable {span : ColumnSpan} {first last : UInt16} {s : Text} {source : Source}

lemma ofEnds?_eq_some_iff :
    ofEnds? first last = some span ↔ first ≤ last ∧ span = ⟨first, last⟩ := by
  unfold ofEnds?
  split
  · next h => simp [h, eq_comm]
  · next h => simp [h]

lemma ofSource?_json (span : ColumnSpan) : ofSource? (.json span.toJson.compact) = some span :=
  exchanges.parse?_compact span

/-- Only a JSON text gives a span that is not in order. -/
lemma first_le_last (h : ofSource? source = some span) (hjson : ∀ s, source ≠ .json s) :
    span.first ≤ span.last := by
  cases source with
  | ends first last =>
    obtain ⟨hle, rfl⟩ := ofEnds?_eq_some_iff.mp h
    exact hle
  | text s =>
    exact first_le_last_of_parse (eq_ok_of_toOption h)
  | json s => exact absurd rfl (hjson s)

/-! ### What order is worth -/

lemma length_columns (span : ColumnSpan) :
    span.columns.length = span.last.toNat + 1 - span.first.toNat := by
  rw [columns, List.length_map, List.length_range']

lemma order_tfae (span : ColumnSpan) : [span.first ≤ span.last,
    span.last.toBitVec.usubOverflow span.first.toBitVec = false,
    span.size = span.columns.length, span.columns ≠ []].TFAE := by
  have hle : span.first ≤ span.last ↔ span.first.toNat ≤ span.last.toNat :=
    UInt16.le_iff_toNat_le
  have hlength := length_columns span
  tfae_have 1 ↔ 2 := by
    rw [hle, BitVec.usubOverflow, decide_eq_false_iff_not, Nat.not_lt]
    rfl
  tfae_have 1 → 3 := by
    intro h
    have hsize := size_of_le h
    have horder := hle.mp h
    omega
  tfae_have 3 → 4 := by
    intro h hnil
    rw [hnil, size] at h
    cases h
  tfae_have 4 → 1 := by
    intro h
    have hpos := List.length_pos_iff.mpr h
    exact hle.mpr (by omega)
  tfae_finish

/-! ### The text of a span -/

lemma parseColumn_letters {column : UInt16} (h : column.toNat < maxColumns) :
    Address.parseColumn (Column.letters column.toNat) = .ok column := by
  have htrim : Text.trim (Column.letters column.toNat) =
      Address.mark false ++ Column.letters column.toNat := by
    refine Text.trim_eq_self fun c hc => ?_
    have halpha := (Column.spelling_letters h).alpha c hc
    exact isBlank_of_isNameChar (isNameChar_of_isAlpha halpha)
  exact Address.parseColumn_of_spelling (Column.spelling_letters h) htrim

lemma colon_not_mem_letters (column : Nat) : ':' ∉ Column.letters column := fun h =>
  absurd (Column.isUpper_of_mem_letters column ':' h) (by decide)

/-- The text of a span gives it back exactly when it is in order and inside the sheet. -/
lemma parse_toText_iff :
    parse span.toText = .ok span ↔ span.first ≤ span.last ∧ span.last.toNat < maxColumns := by
  constructor
  · intro h
    obtain ⟨_, _, _, _, _, _, hlast, hle⟩ := parse_eq_ok_iff.mp h
    exact ⟨hle, Address.column_lt_of_parseColumn hlast⟩
  · rintro ⟨hle, hlast⟩
    have hfirst : span.first.toNat < maxColumns :=
      Nat.lt_of_le_of_lt (UInt16.le_iff_toNat_le.mp hle) hlast
    exact parse_eq_ok_iff.mpr ⟨_, _, rfl, colon_not_mem_letters _, colon_not_mem_letters _,
      parseColumn_letters hfirst, parseColumn_letters hlast, hle⟩

/-! ### Spans from every source -/

/-- A span is in order when it comes from two columns or from a text, but the JSON text that is
written for it gives it whether it is in order or not. Order is what a span needs, and all it needs,
for its size to be found without passing below zero, to be the number of its columns, and for it to
have a column at all; inside the sheet also for its text to give it back. -/
theorem ofSource?_order (h : ofSource? source = some span) :
    ((∀ s, source ≠ .json s) → span.first ≤ span.last) ∧
    ofSource? (.json span.toJson.compact) = some span ∧
    [span.first ≤ span.last, span.last.toBitVec.usubOverflow span.first.toBitVec = false,
      span.size = span.columns.length, span.columns ≠ []].TFAE ∧
    (parse span.toText = .ok span ↔ span.first ≤ span.last ∧ span.last.toNat < maxColumns) :=
  ⟨first_le_last h, ofSource?_json span, order_tfae span, parse_toText_iff⟩

/-- A span from an address with blanks around it to a fixed last column. -/
theorem ofSource?_order_blanks :
    let source := Source.text (Text.lit "\u00A0b$7 :$XfD")
    let span : ColumnSpan := ⟨1, 16383⟩
    ofSource? source = some span ∧ (∀ s, source ≠ .json s) ∧ span.first ≤ span.last ∧
      span.size = span.columns.length ∧ parse span.toText = .ok span := by
  have hread : ofSource? (.text (Text.lit "\u00A0b$7 :$XfD")) = some ⟨1, 16383⟩ := by
    decide +kernel
  have hjson : ∀ s, Source.text (Text.lit "\u00A0b$7 :$XfD") ≠ .json s := fun s => by
    simp
  obtain ⟨horder, -, htfae, htext⟩ := ofSource?_order hread
  have hle := horder hjson
  exact ⟨hread, hjson, hle, (htfae.out 0 2).mp hle, htext.mpr ⟨hle, by decide⟩⟩

/-- A JSON text gives a span that begins two columns right of its end. -/
theorem not_ofSource?_order : ¬∀ source span, ofSource? source = some span →
    span.first ≤ span.last ∧ span.last.toBitVec.usubOverflow span.first.toBitVec = false ∧
      span.size = span.columns.length ∧
      (span.last.toNat < maxColumns → parse span.toText = .ok span) := by
  intro h
  have hread : ofSource? (.json (Text.lit "\x7b\"start\":5,\"end\":3\x7d")) = some ⟨5, 3⟩ := by
    decide +kernel
  exact absurd (h _ _ hread).1 (by decide)

end SheetGloss.ColumnSpan
