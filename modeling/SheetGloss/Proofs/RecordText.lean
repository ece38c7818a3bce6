import Mathlib.Tactic.Lemma
import SheetGloss.Csv.Record
import SheetGloss.Proofs.Utf8Text

/-!
# Written records

Any records can be written, with every field in quotes and every quote of a field doubled. Between
the quotes of a field a byte is taken as it stands, and a mark after them ends the field or the
record, so that the written records are read back whatever bytes their fields hold.
-/

namespace SheetGloss.Csv

namespace Dialect

/-- A dialect whose marks are two different ASCII bytes that end no line. -/
structure Proper (d : Dialect) : Prop where
  delimiter_ascii : d.delimiter.toNat < 0x80
  quote_ascii : d.quote.toNat < 0x80
  delimiter_inline : isLineEnd d.delimiter = false
  quote_inline : isLineEnd d.quote = false
  distinct : d.delimiter ≠ d.quote

/-- A byte of a field in quotes: a quote is doubled. -/
def doubled (d : Dialect) (b : UInt8) : Bytes := if b = d.quote then [b, b] else [b]

/-- A field in quotes. -/
def quoted (d : Dialect) (field : Bytes) : Bytes :=
  d.quote :: (field.flatMap d.doubled ++ [d.quote])

/-- The line of a record. -/
def line (d : Dialect) (record : Record) : Bytes :=
  [d.delimiter].intercalate (record.map d.quoted) ++ [0x0A]

/-- The lines of records. -/
def written (d : Dialect) (records : List Record) : Bytes := records.flatMap d.line

variable {d : Dialect} {place next : Place} {b : UInt8} {field : Bytes} {fields : Record}

/-! ### One byte -/

lemma recordsFrom_keep (h : d.step place b = (next, .keep)) (rest : Bytes) :
    d.recordsFrom place field fields (b :: rest) =
      d.recordsFrom next (b :: field) fields rest := by rw [recordsFrom, h]

lemma recordsFrom_drop (h : d.step place b = (next, .drop)) (rest : Bytes) :
    d.recordsFrom place field fields (b :: rest) = d.recordsFrom next field fields rest := by
  rw [recordsFrom, h]

lemma recordsFrom_endField (h : d.step place b = (next, .endField)) (rest : Bytes) :
    d.recordsFrom place field fields (b :: rest) =
      d.recordsFrom next [] (field.reverse :: fields) rest := by rw [recordsFrom, h]

lemma recordsFrom_endRecord (h : d.step place b = (next, .endRecord)) (rest : Bytes) :
    d.recordsFrom place field fields (b :: rest) =
      (field.reverse :: fields).reverse :: d.recordsFrom next [] [] rest := by rw [recordsFrom, h]

section Steps

lemma step_quoted_quote (d : Dialect) : d.step .quoted d.quote = (.quoteSeen, .drop) :=
  if_pos (beq_self_eq_true d.quote)

lemma step_quoteSeen_quote (d : Dialect) : d.step .quoteSeen d.quote = (.quoted, .keep) :=
  if_pos (beq_self_eq_true d.quote)

lemma step_quoted_of_ne (h : b ≠ d.quote) : d.step .quoted b = (.quoted, .keep) :=
  if_neg (by simpa using h)

lemma step_fieldStart_quote (d : Dialect) : d.step .fieldStart d.quote = (.quoted, .drop) :=
  if_pos (beq_self_eq_true d.quote)

lemma Proper.step_lineStart_quote (hd : d.Proper) :
    d.step .lineStart d.quote = (.quoted, .drop) := by
  rw [step, if_neg (by simp [hd.quote_inline])]
  exact step_fieldStart_quote d

lemma Proper.step_quoteSeen_delimiter (hd : d.Proper) :
    d.step .quoteSeen d.delimiter = (.fieldStart, .endField) := by
  rw [step, if_neg (by simpa using hd.distinct), plainByte, if_pos (beq_self_eq_true _)]

lemma Proper.step_quoteSeen_lineFeed (hd : d.Proper) :
    d.step .quoteSeen 0x0A = (.lineStart, .endRecord) := by
  have hne {b : UInt8} (hb : isLineEnd b = false) : ¬ ((0x0A : UInt8) == b) = true := by
    intro h
    rw [← eq_of_beq h] at hb
    exact absurd hb (by decide)
  rw [step, if_neg (hne hd.quote_inline), plainByte, if_neg (hne hd.delimiter_inline),
    if_pos (by decide)]

end Steps

/-! ### Fields and records -/

/-- The bytes between the quotes of a field are taken as they stand. -/
lemma recordsFrom_doubled (d : Dialect) (field bytes rest : Bytes) (fields : Record) :
    d.recordsFrom .quoted field fields (bytes.flatMap d.doubled ++ rest) =
      d.recordsFrom .quoted (bytes.reverse ++ field) fields rest := by
  induction bytes generalizing field with
  | nil => rfl
  | cons b bytes ih =>
    rw [List.flatMap_cons, List.append_assoc, List.reverse_cons, List.append_assoc, doubled]
    by_cases hb : b = d.quote
    · subst hb
      rw [if_pos rfl, List.cons_append, List.cons_append, List.nil_append,
        recordsFrom_drop (step_quoted_quote d), recordsFrom_keep (step_quoteSeen_quote d), ih]
      rfl
    · rw [if_neg hb, List.cons_append, List.nil_append, recordsFrom_keep (step_quoted_of_ne hb), ih]
      rfl

/-- A field in quotes is read where its first quote opens a field. -/
lemma recordsFrom_quoted (h : d.step place d.quote = (.quoted, .drop)) (bytes rest : Bytes) :
    d.recordsFrom place [] fields (d.quoted bytes ++ rest) =
      d.recordsFrom .quoteSeen bytes.reverse fields rest := by
  rw [quoted, List.cons_append, recordsFrom_drop h, List.append_assoc, recordsFrom_doubled,
    List.append_nil, List.cons_append, List.nil_append, recordsFrom_drop (step_quoted_quote d)]

/-- The line of a record gives the record after the fields that were read before. -/
lemma recordsFrom_line (hd : d.Proper) (h : d.step place d.quote = (.quoted, .drop))
    (first : Bytes) (record : Record) (rest : Bytes) :
    d.recordsFrom place [] fields (d.line (first :: record) ++ rest) =
      (fields.reverse ++ first :: record) :: d.recordsFrom .lineStart [] [] rest := by
  induction record generalizing first place fields with
  | nil =>
    rw [line, List.map_singleton, List.intercalate_singleton, List.append_assoc,
      recordsFrom_quoted h, List.cons_append, recordsFrom_endRecord hd.step_quoteSeen_lineFeed,
      List.reverse_reverse, List.reverse_cons, List.nil_append]
  | cons second record ih =>
    have hline : d.line (first :: second :: record) =
        d.quoted first ++ d.delimiter :: d.line (second :: record) := by
      simp [line, List.intercalate_cons_cons]
    rw [hline, List.append_assoc, recordsFrom_quoted h, List.cons_append,
      recordsFrom_endField hd.step_quoteSeen_delimiter, ih (step_fieldStart_quote d),
      List.reverse_reverse, List.reverse_cons, List.append_assoc, List.singleton_append]

lemma recordsFrom_written (hd : d.Proper) {table : List Record} (h : ∀ record ∈ table, record ≠ []) :
    d.recordsFrom .lineStart [] [] (d.written table) = table := by
  induction table with
  | nil => rfl
  | cons record table ih =>
    obtain ⟨hrecord, htable⟩ := List.forall_mem_cons.mp h
    obtain ⟨first, rest, rfl⟩ := List.exists_cons_of_ne_nil hrecord
    rw [written, List.flatMap_cons, recordsFrom_line hd hd.step_lineStart_quote]
    exact congrArg (_ :: ·) (ih htable)

lemma head?_written (d : Dialect) (first : Bytes) (record : Record) (table : List Record) :
    (d.written ((first :: record) :: table)).head? = some d.quote := by
  cases record <;> simp [written, line, quoted, List.intercalate_cons_cons]

end Dialect

lemma withoutMark_of_head {bytes : Bytes} (h : bytes.head? ≠ some 0xEF) :
    withoutMark bytes = bytes := by
  unfold withoutMark
  split
  · exact absurd rfl h
  · rfl

/-- Written records are read back. -/
theorem records_written {d : Dialect} (hd : d.Proper) {table : List Record}
    (h : ∀ record ∈ table, record ≠ []) : records d (d.written table) = table := by
  have hmark : (d.written table).head? ≠ some 0xEF := by
    cases table with
    | nil => simp [Dialect.written]
    | cons record table =>
      obtain ⟨first, rest, rfl⟩ := List.exists_cons_of_ne_nil (h record List.mem_cons_self)
      rw [Dialect.head?_written]
      intro hquote
      have hascii := hd.quote_ascii
      rw [Option.some.inj hquote] at hascii
      exact absurd hascii (by decide)
  rw [records, withoutMark_of_head hmark, Dialect.recordsFrom_written hd h]

end SheetGloss.Csv
