import SheetGloss.Proofs.RecordSheet

/-!
# Formulas from records

When a file of records is read, its fields are the only source of the sheet: each cell is decided by
its field. A formula cell holds its field without the equals sign at the front. A second equals sign
behind it is dropped as well, and after such a field the formula may be blank.
-/

namespace SheetGloss.Csv

/-- The field that a cell is read from: the field of the cell's column in the record of its row. -/
def fieldAt? (options : Options) (bytes : Bytes) (row : UInt32) (column : UInt16) : Option Text :=
  ((records options.dialect bytes)[row.toNat]?).bind fun record =>
    (record[column.toNat]?).bind Utf8.text?

/-! ### Records that were stored -/

lemma exists_cons_of_mapM {α β : Type} {f : α → Option β} {a : α} {l : List α} {m : List β}
    (h : (a :: l).mapM f = some m) :
    ∃ b rest, f a = some b ∧ l.mapM f = some rest ∧ m = b :: rest := by
  simp only [List.mapM_cons, Option.bind_eq_bind, Option.bind_eq_some_iff] at h
  obtain ⟨b, hb, rest, hrest, hm⟩ := h
  exact ⟨b, rest, hb, hrest, (Option.some.inj hm).symm⟩

lemma getElem?_of_mapM {α β : Type} {f : α → Option β} {l : List α} {m : List β}
    (h : l.mapM f = some m) (i : Nat) : m[i]? = (l[i]?).bind f := by
  induction l generalizing m i with
  | nil =>
    cases h
    rfl
  | cons a l ih =>
    obtain ⟨b, rest, hb, hrest, rfl⟩ := exists_cons_of_mapM h
    cases i with
    | zero => exact hb.symm
    | succ i => exact ih hrest i

lemma ne_nil_of_mem_recordsFrom {d : Dialect} {place : Place} {field : Bytes} {fields : Record}
    {bytes : Bytes} : ∀ record ∈ d.recordsFrom place field fields bytes, record ≠ [] := by
  fun_induction Dialect.recordsFrom d place field fields bytes with
  | case1 => simp
  | case2 place field fields hplace => simp
  | case3 place field fields b rest next heq ih => exact ih
  | case4 place field fields b rest next heq ih => exact ih
  | case5 place field fields b rest next heq ih => exact ih
  | case6 place field fields b rest next heq ih => exact List.forall_mem_cons.mpr ⟨by simp, ih⟩

section Stored

variable {sheet next : Sheet} {row : UInt32} {index : Nat} {field : Text} {fields : List Text}
  {records : List Record} {table : List (List Text)}

lemma row_lt_of_storeField (h : storeField sheet row index field = .ok next) :
    row.toNat < maxRows := by
  rw [storeField_eq] at h
  obtain ⟨column, -, happly⟩ := exists_of_bind_eq_ok h
  obtain ⟨entry, htarget, -⟩ := Sheet.withText_of_apply happly
  rw [target_fieldEdit] at htarget
  exact (Entry.within_eq_ok_iff.mp htarget).1.1

lemma row_lt_of_storeFields (hne : fields ≠ [])
    (h : storeFields row sheet index fields = .ok next) : row.toNat < maxRows := by
  obtain ⟨field, fields, rfl⟩ := List.exists_cons_of_ne_nil hne
  obtain ⟨between, hfield, -⟩ := storeFields_cons h
  exact row_lt_of_storeField hfield

lemma lt_of_toNat_rowOfIndex (h : (rowOfIndex index).toNat < maxRows) : index < maxRows := by
  rw [rowOfIndex] at h
  split at h
  · next hsize => rwa [UInt32.toNat_ofNat_of_lt' hsize] at h
  · exact absurd h (by decide)

/-- Records that can be stored are texts, and there are no more of them than rows. -/
lemma exists_table_of_storeRecords (hne : ∀ record ∈ records, record ≠ [])
    (h : storeRecords sheet index records = .ok next) (hindex : index ≤ maxRows) :
    ∃ table, List.Forall₂ (fun record texts => record.mapM Utf8.text? = some texts) records table ∧
      index + table.length ≤ maxRows := by
  induction records generalizing sheet index with
  | nil => exact ⟨[], .nil, hindex⟩
  | cons record records ih =>
    obtain ⟨hrecord, hne⟩ := List.forall_mem_cons.mp hne
    cases htexts : record.mapM Utf8.text? with
    | none =>
      rw [storeRecords, htexts] at h
      cases h
    | some texts =>
      obtain ⟨between, hfields, hrecords⟩ := storeRecords_cons htexts h
      have htextsNe : texts ≠ [] := by
        obtain ⟨bytes, record, rfl⟩ := List.exists_cons_of_ne_nil hrecord
        obtain ⟨text, rest, -, -, rfl⟩ := exists_cons_of_mapM htexts
        exact List.cons_ne_nil text rest
      have hlt := lt_of_toNat_rowOfIndex (row_lt_of_storeFields htextsNe hfields)
      obtain ⟨table, htable, hlength⟩ := ih hne hrecords hlt
      refine ⟨texts :: table, .cons htexts htable, ?_⟩
      rw [List.length_cons]
      omega

lemma getElem?_table
    (htable : List.Forall₂ (fun record texts => record.mapM Utf8.text? = some texts) records table)
    (i j : Nat) : (table[i]?).bind (·[j]?) =
      (records[i]?).bind fun record => (record[j]?).bind Utf8.text? := by
  induction htable generalizing i with
  | nil => rfl
  | cons hrecord _ ih =>
    cases i with
    | zero => exact getElem?_of_mapM hrecord j
    | succ i => exact ih i

end Stored

/-! ### Cells of a sheet that was read -/

section Read

variable {options : Options} {bytes : Bytes} {sheet : Sheet}

/-- Each cell is what its field makes it, and a cell without a field holds nothing. -/
theorem textAt?_readSheet (h : readSheet options bytes = .ok sheet) (layer : Layer)
    (row : UInt32) (column : UInt16) : sheet.textAt? ⟨layer, row, column⟩ =
      (fieldAt? options bytes row column).bind (fieldText? · layer) := by
  obtain ⟨table, htable, hrows⟩ :=
    exists_table_of_storeRecords ne_nil_of_mem_recordsFrom h (Nat.zero_le _)
  have hcells := textAt?_storeRecords htable h hrows (fun layer p _ => by cases layer <;> rfl)
    layer ⟨row, column⟩
  rw [if_pos (Nat.zero_le _), Nat.sub_zero, getElem?_table htable] at hcells
  exact hcells

/-- A formula cell was read from a field that begins with an equals sign and has more than blanks
after it. The cell holds what follows that sign, and so more than blanks, unless a second equals
sign follows. That one is dropped too, and when only blanks are left the formula is blank. -/
theorem formulaAt_readSheet (h : readSheet options bytes = .ok sheet) {row : UInt32}
    {column : UInt16} {formula : Text} (hformula : sheet.formulaAt row column = some formula) :
    ∃ rest, fieldAt? options bytes row column = some ('=' :: rest) ∧
      (∃ c ∈ rest, Text.isBlank c = false) ∧ formula = withoutEquals rest ∧
      (formula = rest ∧ (∃ c ∈ formula, Text.isBlank c = false) ↔ rest.head? ≠ some '=') ∧
      ((∀ c ∈ formula, Text.isBlank c = true) ↔
        ∃ blanks, rest = '=' :: blanks ∧ ∀ c ∈ blanks, Text.isBlank c = true) := by
  have hcell := textAt?_readSheet h .formula row column
  rw [show sheet.textAt? ⟨.formula, row, column⟩ = some formula from hformula] at hcell
  obtain ⟨field, hfield, htext⟩ := Option.bind_eq_some_iff.mp hcell.symm
  obtain ⟨rest, hrest, rfl⟩ := Option.map_eq_some_iff.mp htext
  obtain ⟨rfl, hblank⟩ := formulaOf?_eq_some_iff.mp hrest
  refine ⟨rest, hfield, hblank, rfl, ?_⟩
  by_cases hsecond : rest.head? = some '='
  · obtain ⟨formula, rfl⟩ := List.head?_eq_some_iff.mp hsecond
    refine ⟨iff_of_false (fun h => List.cons_ne_self _ _ h.1.symm) (by simp), ?_⟩
    constructor
    · exact fun hall => ⟨formula, rfl, hall⟩
    · rintro ⟨blanks, hblanks, hall⟩
      rw [(List.cons.inj hblanks).2]
      exact hall
  · rw [withoutEquals_of_head hsecond]
    refine ⟨iff_of_true ⟨rfl, hblank⟩ hsecond, iff_of_false ?_ ?_⟩
    · obtain ⟨c, hc, hvisible⟩ := hblank
      intro hall
      rw [hall c hc] at hvisible
      cases hvisible
    · rintro ⟨blanks, rfl, -⟩
      exact hsecond rfl

lemma exists_sheet_of_formulaAt {row : UInt32} {column : UInt16} {formula : Text}
    (h : (readSheet options bytes).toOption.bind (·.formulaAt row column) = some formula) :
    ∃ sheet, readSheet options bytes = .ok sheet ∧ sheet.formulaAt row column = some formula := by
  obtain ⟨sheet, hsheet, hformula⟩ := Option.bind_eq_some_iff.mp h
  exact ⟨sheet, eq_ok_of_toOption hsheet, hformula⟩

/-- A formula that is a blank, from a quoted field with two equals signs in the second record. -/
theorem formulaAt_readSheet_blank :
    let bytes := Utf8.encode (Text.lit "Qty,= A2+1\n\"== \",7\n")
    ∃ sheet, readSheet .standard bytes = .ok sheet ∧ sheet.formulaAt 1 0 = some [' '] ∧
      ∃ blanks, fieldAt? .standard bytes 1 0 = some ('=' :: '=' :: blanks) ∧
        ∀ c ∈ blanks, Text.isBlank c = true := by
  intro bytes
  have hread : (readSheet .standard bytes).toOption.bind (·.formulaAt 1 0) = some [' '] := by
    decide +kernel
  obtain ⟨sheet, hsheet, hformula⟩ := exists_sheet_of_formulaAt hread
  obtain ⟨rest, hfield, -, -, -, hblank⟩ := formulaAt_readSheet hsheet hformula
  obtain ⟨blanks, rfl, hall⟩ := hblank.mp (List.forall_mem_singleton.mpr (by decide))
  exact ⟨sheet, hsheet, hformula, blanks, hfield, hall⟩

/-- A field of two equals signs gives a formula cell that holds the empty formula, and not the
second sign. -/
theorem formulaAt_readSheet_second_equals : ¬∀ (options : Options) (bytes : Bytes) (sheet : Sheet)
    (row : UInt32) (column : UInt16) (formula : Text), readSheet options bytes = .ok sheet →
    sheet.formulaAt row column = some formula →
    ∃ rest, fieldAt? options bytes row column = some ('=' :: rest) ∧ formula = rest ∧
      ∃ c ∈ formula, Text.isBlank c = false := by
  intro h
  have hread : (readSheet .standard (Utf8.encode (Text.lit "==,==A1\n"))).toOption.bind
      (·.formulaAt 0 0) = some [] := by decide +kernel
  obtain ⟨sheet, hsheet, hformula⟩ := exists_sheet_of_formulaAt hread
  obtain ⟨rest, -, -, c, hc, -⟩ := h _ _ sheet 0 0 [] hsheet hformula
  cases hc

end Read

end SheetGloss.Csv
