import Mathlib.Data.List.Forall2
import SheetGloss.Csv.Sheet
import SheetGloss.Proofs.NameText
import SheetGloss.Proofs.RecordText
import SheetGloss.Proofs.SheetStore

/-!
# Sheets of written records

A table of texts that fits a sheet can be written as records and read back. Every field is then in
its own cell, as a formula or as a text, and no other cell holds anything.
-/

namespace SheetGloss.Csv

/-! ### A field -/

/-- The call that stores a field in a cell. -/
def fieldEdit (row : UInt32) (column : UInt16) (field : Text) : Edit :=
  match formulaOf? field with
  | some formula => .formulaAt row column formula
  | none => .valueAt row column field

def fieldLayer (field : Text) : Layer := if (formulaOf? field).isSome then .formula else .value

/-- What the text and the formula of a cell are for its field. -/
def fieldText? (field : Text) : Layer → Option Text
  | .value => if (formulaOf? field).isSome || field.isEmpty then none else some field
  | .formula => (formulaOf? field).map withoutEquals

section Field

variable {sheet next : Sheet} {row : UInt32} {column : UInt16} {index : Nat} {field : Text}

lemma target_fieldEdit (row : UInt32) (column : UInt16) (field : Text) :
    (fieldEdit row column field).target = Entry.within (fieldLayer field) row column := by
  rw [fieldEdit, fieldLayer]
  cases formulaOf? field <;> rfl

lemma text?_fieldEdit (row : UInt32) (column : UInt16) (field : Text) :
    (fieldEdit row column field).text? = fieldText? field (fieldLayer field) := by
  rw [fieldEdit, fieldLayer]
  cases h : formulaOf? field <;>
    simp [Edit.text?_valueAt, Edit.text?_formulaAt, fieldText?, h]

lemma fieldText?_of_ne {layer : Layer} (h : fieldLayer field ≠ layer) :
    fieldText? field layer = none := by
  rw [fieldLayer] at h
  cases hformula : formulaOf? field <;> cases layer <;> simp_all [fieldText?]

lemma columnOfIndex_of_lt (h : index < maxColumns) :
    columnOfIndex index = .ok (UInt16.ofNat index) := if_pos (Nat.lt_trans h (by decide))

lemma index_of_columnOfIndex (h : columnOfIndex index = .ok column) : column.toNat = index := by
  rw [columnOfIndex] at h
  split at h
  · next hlt =>
    rw [← Except.ok.inj h]
    exact UInt16.toNat_ofNat_of_lt hlt
  · cases h

lemma storeField_eq (sheet : Sheet) (row : UInt32) (index : Nat) (field : Text) :
    storeField sheet row index field =
      (columnOfIndex index >>= fun column => sheet.apply (fieldEdit row column field)) := by
  rw [storeField]
  congr
  funext column
  rw [fieldEdit]
  cases formulaOf? field <;> rfl

/-- A field is stored in a cell of the sheet, whatever the field. -/
lemma exists_storeField (sheet : Sheet) (hrow : row.toNat < maxRows) (hindex : index < maxColumns)
    (field : Text) : ∃ next, storeField sheet row index field = .ok next := by
  have hcolumn := columnOfIndex_of_lt hindex
  have hinside : Position.Inside ⟨row, UInt16.ofNat index⟩ :=
    ⟨hrow, (index_of_columnOfIndex hcolumn).symm ▸ hindex⟩
  refine ⟨sheet.withText ⟨fieldLayer field, row, UInt16.ofNat index⟩
    (fieldText? field (fieldLayer field)), ?_⟩
  rw [storeField_eq, hcolumn]
  refine (Sheet.apply_eq sheet _).trans ?_
  rw [target_fieldEdit, Entry.within, Sheet.checkBounds_eq_ok hinside, text?_fieldEdit]
  rfl

/-- A field decides what its cell holds, when the cell was empty, and nothing else. -/
lemma textAt?_storeField (h : storeField sheet row index field = .ok next)
    (hvacant : ∀ layer (p : Position), p.row = row → p.column.toNat = index →
      sheet.textAt? ⟨layer, p⟩ = none) (layer : Layer) (p : Position) :
    next.textAt? ⟨layer, p⟩ =
      if p.row = row ∧ p.column.toNat = index then fieldText? field layer
      else sheet.textAt? ⟨layer, p⟩ := by
  rw [storeField_eq] at h
  obtain ⟨column, hcolumn, happly⟩ := exists_of_bind_eq_ok h
  obtain rfl := index_of_columnOfIndex hcolumn
  obtain ⟨entry, htarget, rfl⟩ := Sheet.withText_of_apply happly
  rw [target_fieldEdit] at htarget
  obtain ⟨-, rfl⟩ := Entry.within_eq_ok_iff.mp htarget
  rw [Sheet.textAt?_withText, text?_fieldEdit]
  by_cases hp : p.row = row ∧ p.column.toNat = column.toNat
  · have hposition : (⟨row, column⟩ : Position) = p := by
      rw [← hp.1, ← UInt16.toNat_inj.mp hp.2]
    rw [if_pos hp, hposition]
    by_cases hlayer : fieldLayer field = layer
    · rw [hlayer, if_pos rfl]
    · rw [if_neg (by simpa using hlayer), hvacant layer p hp.1 hp.2, fieldText?_of_ne hlayer]
  · rw [if_neg hp, if_neg]
    intro heq
    cases heq
    exact hp ⟨rfl, rfl⟩

end Field

/-! ### Fields of a row -/

section Fields

variable {sheet next : Sheet} {row : UInt32} {index : Nat} {field : Text} {fields : List Text}

lemma storeFields_cons (h : storeFields row sheet index (field :: fields) = .ok next) :
    ∃ between, storeField sheet row index field = .ok between ∧
      storeFields row between (index + 1) fields = .ok next := exists_of_bind_eq_ok h

lemma exists_storeFields (sheet : Sheet) (hrow : row.toNat < maxRows)
    (hindex : index + fields.length ≤ maxColumns) :
    ∃ next, storeFields row sheet index fields = .ok next := by
  induction fields generalizing sheet index with
  | nil => exact ⟨sheet, rfl⟩
  | cons field fields ih =>
    rw [List.length_cons] at hindex
    obtain ⟨between, hfield⟩ := exists_storeField sheet hrow (show index < maxColumns by omega) field
    obtain ⟨next, hfields⟩ := ih between (show index + 1 + fields.length ≤ maxColumns by omega)
    refine ⟨next, ?_⟩
    rw [storeFields, hfield]
    exact hfields

/-- Fields fill the cells of a row from a column on, when these were empty. -/
lemma textAt?_storeFields (h : storeFields row sheet index fields = .ok next)
    (hvacant : ∀ layer (p : Position), p.row = row → index ≤ p.column.toNat →
      sheet.textAt? ⟨layer, p⟩ = none) (layer : Layer) (p : Position) :
    next.textAt? ⟨layer, p⟩ =
      if p.row = row ∧ index ≤ p.column.toNat then
        (fields[p.column.toNat - index]?).bind (fieldText? · layer)
      else sheet.textAt? ⟨layer, p⟩ := by
  induction fields generalizing sheet index with
  | nil =>
    cases h
    split
    · next hp => exact hvacant layer p hp.1 hp.2
    · rfl
  | cons field fields ih =>
    obtain ⟨between, hfield, hfields⟩ := storeFields_cons h
    have hbetween := textAt?_storeField hfield fun layer p hrow hcolumn =>
      hvacant layer p hrow (Nat.le_of_eq hcolumn.symm)
    have hvacant' : ∀ layer (p : Position), p.row = row → index + 1 ≤ p.column.toNat →
        between.textAt? ⟨layer, p⟩ = none := by
      intro layer p hrow hcolumn
      rw [hbetween, if_neg fun h => absurd h.2 (by omega)]
      exact hvacant layer p hrow (by omega)
    rw [ih hfields hvacant', hbetween]
    by_cases hp : p.row = row ∧ index ≤ p.column.toNat
    · rw [if_pos hp]
      rcases Nat.eq_or_lt_of_le hp.2 with heq | hlt
      · rw [if_neg fun h => absurd h.2 (by omega), if_pos ⟨hp.1, heq.symm⟩, ← heq, Nat.sub_self,
          List.getElem?_cons_zero, Option.bind_some]
      · have hsucc : p.column.toNat - index = p.column.toNat - (index + 1) + 1 := by omega
        rw [if_pos ⟨hp.1, hlt⟩, hsucc, List.getElem?_cons_succ]
    · rw [if_neg hp, if_neg fun h => hp ⟨h.1, by omega⟩, if_neg fun h => hp ⟨h.1, by omega⟩]

end Fields

/-! ### Records of a sheet -/

section Records

variable {sheet next : Sheet} {index : Nat} {record : Record} {records : List Record}
  {table : List (List Text)}

lemma toNat_rowOfIndex (h : index ≤ maxRows) : (rowOfIndex index).toNat = index := by
  have hsize : index < UInt32.size := Nat.lt_of_le_of_lt h (by decide)
  rw [rowOfIndex, if_pos hsize]
  exact UInt32.toNat_ofNat_of_lt hsize

lemma storeRecords_cons_of {fields : List Text} (hrecord : record.mapM Utf8.text? = some fields)
    {between : Sheet} (hfields : storeFields (rowOfIndex index) sheet 0 fields = .ok between)
    (records : List Record) :
    storeRecords sheet index (record :: records) = storeRecords between (index + 1) records := by
  rw [storeRecords, hrecord]
  simp only [hfields]

lemma storeRecords_cons {fields : List Text} (hrecord : record.mapM Utf8.text? = some fields)
    (h : storeRecords sheet index (record :: records) = .ok next) :
    ∃ between, storeFields (rowOfIndex index) sheet 0 fields = .ok between ∧
      storeRecords between (index + 1) records = .ok next := by
  rw [storeRecords, hrecord] at h
  cases hfields : storeFields (rowOfIndex index) sheet 0 fields with
  | error e =>
    simp only [hfields] at h
    cases h
  | ok between =>
    simp only [hfields] at h
    exact ⟨between, rfl, h⟩

/-- Records of texts that fit the sheet can be stored. -/
lemma exists_storeRecords (sheet : Sheet)
    (htable : List.Forall₂ (fun record texts => record.mapM Utf8.text? = some texts) records table)
    (hrows : index + table.length ≤ maxRows) (hcolumns : ∀ texts ∈ table, texts.length ≤ maxColumns) :
    ∃ next, storeRecords sheet index records = .ok next := by
  induction htable generalizing sheet index with
  | nil => exact ⟨sheet, rfl⟩
  | @cons record texts records table hrecord _ ih =>
    obtain ⟨htexts, hcolumns⟩ := List.forall_mem_cons.mp hcolumns
    rw [List.length_cons] at hrows
    have hrow : (rowOfIndex index).toNat < maxRows := by
      rw [toNat_rowOfIndex (by omega)]
      omega
    obtain ⟨between, hfields⟩ := exists_storeFields sheet hrow (show 0 + texts.length ≤ _ by omega)
    rw [storeRecords_cons_of hrecord hfields]
    exact ih between (by omega) hcolumns

/-- Records fill the cells of the rows from one on, when these were empty. -/
lemma textAt?_storeRecords
    (htable : List.Forall₂ (fun record texts => record.mapM Utf8.text? = some texts) records table)
    (h : storeRecords sheet index records = .ok next) (hrows : index + table.length ≤ maxRows)
    (hvacant : ∀ layer (p : Position), index ≤ p.row.toNat → sheet.textAt? ⟨layer, p⟩ = none)
    (layer : Layer) (p : Position) :
    next.textAt? ⟨layer, p⟩ =
      if index ≤ p.row.toNat then
        ((table[p.row.toNat - index]?).bind (·[p.column.toNat]?)).bind (fieldText? · layer)
      else sheet.textAt? ⟨layer, p⟩ := by
  induction htable generalizing sheet index with
  | nil =>
    cases h
    split
    · next hp => exact hvacant layer p hp
    · rfl
  | @cons record texts records table hrecord _ ih =>
    rw [List.length_cons] at hrows
    obtain ⟨between, hfields, hrecords⟩ := storeRecords_cons hrecord h
    have hrow : (rowOfIndex index).toNat = index := toNat_rowOfIndex (by omega)
    have hcell {p : Position} : p.row = rowOfIndex index ↔ p.row.toNat = index := by
      rw [← UInt32.toNat_inj, hrow]
    have hbetween := textAt?_storeFields hfields fun layer p hp _ =>
      hvacant layer p (Nat.le_of_eq (hcell.mp hp).symm)
    simp only [hcell, Nat.zero_le, and_true, Nat.sub_zero] at hbetween
    have hvacant' : ∀ layer (p : Position), index + 1 ≤ p.row.toNat →
        between.textAt? ⟨layer, p⟩ = none := by
      intro layer p hp
      rw [hbetween, if_neg (by omega)]
      exact hvacant layer p (by omega)
    rw [ih hrecords (by omega) hvacant', hbetween]
    by_cases hp : index ≤ p.row.toNat
    · rw [if_pos hp]
      rcases Nat.eq_or_lt_of_le hp with heq | hlt
      · rw [if_neg (by omega), if_pos heq.symm, ← heq, Nat.sub_self, List.getElem?_cons_zero,
          Option.bind_some]
      · have hsucc : p.row.toNat - index = p.row.toNat - (index + 1) + 1 := by omega
        rw [if_pos (Nat.succ_le_of_lt hlt), hsucc, List.getElem?_cons_succ]
    · rw [if_neg hp, if_neg (by omega), if_neg (by omega)]

end Records

/-! ### Reading a written table -/

/-- Whether a field begins with an equals sign and has more than blanks after it. -/
def IsFormula (field : Text) : Prop :=
  ∃ rest, field = '=' :: rest ∧ ∃ c ∈ rest, Text.isBlank c = false

lemma formulaOf?_eq_some_iff {field rest : Text} : formulaOf? field = some rest ↔
    field = '=' :: rest ∧ ∃ c ∈ rest, Text.isBlank c = false := by
  have hblank (s : Text) : (Text.trim s).isEmpty = true ↔ ¬ ∃ c ∈ s, Text.isBlank c = false := by
    rw [List.isEmpty_iff, Text.trim_eq_nil_iff]
    simp
  unfold formulaOf?
  split
  · next tail =>
    rw [List.cons.injEq, and_iff_right rfl]
    split
    · next hempty =>
      refine iff_of_false (by simp) ?_
      rintro ⟨rfl, h⟩
      exact (hblank tail).mp hempty h
    · next hempty =>
      rw [Option.some.injEq, iff_self_and]
      rintro rfl
      exact Decidable.not_not.mp (mt (hblank tail).mpr hempty)
  · next hne => exact iff_of_false (by simp) fun h => hne rest h.1

lemma isSome_formulaOf?_iff {field : Text} : (formulaOf? field).isSome = true ↔ IsFormula field := by
  simp only [Option.isSome_iff_exists, formulaOf?_eq_some_iff, IsFormula]

instance : DecidablePred IsFormula := fun _ => decidable_of_iff _ isSome_formulaOf?_iff

/-- A cell that holds its field: a formula, less its equals signs, or a text that is not empty. -/
structure HoldsField (sheet : Sheet) (row : UInt32) (column : UInt16) (field : Text) : Prop where
  formula_iff : (sheet.formulaAt row column).isSome = true ↔ IsFormula field
  formula : ∀ rest, field = '=' :: rest → IsFormula field →
    sheet.formulaAt row column = some (withoutEquals rest) ∧ sheet.valueAt row column = none
  value : ¬ IsFormula field →
    sheet.valueAt row column = if field = [] then none else some field

/-- A cell whose text and formula are those of its field holds the field. -/
lemma HoldsField.of_fieldText? {sheet : Sheet} {row : UInt32} {column : UInt16} {field : Text}
    (hvalue : sheet.valueAt row column = fieldText? field .value)
    (hformula : sheet.formulaAt row column = fieldText? field .formula) :
    HoldsField sheet row column field := by
  simp only [fieldText?] at hvalue hformula
  refine ⟨?_, ?_, ?_⟩
  · rw [hformula, Option.isSome_map, isSome_formulaOf?_iff]
  · rintro rest rfl ⟨_, hrest, hblank⟩
    cases hrest
    have hsome := formulaOf?_eq_some_iff.mpr ⟨rfl, hblank⟩
    rw [hformula, hvalue, hsome]
    exact ⟨rfl, rfl⟩
  · intro hnot
    rw [hvalue, Bool.eq_false_iff.mpr (mt isSome_formulaOf?_iff.mp hnot)]
    simp

lemma mapM_text?_encode (texts : List Text) :
    (texts.map Utf8.encode).mapM Utf8.text? = some texts := by
  have hmap : (texts.map Utf8.encode).mapM Utf8.text? = some (texts.map id) :=
    mapM_map_of_some fun s _ => Utf8.text?_encode s
  rw [List.map_id] at hmap
  exact hmap

lemma forall₂_encode (table : List (List Text)) :
    List.Forall₂ (fun record texts => record.mapM Utf8.text? = some texts)
      (table.map (·.map Utf8.encode)) table := by
  rw [List.forall₂_map_left_iff, List.forall₂_same]
  exact fun texts _ => mapM_text?_encode texts

/-- A table of texts that fits a sheet is read back from its records, each field into its own
cell. -/
theorem readSheet_written (options : Options) (hd : options.dialect.Proper)
    (table : List (List Text)) (hrows : table.length ≤ maxRows)
    (hrecords : ∀ texts ∈ table, texts ≠ [] ∧ texts.length ≤ maxColumns) :
    ∃ sheet,
      readSheet options (options.dialect.written (table.map (·.map Utf8.encode))) = .ok sheet ∧
        ∀ (row : UInt32) (column : UInt16),
          match (table[row.toNat]?).bind (·[column.toNat]?) with
          | some field => HoldsField sheet row column field
          | none => sheet.valueAt row column = none ∧ sheet.formulaAt row column = none := by
  have hne : ∀ record ∈ table.map (·.map Utf8.encode), record ≠ [] := by
    intro record hm
    obtain ⟨texts, htexts, rfl⟩ := List.mem_map.mp hm
    simpa using (hrecords texts htexts).1
  have htable := forall₂_encode table
  obtain ⟨sheet, hsheet⟩ := exists_storeRecords (Sheet.empty options.sheetName) htable
    (show 0 + table.length ≤ maxRows by omega) fun texts hm => (hrecords texts hm).2
  have hcells := textAt?_storeRecords htable hsheet (by omega) fun layer p _ => by
    cases layer <;> rfl
  simp only [Nat.zero_le, if_true, Nat.sub_zero] at hcells
  refine ⟨sheet, ?_, ?_⟩
  · rw [readSheet, records_written hd hne]
    exact hsheet
  · intro row column
    have hvalue := hcells .value ⟨row, column⟩
    have hformula := hcells .formula ⟨row, column⟩
    cases hfield : (table[row.toNat]?).bind (·[column.toNat]?) with
    | none =>
      rw [hfield] at hvalue hformula
      exact ⟨hvalue, hformula⟩
    | some field =>
      rw [hfield] at hvalue hformula
      exact .of_fieldText? hvalue hformula

/-- A ragged table whose fields hold the marks of the dialect, a line end and equals signs. -/
theorem readSheet_written_ragged :
    let options : Options := ⟨⟨0x3B, 0x27⟩, Text.lit "Budget"⟩
    let table : List (List Text) := [[Text.lit "it's;\n", Text.lit "= "],
      [Text.lit "=SUM(A1;B1)", [], Text.lit " 7"]]
    options.dialect.Proper ∧ table.length ≤ maxRows ∧
      (∀ texts ∈ table, texts ≠ [] ∧ texts.length ≤ maxColumns) ∧ ∃ sheet,
        readSheet options (options.dialect.written (table.map (·.map Utf8.encode))) = .ok sheet ∧
          sheet.valueAt 0 0 = some (Text.lit "it's;\n") ∧ sheet.valueAt 0 1 = some (Text.lit "= ") ∧
          sheet.formulaAt 1 0 = some (Text.lit "SUM(A1;B1)") ∧ sheet.valueAt 1 0 = none ∧
          sheet.valueAt 1 1 = none ∧ sheet.valueAt 0 2 = none := by
  intro options table
  have hproper : options.dialect.Proper :=
    ⟨by decide, by decide, by decide, by decide, by decide⟩
  have hrows : table.length ≤ maxRows := by decide
  have hrecords : ∀ texts ∈ table, texts ≠ [] ∧ texts.length ≤ maxColumns := by decide
  obtain ⟨sheet, hsheet, hcells⟩ := readSheet_written options hproper table hrows hrecords
  have hmarks : HoldsField sheet 0 0 (Text.lit "it's;\n") := hcells 0 0
  have hequals : HoldsField sheet 0 1 (Text.lit "= ") := hcells 0 1
  have hformula : HoldsField sheet 1 0 (Text.lit "=SUM(A1;B1)") := hcells 1 0
  have hempty : HoldsField sheet 1 1 [] := hcells 1 1
  obtain ⟨hsource, hvalue⟩ := hformula.formula _ rfl (by decide)
  exact ⟨hproper, hrows, hrecords, sheet, hsheet, hmarks.value (by decide),
    hequals.value (by decide), hsource, hvalue, hempty.value (by decide), (hcells 0 2).1⟩

end SheetGloss.Csv
