import Mathlib.Data.Nat.Find
import SheetGloss.Proofs.RecordFormulas

/-!
# Records past the limits of a sheet

Reading a file of records is refused at the first cell, in reading order, that lies outside the
sheet. No more rows and columns are counted than it takes to get there: the numbers of rows and
columns always fit the types of rows and columns.
-/

namespace SheetGloss.Csv

/-! ### Cells outside the sheet -/

def Outside (row column : Nat) : Prop := maxRows ≤ row ∨ maxColumns ≤ column

/-- A record with a number does not fit the sheet. -/
def Exceeds (index : Nat) (record : Record) : Prop :=
  maxRows ≤ index ∨ maxColumns < record.length

/-- Up to the first record that does not fit the sheet, every record is a record of texts. -/
def TextsFirst (records : List Record) : Prop :=
  ∀ i record, records[i]? = some record →
    (∀ j < i, ∀ earlier, records[j]? = some earlier → ¬Exceeds j earlier) →
      (record.mapM Utf8.text?).isSome = true

/-- The first cell in reading order that has a field and lies outside the sheet. -/
structure FirstOutside (records : List Record) (row column : Nat) : Prop where
  field : ∃ record, records[row]? = some record ∧ column < record.length
  outside : Outside row column
  first : ∀ i j record, records[i]? = some record → j < record.length → Outside i j →
    row < i ∨ row = i ∧ column ≤ j

/-- Why a cell outside the sheet is refused. -/
def outsideError (row column : Nat) : SheetError :=
  if maxRows ≤ row then .rowOutOfBounds row (maxRows - 1)
  else .columnOutOfBounds column (maxColumns - 1)

/-- Reading has come to a record: those before it are stored, and it is a record of texts. -/
structure ReachesRecord (options : Options) (bytes : Bytes) (index : Nat) (sheet : Sheet)
    (fields : List Text) : Prop where
  stored : storeRecords (Sheet.empty options.sheetName) 0
    ((records options.dialect bytes).take index) = .ok sheet
  texts : ∃ record, (records options.dialect bytes)[index]? = some record ∧
    record.mapM Utf8.text? = some fields

/-- Reading has come to a field of a record: the fields before it are stored. -/
def ReachesField (options : Options) (bytes : Bytes) (index column : Nat) : Prop :=
  ∃ sheet fields, ReachesRecord options bytes index sheet fields ∧ column < fields.length ∧
    ∃ between, storeFields (rowOfIndex index) sheet 0 (fields.take column) = .ok between

section First

variable {records : List Record} {record : Record} {index row column : Nat}

lemma exceeds_iff (hne : record ≠ []) :
    Exceeds index record ↔ ∃ j < record.length, Outside index j := by
  have hpos := List.length_pos_iff.mpr hne
  constructor
  · rintro (hrow | hcolumn)
    · exact ⟨0, hpos, Or.inl hrow⟩
    · exact ⟨maxColumns, hcolumn, Or.inr (Nat.le_refl _)⟩
  · rintro ⟨j, hj, hrow | hcolumn⟩
    · exact Or.inl hrow
    · exact Or.inr (Nat.lt_of_le_of_lt hcolumn hj)

lemma FirstOutside.exceeds (h : FirstOutside records row column) :
    ∃ record, records[row]? = some record ∧ Exceeds row record := by
  obtain ⟨record, hget, hcolumn⟩ := h.field
  exact ⟨record, hget, h.outside.imp_right fun hle => Nat.lt_of_le_of_lt hle hcolumn⟩

lemma FirstOutside.not_exceeds (hne : ∀ record ∈ records, record ≠ [])
    (h : FirstOutside records row column) (hlt : index < row)
    (hget : records[index]? = some record) : ¬Exceeds index record := by
  intro hexceeds
  obtain ⟨j, hj, hout⟩ := (exceeds_iff (hne record (List.mem_of_getElem? hget))).mp hexceeds
  have hfirst := h.first index j record hget hj hout
  omega

/-- The first cell outside stands in the row below the last one or in the column behind the last
one. -/
lemma FirstOutside.place (hne : ∀ record ∈ records, record ≠ [])
    (h : FirstOutside records row column) :
    row = maxRows ∨ row < maxRows ∧ column = maxColumns := by
  obtain ⟨record, hget, hcolumn⟩ := h.field
  rcases Nat.lt_trichotomy row maxRows with hlt | heq | hgt
  · right
    have hle : maxColumns ≤ column := h.outside.resolve_left (Nat.not_le.mpr hlt)
    have hfirst := h.first row maxColumns record hget (Nat.lt_of_le_of_lt hle hcolumn)
      (Or.inr (Nat.le_refl _))
    omega
  · exact Or.inl heq
  · -- The record in the row below the last one would hold an earlier cell.
    obtain ⟨hlength, -⟩ := List.getElem?_eq_some_iff.mp hget
    have hbelow := List.getElem?_eq_getElem (Nat.lt_trans hgt hlength)
    exact absurd (Or.inl (Nat.le_refl _)) (h.not_exceeds hne hgt hbelow)

lemma exists_firstOutside (hne : ∀ record ∈ records, record ≠ [])
    (h : ∃ i record, records[i]? = some record ∧ Exceeds i record) :
    ∃ row column, FirstOutside records row column := by
  classical
  obtain ⟨row, ⟨record, hget, hexceeds⟩, hmin⟩ := Nat.findX h
  obtain ⟨column, ⟨hcolumn, hout⟩, hleast⟩ :=
    Nat.findX ((exceeds_iff (hne record (List.mem_of_getElem? hget))).mp hexceeds)
  refine ⟨row, column, ⟨record, hget, hcolumn⟩, hout, ?_⟩
  intro i j other hi hj hother
  have hrow : row ≤ i := by
    by_contra hlt
    have hexceeds := (exceeds_iff (hne other (List.mem_of_getElem? hi))).mpr ⟨j, hj, hother⟩
    exact hmin i (Nat.not_le.mp hlt) ⟨other, hi, hexceeds⟩
  rcases Nat.lt_or_eq_of_le hrow with hlt | rfl
  · exact Or.inl hlt
  · rw [hget] at hi
    cases hi
    refine Or.inr ⟨rfl, ?_⟩
    by_contra hlt
    exact hleast j (Nat.not_le.mp hlt) ⟨hj, hother⟩

end First

/-! ### Storing what does not fit -/

section Store

variable {sheet next : Sheet} {row : UInt32} {column : UInt16} {index : Nat} {field : Text}
  {fields : List Text} {error : SheetError}

lemma storeField_of_checkBounds (hcolumn : columnOfIndex index = .ok column)
    (hbounds : Sheet.checkBounds row column = .error error) (sheet : Sheet) (field : Text) :
    storeField sheet row index field = .error error := by
  rw [storeField_eq, hcolumn]
  refine (Sheet.apply_eq sheet _).trans ?_
  rw [target_fieldEdit, Entry.within, hbounds]
  rfl

lemma storeFields_of_error (h : storeField sheet row index field = .error error) :
    storeFields row sheet index (field :: fields) = .error error := by
  rw [storeFields, h]
  rfl

lemma storeFields_row_outside (hne : fields ≠ []) (hrow : maxRows ≤ row.toNat) :
    storeFields row sheet 0 fields = .error (.rowOutOfBounds row.toNat (maxRows - 1)) := by
  obtain ⟨field, fields, rfl⟩ := List.exists_cons_of_ne_nil hne
  have hcolumn : columnOfIndex 0 = .ok 0 := rfl
  exact storeFields_of_error (storeField_of_checkBounds hcolumn (if_pos hrow) sheet field)

/-- Fields are stored up to the last column, and the next one is refused. -/
lemma storeFields_column_outside (hrow : row.toNat < maxRows) (hindex : index ≤ maxColumns)
    (hlong : maxColumns < index + fields.length) : storeFields row sheet index fields =
      .error (.columnOutOfBounds maxColumns (maxColumns - 1)) := by
  induction fields generalizing sheet index with
  | nil => exact absurd hlong (Nat.not_lt.mpr hindex)
  | cons field fields ih =>
    rcases Nat.lt_or_eq_of_le hindex with hlt | rfl
    · obtain ⟨between, hfield⟩ := exists_storeField sheet hrow hlt field
      rw [List.length_cons] at hlong
      rw [storeFields, hfield]
      exact ih hlt (by omega)
    · have hcolumn : columnOfIndex maxColumns = .ok (UInt16.ofNat maxColumns) := rfl
      have hbounds : Sheet.checkBounds row (UInt16.ofNat maxColumns) =
          .error (.columnOutOfBounds maxColumns (maxColumns - 1)) := by
        rw [Sheet.checkBounds, if_neg (Nat.not_le.mpr hrow)]
        rfl
      exact storeFields_of_error (storeField_of_checkBounds hcolumn hbounds sheet field)

lemma length_le_of_storeFields (h : storeFields row sheet 0 fields = .ok next) :
    fields.length ≤ maxColumns := by
  by_contra hlong
  have hne : fields ≠ [] := by
    rintro rfl
    exact hlong (Nat.zero_le _)
  rw [storeFields_column_outside (row_lt_of_storeFields hne h) (Nat.zero_le _)
    (by omega)] at h
  cases h

end Store

section StoreRecords

variable {sheet next : Sheet} {index row column : Nat} {record : Record} {fields : List Text}
  {before records : List Record}

lemma storeRecords_append (h : storeRecords sheet index before = .ok next)
    (records : List Record) :
    storeRecords sheet index (before ++ records) =
      storeRecords next (index + before.length) records := by
  induction before generalizing sheet index with
  | nil =>
    cases h
    rfl
  | cons record before ih =>
    cases htexts : record.mapM Utf8.text? with
    | none =>
      rw [storeRecords, htexts] at h
      cases h
    | some fields =>
      obtain ⟨between, hfields, hrecords⟩ := storeRecords_cons htexts h
      rw [List.cons_append, storeRecords_cons_of htexts hfields, ih hrecords, List.length_cons,
        Nat.add_assoc, Nat.add_comm 1]

lemma length_of_mapM {α β : Type} {f : α → Option β} {l : List α} {m : List β}
    (h : l.mapM f = some m) : m.length = l.length := by
  induction l generalizing m with
  | nil =>
    cases h
    rfl
  | cons a l ih =>
    obtain ⟨b, rest, -, hrest, rfl⟩ := exists_cons_of_mapM h
    rw [List.length_cons, List.length_cons, ih hrest]

lemma exists_table (h : ∀ record ∈ records, (record.mapM Utf8.text?).isSome = true) :
    ∃ table, List.Forall₂ (fun record texts => record.mapM Utf8.text? = some texts) records
      table := by
  induction records with
  | nil => exact ⟨[], .nil⟩
  | cons record records ih =>
    obtain ⟨hrecord, hrecords⟩ := List.forall_mem_cons.mp h
    obtain ⟨texts, htexts⟩ := Option.isSome_iff_exists.mp hrecord
    obtain ⟨table, htable⟩ := ih hrecords
    exact ⟨texts :: table, .cons htexts htable⟩

/-- Records of texts that all fit the sheet can be stored. -/
lemma exists_storeRecords_of_fit (sheet : Sheet)
    (htexts : ∀ record ∈ records, (record.mapM Utf8.text?).isSome = true)
    (hfit : ∀ i record, records[i]? = some record → ¬Exceeds i record) :
    ∃ next, storeRecords sheet 0 records = .ok next := by
  obtain ⟨table, htable⟩ := exists_table htexts
  have hlength := htable.length_eq
  have hrows : records.length ≤ maxRows := by
    by_contra hlong
    have hbelow := List.getElem?_eq_getElem (Nat.not_le.mp hlong)
    exact hfit maxRows _ hbelow (Or.inl (Nat.le_refl _))
  have hcolumns : ∀ texts ∈ table, texts.length ≤ maxColumns := by
    intro texts hmem
    obtain ⟨i, hi, rfl⟩ := List.getElem_of_mem hmem
    have hi' : i < records.length := hlength ▸ hi
    have hrecord : (records[i]).mapM Utf8.text? = some table[i] := htable.get hi' hi
    rw [length_of_mapM hrecord]
    exact Nat.not_lt.mp fun hlong =>
      hfit i _ (List.getElem?_eq_getElem hi') (Or.inr hlong)
  exact exists_storeRecords sheet htable (by omega) hcolumns

lemma storeFields_of_outside (sheet : Sheet) (hne : fields ≠ [])
    (hplace : row = maxRows ∨ row < maxRows ∧ column = maxColumns)
    (hcolumn : row < maxRows → maxColumns < fields.length) :
    storeFields (rowOfIndex row) sheet 0 fields = .error (outsideError row column) := by
  rcases hplace with rfl | ⟨hrow, rfl⟩
  · exact storeFields_row_outside hne (Nat.le_refl _)
  · have htoNat := toNat_rowOfIndex (Nat.le_of_lt hrow)
    have hlong := hcolumn hrow
    rw [outsideError, if_neg (Nat.not_le.mpr hrow)]
    exact storeFields_column_outside (by omega) (Nat.zero_le _) (by omega)

/-- Records are stored up to the first cell outside the sheet, and are refused for this cell. -/
lemma storeRecords_of_firstOutside (sheet : Sheet) (hne : ∀ record ∈ records, record ≠ [])
    (htexts : TextsFirst records) (h : FirstOutside records row column) :
    storeRecords sheet 0 records = .error (.sheet (outsideError row column)) := by
  have hbefore {i : Nat} {earlier : Record} (hi : i < row) (hget : records[i]? = some earlier) :
      ¬Exceeds i earlier := h.not_exceeds hne hi hget
  obtain ⟨record, hrecord, hexceeds⟩ := h.exceeds
  obtain ⟨hlt, hget⟩ := List.getElem?_eq_some_iff.mp hrecord
  have hsplit : records.take row ++ record :: records.drop (row + 1) = records := by
    rw [← hget, ← List.drop_eq_getElem_cons hlt, List.take_append_drop]
  have hlength : (records.take row).length = row := List.length_take_of_le (Nat.le_of_lt hlt)
  have hall : ∀ earlier ∈ records.take row, (earlier.mapM Utf8.text?).isSome = true := by
    intro earlier hmem
    obtain ⟨i, hi, rfl⟩ := List.getElem_of_mem hmem
    rw [hlength] at hi
    rw [List.getElem_take]
    have hearlier := List.getElem?_eq_getElem (Nat.lt_trans hi hlt)
    exact htexts i _ hearlier fun j hj other hother => hbefore (Nat.lt_trans hj hi) hother
  have hfit : ∀ i earlier, (records.take row)[i]? = some earlier → ¬Exceeds i earlier := by
    intro i earlier hearlier
    rw [List.getElem?_take] at hearlier
    split at hearlier
    · next hi => exact hbefore hi hearlier
    · cases hearlier
  obtain ⟨between, hstored⟩ := exists_storeRecords_of_fit sheet hall hfit
  obtain ⟨fields, hfields⟩ := Option.isSome_iff_exists.mp
    (htexts row record hrecord fun j hj earlier hearlier => hbefore hj hearlier)
  have hcount := length_of_mapM hfields
  have hpos := List.length_pos_iff.mpr (hne record (List.mem_of_getElem? hrecord))
  have hfault := storeFields_of_outside between (List.length_pos_iff.mp (hcount ▸ hpos))
    (h.place hne) fun hrow => hcount ▸ hexceeds.resolve_left (Nat.not_le.mpr hrow)
  rw [← hsplit, storeRecords_append hstored, hlength, Nat.zero_add, storeRecords, hfields]
  simp only [hfault]

end StoreRecords

/-! ### Reading a file -/

section Read

variable {options : Options} {bytes : Bytes} {row column index : Nat} {error : Error}

lemma ne_nil_of_mem_records : ∀ record ∈ records options.dialect bytes, record ≠ [] :=
  ne_nil_of_mem_recordsFrom

lemma readSheet_eq_error_iff (htexts : TextsFirst (records options.dialect bytes)) :
    readSheet options bytes = .error error ↔
      ∃ row column, FirstOutside (records options.dialect bytes) row column ∧
        error = .sheet (outsideError row column) := by
  constructor
  · intro herror
    by_cases hexceeds : ∃ i record,
        (records options.dialect bytes)[i]? = some record ∧ Exceeds i record
    · obtain ⟨row, column, hfirst⟩ := exists_firstOutside ne_nil_of_mem_records hexceeds
      refine ⟨row, column, hfirst, ?_⟩
      rw [readSheet, storeRecords_of_firstOutside _ ne_nil_of_mem_records htexts hfirst] at herror
      exact (Except.error.inj herror).symm
    · have hfit : ∀ i record, (records options.dialect bytes)[i]? = some record →
          ¬Exceeds i record := fun i record hget hex => hexceeds ⟨i, record, hget, hex⟩
      have hall : ∀ record ∈ records options.dialect bytes,
          (record.mapM Utf8.text?).isSome = true := by
        intro record hmem
        obtain ⟨i, hi, rfl⟩ := List.getElem_of_mem hmem
        exact htexts i _ (List.getElem?_eq_getElem hi) fun j _ earlier => hfit j earlier
      obtain ⟨sheet, hsheet⟩ :=
        exists_storeRecords_of_fit (Sheet.empty options.sheetName) hall hfit
      rw [readSheet, hsheet] at herror
      cases herror
  · rintro ⟨row, column, hfirst, rfl⟩
    exact storeRecords_of_firstOutside _ ne_nil_of_mem_records htexts hfirst

lemma ReachesRecord.index_le {sheet : Sheet} {fields : List Text}
    (h : ReachesRecord options bytes index sheet fields) : index ≤ maxRows := by
  obtain ⟨record, hrecord, -⟩ := h.texts
  obtain ⟨hlt, -⟩ := List.getElem?_eq_some_iff.mp hrecord
  obtain ⟨table, htable, hlength⟩ := exists_table_of_storeRecords
    (fun record hmem => ne_nil_of_mem_records record (List.mem_of_mem_take hmem)) h.stored
    (Nat.zero_le _)
  have hcount := htable.length_eq
  rw [List.length_take_of_le (Nat.le_of_lt hlt)] at hcount
  omega

lemma ReachesField.column_le (h : ReachesField options bytes index column) :
    column ≤ maxColumns := by
  obtain ⟨sheet, fields, -, hlt, between, hstored⟩ := h
  have hlength := length_le_of_storeFields hstored
  rwa [List.length_take_of_le (Nat.le_of_lt hlt)] at hlength

/-- When no record in front is refused for its bytes, reading fails exactly when a record is one
too many or has fields too many, and it fails for the first cell outside the sheet, which stands in
the row or in the column next to the last. For every file, the numbers of the records and fields
that reading comes to fit the types of rows and columns. -/
theorem readSheet_first_outside (options : Options) (bytes : Bytes) :
    (TextsFirst (records options.dialect bytes) →
      ((∃ error, readSheet options bytes = .error error) ↔
        ∃ i record, (records options.dialect bytes)[i]? = some record ∧
          (1048576 ≤ i ∨ 16384 < record.length)) ∧
      (∀ error, readSheet options bytes = .error error ↔
        ∃ row column, FirstOutside (records options.dialect bytes) row column ∧
          error = .sheet (outsideError row column)) ∧
      ∀ row column, FirstOutside (records options.dialect bytes) row column →
        row = 1048576 ∧ outsideError row column = .rowOutOfBounds 1048576 1048575 ∨
          row < 1048576 ∧ outsideError row column = .columnOutOfBounds 16384 16383) ∧
    (∀ index sheet fields, ReachesRecord options bytes index sheet fields →
      index < UInt32.size) ∧
    ∀ index column, ReachesField options bytes index column → column < UInt16.size := by
  refine ⟨?_, ?_, ?_⟩
  · intro htexts
    refine ⟨⟨?_, ?_⟩, fun error => readSheet_eq_error_iff htexts, ?_⟩
    · rintro ⟨error, herror⟩
      obtain ⟨row, column, hfirst, -⟩ := (readSheet_eq_error_iff htexts).mp herror
      obtain ⟨record, hget, hexceeds⟩ := hfirst.exceeds
      exact ⟨row, record, hget, hexceeds⟩
    · intro hexceeds
      obtain ⟨row, column, hfirst⟩ := exists_firstOutside ne_nil_of_mem_records hexceeds
      exact ⟨_, (readSheet_eq_error_iff htexts).mpr ⟨row, column, hfirst, rfl⟩⟩
    · intro row column hfirst
      rcases hfirst.place ne_nil_of_mem_records with rfl | ⟨hrow, rfl⟩
      · exact Or.inl ⟨rfl, rfl⟩
      · exact Or.inr ⟨hrow, if_neg (Nat.not_le.mpr hrow)⟩
  · intro index sheet fields h
    exact Nat.lt_of_le_of_lt h.index_le (by decide)
  · intro index column h
    exact Nat.lt_of_le_of_lt h.column_le (by decide)

/-- A record with one field too many, all of them empty, behind a record that fits. -/
theorem readSheet_first_outside_empty_fields :
    let table : List (List Text) := [[Text.lit "Price"], List.replicate 16385 []]
    let bytes := Options.standard.dialect.written (table.map (·.map Utf8.encode))
    TextsFirst (records Options.standard.dialect bytes) ∧ ReachesField .standard bytes 1 16384 ∧
      readSheet .standard bytes = .error (.sheet (.columnOutOfBounds 16384 16383)) := by
  intro table bytes
  have hproper : Options.standard.dialect.Proper :=
    ⟨by decide, by decide, by decide, by decide, by decide⟩
  have hlong : 16384 < (List.replicate 16385 ([] : Text)).length := by
    rw [List.length_replicate]
    omega
  have hne : ∀ record ∈ table.map (·.map Utf8.encode), record ≠ [] := by
    refine List.forall_mem_cons.mpr ⟨by simp, List.forall_mem_singleton.mpr ?_⟩
    exact mt List.map_eq_nil_iff.mp (List.ne_nil_of_length_pos (Nat.zero_lt_of_lt hlong))
  have hrecords : records Options.standard.dialect bytes = table.map (·.map Utf8.encode) :=
    records_written hproper hne
  have hsecond : (records Options.standard.dialect bytes)[1]? =
      some ((List.replicate 16385 []).map Utf8.encode) := by
    rw [hrecords]
    rfl
  have htexts : TextsFirst (records Options.standard.dialect bytes) := by
    intro i record hget _
    rw [hrecords] at hget
    obtain ⟨texts, -, rfl⟩ := List.mem_map.mp (List.mem_of_getElem? hget)
    rw [mapM_text?_encode]
    rfl
  have hlast : ReachesField .standard bytes 1 16384 := by
    obtain ⟨sheet, hsheet⟩ := exists_storeRecords (Sheet.empty Options.standard.sheetName)
      (forall₂_encode [[Text.lit "Price"]]) (show 0 + 1 ≤ maxRows by decide) (by decide)
    have hrow : (rowOfIndex 1).toNat < maxRows := by decide
    obtain ⟨between, hbetween⟩ : ∃ between, storeFields (rowOfIndex 1) sheet 0
        ((List.replicate 16385 []).take 16384) = .ok between := by
      apply exists_storeFields sheet hrow
      rw [List.length_take_of_le (Nat.le_of_lt hlong)]
      decide
    refine ⟨sheet, List.replicate 16385 [], ⟨?_, _, hsecond, mapM_text?_encode _⟩, hlong,
      between, hbetween⟩
    rw [hrecords]
    exact hsheet
  refine ⟨htexts, hlast, ?_⟩
  obtain ⟨-, herror, -⟩ := (readSheet_first_outside .standard bytes).1 htexts
  have hfield := List.length_map Utf8.encode ▸ hlong
  refine (herror _).mpr ⟨1, 16384, ⟨⟨_, hsecond, hfield⟩, Or.inr (by decide), ?_⟩, by decide⟩
  intro i j record hget hj hout
  rw [hrecords] at hget
  match i with
  | 0 =>
    cases hget
    simp [Outside, maxRows, maxColumns] at hj hout
    omega
  | 1 =>
    exact Or.inr ⟨rfl, hout.resolve_left (by decide)⟩
  | i + 2 => cases hget

end Read

end SheetGloss.Csv
