import SheetGloss.Proofs.DataRows

/-!
# The labels of a sheet

The header row of a sheet is its first row that holds anything. Whatever calls made the sheet, each
label of the row is the text of its own column, and the row ends with the last text.
-/

namespace SheetGloss

namespace Sheet

variable {sheet : Sheet} {row : UInt32}

lemma holds_position_iff {column : UInt16} : sheet.Holds ⟨row, column⟩ ↔
    (sheet.valueAt row column).isSome = true ∨ (sheet.formulaAt row column).isSome = true := by
  simp only [Holds, Std.ExtTreeMap.mem_iff_isSome_getElem?, valueAt, formulaAt]

lemma isEmpty_iff : sheet.isEmpty = true ↔ ∀ p, ¬sheet.Holds p := by
  simp only [isEmpty, Bool.and_eq_true, Std.ExtTreeMap.isEmpty_iff,
    Std.ExtTreeMap.eq_empty_iff_forall_not_mem, Holds, not_or, forall_and]

lemma headerRowIndex_eq_none_iff : sheet.headerRowIndex = none ↔ sheet.isEmpty = true := by
  rw [isEmpty_iff]
  rcases sheet.headerRowIndex_cases with ⟨hnone, hempty⟩ | ⟨row, hsome, ⟨p, hp, -⟩, -⟩
  · exact iff_of_true hnone hempty
  · rw [hsome]
    exact iff_of_false (by simp) fun hempty => hempty p hp

lemma headers_of_isEmpty (h : sheet.isEmpty = true) : sheet.headers.toList = [] := by
  simp only [headers, headerRowIndex_eq_none_iff.mpr h, HeaderRow.toList]

lemma getElem?_headers (h : sheet.headerRowIndex = some row) (column : Nat) :
    sheet.headers.labels[column]? = if column < sheet.rowWidth row then
      some ((sheet.valueAt row (UInt16.ofNat column)).getD []) else none := by
  simp only [headers, h, Array.getElem?_ofFn]
  split <;> rfl

/-- The label of a column is the text that the header row has in this column. -/
lemma label_headers (h : sheet.headerRowIndex = some row) (column : UInt16) :
    sheet.headers.label column = (sheet.valueAt row column).getD [] := by
  rw [HeaderRow.label, HeaderRow.label?, getElem?_headers h, UInt16.ofNat_toNat]
  by_cases hwidth : column.toNat < sheet.rowWidth row
  · rw [if_pos hwidth]
    rfl
  · have hnone : ¬(sheet.valueAt row column).isSome = true := by
      intro hsome
      exact hwidth (rowWidth_le_iff.mp (Nat.le_refl _) column hsome)
    rw [if_neg hwidth, Option.not_isSome_iff_eq_none.mp hnone]

lemma exists_last_of_rowWidth {n : Nat} (h : sheet.rowWidth row = n + 1) :
    ∃ column, column.toNat = n ∧ (sheet.valueAt row column).isSome = true := by
  have hnot : ¬sheet.rowWidth row ≤ n := by omega
  simp only [rowWidth_le_iff, not_forall] at hnot
  obtain ⟨column, hsome, hge⟩ := hnot
  have hlt := rowWidth_le_iff.mp (Nat.le_refl _) column hsome
  exact ⟨column, by omega, hsome⟩

lemma length_headers (h : sheet.headerRowIndex = some row) :
    sheet.headers.toList.length = sheet.rowWidth row := by
  simp only [headers, h, HeaderRow.toList, Array.length_toList, Array.size_ofFn]

lemma Sound.length_headers_le (hsound : sheet.Sound) :
    sheet.headers.toList.length ≤ maxColumns := by
  cases hrow : sheet.headerRowIndex with
  | none =>
    rw [headers_of_isEmpty (headerRowIndex_eq_none_iff.mp hrow)]
    exact Nat.zero_le maxColumns
  | some row =>
    rw [length_headers hrow, rowWidth_le_iff]
    intro column hsome
    obtain ⟨label, hlabel⟩ := Option.isSome_iff_exists.mp hsome
    exact (hsound.value_inside ⟨row, column⟩ label hlabel).1.2

lemma Sound.getLast?_headers (hsound : sheet.Sound) :
    sheet.headers.toList = [] ∨
      ∃ label, sheet.headers.toList.getLast? = some label ∧ label ≠ [] := by
  cases hrow : sheet.headerRowIndex with
  | none => exact Or.inl (headers_of_isEmpty (headerRowIndex_eq_none_iff.mp hrow))
  | some row =>
    have hlength := length_headers hrow
    cases hwidth : sheet.rowWidth row with
    | zero =>
      rw [hwidth] at hlength
      exact Or.inl (List.length_eq_zero_iff.mp hlength)
    | succ n =>
      obtain ⟨column, hcolumn, hsome⟩ := exists_last_of_rowWidth hwidth
      obtain ⟨label, hlabel⟩ := Option.isSome_iff_exists.mp hsome
      refine Or.inr ⟨label, ?_, (hsound.value_inside ⟨row, column⟩ label hlabel).2⟩
      -- The labels end at the last column that holds a text, and this text is not empty.
      rw [List.getLast?_eq_getElem?, hlength, hwidth, Nat.add_sub_cancel, HeaderRow.toList,
        Array.getElem?_toList, getElem?_headers hrow, if_pos (by omega), ← hcolumn,
        UInt16.ofNat_toNat, hlabel]
      rfl

/-- Whatever calls made a sheet, it has a header row exactly when it is not empty. The row holds a
text or a formula, and no row above it does; the label of every column is the text that the row has
there, or empty; and there are no more labels than columns, the last of which is not empty. -/
theorem headers_aligned (name : Text) (edits : List Edit) :
    let sheet := ofEdits name edits
    (sheet.headerRowIndex = none ↔ sheet.isEmpty = true) ∧
      (sheet.isEmpty = true → sheet.headers.toList = []) ∧
      (∀ row, sheet.headerRowIndex = some row →
        (∃ column, (sheet.valueAt row column).isSome = true ∨
          (sheet.formulaAt row column).isSome = true) ∧
        (∀ above < row, ∀ column,
          sheet.valueAt above column = none ∧ sheet.formulaAt above column = none) ∧
        ∀ column, sheet.headers.label column = (sheet.valueAt row column).getD []) ∧
      sheet.headers.toList.length ≤ maxColumns ∧
      (sheet.headers.toList = [] ∨
        ∃ label, sheet.headers.toList.getLast? = some label ∧ label ≠ []) := by
  intro sheet
  have hsound : sheet.Sound := sound_ofEdits name edits
  refine ⟨headerRowIndex_eq_none_iff, headers_of_isEmpty, ?row, hsound.length_headers_le,
    hsound.getLast?_headers⟩
  case row =>
    intro row hrow
    obtain ⟨⟨⟨_, column⟩, hp, rfl⟩, hleast⟩ := headerRowIndex_eq_some_iff.mp hrow
    refine ⟨⟨column, holds_position_iff.mp hp⟩, ?_, label_headers hrow⟩
    intro above habove column
    have hnot : ¬sheet.Holds ⟨above, column⟩ := fun hp =>
      UInt32.not_le.mpr habove (hleast _ hp)
    simpa [holds_position_iff] using hnot

/-- A label in the last column, one that is cleared again, and one that no column has room for. -/
theorem headers_aligned_last_column :
    let edits : List Edit := [.valueAt 0 0 (Text.lit "x"), .valueAt 0 0 [],
      .valueAt 2 16383 (Text.lit "Total"), .valueAt 2 1 (Text.lit "Qty"), .valueAt 2 1 [],
      .valueAt 2 16384 (Text.lit "Note"), .formula (Text.lit "B4") (Text.lit "=SUM(A4:A4)")]
    let sheet := ofEdits (Text.lit "Data") edits
    sheet.headerRowIndex = some 2 ∧ sheet.valueAt 0 0 = none ∧
      sheet.headers.label 16383 = Text.lit "Total" ∧ sheet.headers.label 1 = [] ∧
      sheet.headers.label 16384 = [] := by
  intro edits sheet
  have hvalue (row : UInt32) (column : UInt16) :
      sheet.valueAt row column = lastText? edits ⟨.value, row, column⟩ :=
    textAt?_ofEdits _ edits ⟨.value, row, column⟩
  have htotal : sheet.textAt? ⟨.value, 2, 16383⟩ = some (Text.lit "Total") := by
    rw [textAt?_ofEdits]
    decide +kernel
  have hrow : sheet.headerRowIndex = some 2 := by
    refine headerRowIndex_eq_some_iff.mpr ⟨⟨_, holds_iff.mpr ⟨_, _, htotal⟩, rfl⟩, ?_⟩
    have hcleared : ∀ edit ∈ edits, ∀ entry ∈ edit.target.toOption,
        2 ≤ entry.position.row ∨ lastText? edits entry = none := by
      decide +kernel
    intro p hp
    obtain ⟨layer, text, htext⟩ := holds_iff.mp hp
    obtain ⟨edit, hedit, htarget, -⟩ := exists_target_of_textAt? htext
    rcases hcleared edit hedit ⟨layer, p⟩ (by rw [htarget]; rfl) with hle | hnone
    · exact hle
    · rw [textAt?_ofEdits, hnone] at htext
      cases htext
  obtain ⟨-, habove, hlabel⟩ := (headers_aligned (Text.lit "Data") edits).2.2.1 2 hrow
  refine ⟨hrow, (habove 0 (by decide) 0).1, ?_, ?_, ?_⟩
  · rw [hlabel, hvalue]
    decide +kernel
  · rw [hlabel, hvalue]
    decide +kernel
  · rw [hlabel, hvalue]
    decide +kernel

end Sheet

end SheetGloss
