import SheetGloss.Gloss.Pass
import SheetGloss.Proofs.SheetStore

/-!
# Data rows

The header row is the first row that holds anything, and all labels stand in it. Texts below it
therefore play no part in an explanation: whatever is set or cleared there, the header row, its
labels, the formulas and how each is answered stay the same.
-/

namespace SheetGloss

lemma foldl_max_le_iff {l : List Nat} {a n : Nat} : l.foldl max a ≤ n ↔ a ≤ n ∧ ∀ m ∈ l, m ≤ n := by
  induction l generalizing a with
  | nil => simp
  | cons m l ih => rw [List.foldl_cons, ih, Nat.max_le, List.forall_mem_cons, and_assoc]

namespace Sheet

variable {sheet s t : Sheet} {row : UInt32}

/-! ### The header row -/

def Holds (sheet : Sheet) (p : Position) : Prop := p ∈ sheet.values ∨ p ∈ sheet.formulas

lemma holds_iff {p : Position} :
    sheet.Holds p ↔ ∃ layer text, sheet.textAt? ⟨layer, p⟩ = some text := by
  simp only [Holds, Std.ExtTreeMap.mem_iff_isSome_getElem?, Option.isSome_iff_exists]
  constructor
  · rintro (⟨text, h⟩ | ⟨text, h⟩)
    · exact ⟨.value, text, h⟩
    · exact ⟨.formula, text, h⟩
  · rintro ⟨_ | _, text, h⟩
    · exact Or.inl ⟨text, h⟩
    · exact Or.inr ⟨text, h⟩

lemma row_le_of_minKey? {map : CellMap} {first p : Position} (h : map.minKey? = some first)
    (hp : p ∈ map) : first.row ≤ p.row := by
  have hle := (Std.ExtTreeMap.minKey?_eq_some_iff_mem_and_forall.mp h).2 p hp
  simp only [Position.order, compareLex, compareOn, Ordering.isLE_then_iff_or, Std.compare_eq_lt,
    Std.compare_eq_iff_eq] at hle
  rcases hle with hlt | ⟨heq, -⟩
  · exact UInt32.le_of_lt hlt
  · exact UInt32.le_of_eq heq

lemma mem_of_minKey? {map : CellMap} {first : Position} (h : map.minKey? = some first) :
    first ∈ map := (Std.ExtTreeMap.minKey?_eq_some_iff_mem_and_forall.mp h).1

lemma not_mem_of_minKey? {map : CellMap} (h : map.minKey? = none) (p : Position) : p ∉ map := by
  rw [Std.ExtTreeMap.minKey?_eq_none_iff.mp h]
  exact Std.ExtTreeMap.not_mem_empty

/-- A sheet that holds nothing has no header row, in any other it is the least row of a cell. -/
lemma headerRowIndex_cases (sheet : Sheet) :
    (sheet.headerRowIndex = none ∧ ∀ p, ¬ sheet.Holds p) ∨
      ∃ row, sheet.headerRowIndex = some row ∧ (∃ p, sheet.Holds p ∧ p.row = row) ∧
        ∀ p, sheet.Holds p → row ≤ p.row := by
  rw [headerRowIndex]
  cases hvalue : sheet.values.minKey? with
  | none =>
    have hvalues (p : Position) : ¬ p ∈ sheet.values := not_mem_of_minKey? hvalue p
    cases hformula : sheet.formulas.minKey? with
    | none =>
      refine Or.inl ⟨rfl, ?_⟩
      rintro p (hp | hp)
      · exact hvalues p hp
      · exact not_mem_of_minKey? hformula p hp
    | some formula =>
      refine Or.inr ⟨formula.row, rfl, ⟨formula, Or.inr (mem_of_minKey? hformula), rfl⟩, ?_⟩
      rintro p (hp | hp)
      · exact absurd hp (hvalues p)
      · exact row_le_of_minKey? hformula hp
  | some value =>
    cases hformula : sheet.formulas.minKey? with
    | none =>
      refine Or.inr ⟨value.row, rfl, ⟨value, Or.inl (mem_of_minKey? hvalue), rfl⟩, ?_⟩
      rintro p (hp | hp)
      · exact row_le_of_minKey? hvalue hp
      · exact absurd hp (not_mem_of_minKey? hformula p)
    | some formula =>
      refine Or.inr ⟨min value.row formula.row, rfl, ?_, ?_⟩
      · rcases Std.MinEqOr.min_eq_or value.row formula.row with h | h
        · exact ⟨value, Or.inl (mem_of_minKey? hvalue), h.symm⟩
        · exact ⟨formula, Or.inr (mem_of_minKey? hformula), h.symm⟩
      · rintro p (hp | hp)
        · exact UInt32.le_trans Std.min_le_left (row_le_of_minKey? hvalue hp)
        · exact UInt32.le_trans Std.min_le_right (row_le_of_minKey? hformula hp)

/-- The header row is the least row that holds anything. -/
lemma headerRowIndex_eq_some_iff : sheet.headerRowIndex = some row ↔
    (∃ p, sheet.Holds p ∧ p.row = row) ∧ ∀ p, sheet.Holds p → row ≤ p.row := by
  rcases sheet.headerRowIndex_cases with ⟨hnone, hempty⟩ | ⟨first, hsome, ⟨p, hp, hrow⟩, hleast⟩
  · rw [hnone]
    refine iff_of_false (by simp) ?_
    rintro ⟨⟨p, hp, -⟩, -⟩
    exact hempty p hp
  · rw [hsome, Option.some.injEq]
    constructor
    · rintro rfl
      exact ⟨⟨p, hp, hrow⟩, hleast⟩
    · rintro ⟨⟨q, hq, hqrow⟩, hleast'⟩
      refine UInt32.le_antisymm ?_ ?_
      · exact hqrow ▸ hleast q hq
      · exact hrow ▸ hleast' p hp

/-- A cell that holds something, in a row above which no call aims, makes it the header row. -/
lemma headerRowIndex_ofEdits {name : Text} {edits : List Edit} {p : Position}
    (hp : (ofEdits name edits).Holds p)
    (habove : ∀ edit ∈ edits, ∀ entry ∈ edit.target.toOption, p.row ≤ entry.position.row) :
    (ofEdits name edits).headerRowIndex = some p.row := by
  refine headerRowIndex_eq_some_iff.mpr ⟨⟨p, hp, rfl⟩, ?_⟩
  intro q hq
  obtain ⟨layer, text, htext⟩ := holds_iff.mp hq
  obtain ⟨edit, hedit, htarget, -⟩ := exists_target_of_textAt? htext
  exact habove edit hedit ⟨layer, q⟩ (by rw [htarget]; rfl)

lemma rowWidth_le_iff {n : Nat} : sheet.rowWidth row ≤ n ↔
    ∀ column, (sheet.valueAt row column).isSome = true → column.toNat < n := by
  rw [rowWidth, foldl_max_le_iff]
  simp only [List.mem_map, List.mem_filter, Std.ExtTreeMap.mem_keys,
    Std.ExtTreeMap.mem_iff_isSome_getElem?, beq_iff_eq, valueAt]
  constructor
  · rintro ⟨-, h⟩ column hcolumn
    exact h _ ⟨⟨row, column⟩, ⟨hcolumn, rfl⟩, rfl⟩
  · intro h
    refine ⟨Nat.zero_le n, ?_⟩
    rintro m ⟨⟨_, column⟩, ⟨hcolumn, rfl⟩, rfl⟩
    exact h column hcolumn

/-! ### What lies below it -/

/-- Two sheets that hold the same formulas, and the same texts down to a row. -/
def AgreeTo (row : UInt32) (s t : Sheet) : Prop :=
  ∀ entry : Entry, (entry.layer = .value → entry.position.row ≤ row) →
    s.textAt? entry = t.textAt? entry

namespace AgreeTo

lemma symm (h : AgreeTo row s t) : AgreeTo row t s := fun entry hentry => (h entry hentry).symm

lemma formulas_eq (h : AgreeTo row s t) : s.formulas = t.formulas :=
  Std.ExtTreeMap.ext_getElem? fun p => h ⟨.formula, p⟩ (by simp)

lemma valueAt_eq (h : AgreeTo row s t) (column : UInt16) :
    s.valueAt row column = t.valueAt row column := h ⟨.value, row, column⟩ fun _ => UInt32.le_refl row

lemma holds (h : AgreeTo row s t) {p : Position} (hp : s.Holds p) (hrow : p.row ≤ row) :
    t.Holds p := by
  obtain ⟨layer, text, htext⟩ := holds_iff.mp hp
  rw [h ⟨layer, p⟩ fun _ => hrow] at htext
  exact holds_iff.mpr ⟨layer, text, htext⟩

lemma headerRowIndex_eq (h : AgreeTo row s t) (hs : s.headerRowIndex = some row) :
    t.headerRowIndex = some row := by
  rw [headerRowIndex_eq_some_iff] at hs ⊢
  obtain ⟨⟨p, hp, rfl⟩, hleast⟩ := hs
  refine ⟨⟨p, h.holds hp (UInt32.le_refl _), rfl⟩, ?_⟩
  intro q hq
  -- A cell of `t` above the row would be one of `s` too.
  by_contra hlt
  rw [UInt32.not_le] at hlt
  exact UInt32.not_le.mpr hlt (hleast q (h.symm.holds hq (UInt32.le_of_lt hlt)))

lemma rowWidth_le (h : AgreeTo row s t) : s.rowWidth row ≤ t.rowWidth row := by
  rw [rowWidth_le_iff]
  intro column hcolumn
  rw [h.valueAt_eq] at hcolumn
  exact rowWidth_le_iff.mp (Nat.le_refl _) column hcolumn

lemma headers_eq (h : AgreeTo row s t) (hs : s.headerRowIndex = some row) :
    s.headers = t.headers := by
  have hwidth : s.rowWidth row = t.rowWidth row := Nat.le_antisymm h.rowWidth_le h.symm.rowWidth_le
  simp only [headers, hs, h.headerRowIndex_eq hs, h.valueAt_eq]
  rw [hwidth]

lemma cellFormulas_eq (h : AgreeTo row s t) : s.cellFormulas = t.cellFormulas := by
  rw [cellFormulas, cellFormulas, h.formulas_eq]

lemma explainTallied_eq (h : AgreeTo row s t) (hs : s.headerRowIndex = some row)
    (repeats : Repeats) : s.explainTallied repeats = t.explainTallied repeats := by
  rw [explainTallied, explainTallied, h.cellFormulas_eq, h.headers_eq hs]

end AgreeTo

/-- The calls that set texts of cells. -/
def dataEdits (data : List (Position × Text)) : List Edit :=
  data.map fun (p, text) => .valueAt p.row p.column text

/-- Calls that set texts below a row change nothing down to that row. -/
lemma agreeTo_ofEdits (name : Text) (edits : List Edit) {data : List (Position × Text)}
    (hdata : ∀ change ∈ data, row < change.1.row) :
    AgreeTo row (ofEdits name edits) (ofEdits name (edits ++ dataEdits data)) := by
  intro entry hentry
  have hnone : (dataEdits data).filter (·.target.toOption = some entry) = [] := by
    rw [List.filter_eq_nil_iff]
    intro edit hm htarget
    obtain ⟨⟨p, text⟩, hchange, rfl⟩ := List.mem_map.mp hm
    obtain ⟨-, rfl⟩ :=
      Entry.within_eq_ok_iff.mp (eq_ok_of_toOption (of_decide_eq_true htarget))
    exact UInt32.not_le.mpr (hdata _ hchange) (hentry rfl)
  rw [textAt?_ofEdits, textAt?_ofEdits, lastText?, lastText?, List.filter_append, hnone,
    List.append_nil]

/-- Texts set or cleared below the header row of a sheet change neither its header row nor its
labels, nor its formulas, nor how they are explained and answered. -/
theorem explainTallied_append_data (name : Text) (edits : List Edit) (row : UInt32)
    (hrow : (ofEdits name edits).headerRowIndex = some row) (data : List (Position × Text))
    (hdata : ∀ change ∈ data, row < change.1.row) (repeats : Repeats) :
    let before := ofEdits name edits
    let after := ofEdits name (edits ++ dataEdits data)
    after.headerRowIndex = before.headerRowIndex ∧ after.headers = before.headers ∧
      after.cellFormulas = before.cellFormulas ∧
      after.explainTallied repeats = before.explainTallied repeats := by
  intro before after
  have hagree : AgreeTo row before after := agreeTo_ofEdits name edits hdata
  exact ⟨(hagree.headerRowIndex_eq hrow).trans hrow.symm, (hagree.headers_eq hrow).symm,
    hagree.cellFormulas_eq.symm, (hagree.explainTallied_eq hrow repeats).symm⟩

/-- A number that is set and cleared again under labels, and a text that no row has room for. -/
theorem explainTallied_append_data_cleared :
    let edits : List Edit := [.valueAt 1 0 (Text.lit "Price"), .valueAt 1 1 (Text.lit "Qty"),
      .formula (Text.lit "B3") (Text.lit "=SUM(A3:B3)")]
    let data : List (Position × Text) := [(⟨2, 0⟩, Text.lit "5"), (⟨2, 0⟩, []),
      (⟨1048576, 0⟩, Text.lit "7")]
    let before := ofEdits (Text.lit "Data") edits
    let after := ofEdits (Text.lit "Data") (edits ++ dataEdits data)
    before.headerRowIndex = some 1 ∧ before.valueAt 1 1 = some (Text.lit "Qty") ∧
      (∀ change ∈ data, 1 < change.1.row) ∧
      after.headerRowIndex = some 1 ∧ after.headers = before.headers ∧
      after.cellFormulas = before.cellFormulas ∧
      after.explainTallied .append = before.explainTallied .append := by
  intro edits data before after
  have hlabel : before.textAt? ⟨.value, 1, 1⟩ = some (Text.lit "Qty") := by
    rw [textAt?_ofEdits]
    decide +kernel
  have hrow : before.headerRowIndex = some 1 :=
    headerRowIndex_ofEdits (holds_iff.mpr ⟨_, _, hlabel⟩) (by decide +kernel)
  have hdata : ∀ change ∈ data, 1 < change.1.row := by decide
  obtain ⟨hindex, hrest⟩ :=
    explainTallied_append_data (Text.lit "Data") edits 1 hrow data hdata .append
  exact ⟨hrow, hlabel, hdata, hindex.trans hrow, hrest⟩

end Sheet

end SheetGloss
