import SheetGloss.Proofs.PackageText
import SheetGloss.Proofs.SheetEdits

/-!
# Reading a written sheet

The reader of a part meets the cells of a written sheet one after another. Between two cells it has
stored those before, and at the end of the part it has the sheet.
-/

namespace SheetGloss.Package

open Xml (Event Tag Markup IsName AreKeys)

/-! ### Markup of cells -/

section Cells

variable {position : Position} {formula value : Option Text}

lemma sound_cell (hf : ∀ source, formula = some source → source ≠ [])
    (hv : ∀ text, value = some text → text ≠ []) :
    ∀ markup ∈ cellMarkup position formula value, markup.Sound := by
  have hc : IsName (Text.lit "c") := by decide +kernel
  have hkeys : AreKeys [Text.lit "r", Text.lit "t"] := by decide +kernel
  have hnone : AreKeys [] := by decide +kernel
  intro markup hm
  rcases List.mem_cons.mp hm with rfl | hm
  · exact ⟨hc, hkeys⟩
  rcases List.mem_append.mp hm with hm | hm
  · cases formula with
    | none => cases hm
    | some source =>
      rw [List.mem_singleton.mp hm]
      exact ⟨by decide +kernel, hf source rfl⟩
  rcases List.mem_append.mp hm with hm | hm
  · cases value with
    | none => cases hm
    | some text =>
      have his : IsName (Text.lit "is") := by decide +kernel
      have ht : IsName (Text.lit "t") := by decide +kernel
      simp only [valueMarkup, List.mem_cons, List.not_mem_nil, or_false] at hm
      rcases hm with rfl | rfl | rfl
      · exact ⟨his, hnone⟩
      · exact ⟨ht, guarded_ne_nil (hv text rfl)⟩
      · exact his
  · rw [List.mem_singleton.mp hm]
    exact hc

lemma nest?_cell (names : List Text) :
    (cellMarkup position formula value).foldlM Markup.nest? names = some names := by
  cases formula <;> cases value <;>
    simp [cellMarkup, formulaMarkup, valueMarkup, Markup.nest?, List.foldlM_cons]

end Cells

lemma sound_layout (layout : Layout) : ∀ markup ∈ layout.markup, markup.Sound := by
  have hworksheet : IsName (Text.lit "worksheet") := by decide +kernel
  have hdata : IsName (Text.lit "sheetData") := by decide +kernel
  have hnone : AreKeys [] := by decide +kernel
  intro markup hm
  simp only [Layout.markup, List.mem_cons, List.mem_append, List.mem_flatMap, List.not_mem_nil,
    or_false] at hm
  rcases hm with rfl | rfl | rfl | ⟨position, -, hm⟩ | rfl | rfl
  · trivial
  · exact ⟨hworksheet, hnone⟩
  · exact ⟨hdata, hnone⟩
  · exact sound_cell (fun source h => (layout.formula_mem position source h).2.1)
      (fun text h => (layout.value_mem position text h).2) markup hm
  · exact hdata
  · exact hworksheet

lemma nest?_flatMap {α : Type} {f : α → List Markup} {names : List Text}
    (h : ∀ a, (f a).foldlM Markup.nest? names = some names) (s : List α) :
    (s.flatMap f).foldlM Markup.nest? names = some names := by
  induction s with
  | nil => rfl
  | cons a s ih =>
    rw [List.flatMap_cons, List.foldlM_append, h]
    exact ih

lemma nest?_layout (layout : Layout) : layout.markup.foldlM Markup.nest? [] = some [] := by
  simp only [Layout.markup, List.foldlM_cons, List.foldlM_append, Markup.nest?,
    Option.bind_eq_bind, Option.bind_some]
  rw [nest?_flatMap fun position => nest?_cell _]
  simp

/-! ### Reading cells -/

/-- A reader that is in a cell, but in none of its parts. -/
def CellReader.inside (build : Build) (cell : Option PendingCell) : CellReader :=
  ⟨build, cell, false, false, false, false⟩

variable {strings : Array Text}

lemma read_formula (strings : Array Text) (build : Build) (cell : PendingCell) (formula : Option Text)
    (hformula : cell.formula = none) (hgroup : cell.group = none) :
    ((formulaMarkup formula).flatMap Markup.events).foldlM (CellReader.step strings)
      (.inside build (some cell)) =
        .ok (.inside build (some { cell with formula := formula })) := by
  obtain ⟨reference, type, value, f, g⟩ := cell
  cases hformula
  cases hgroup
  cases formula with
  | none => rfl
  | some source =>
    simp [formulaMarkup, Markup.events, List.foldlM_cons, CellReader.step, CellReader.opened,
      CellReader.closed, CellReader.met, CellReader.addText, CellReader.inside, Xml.writtenTag,
      Tag.is, Tag.attribute?, sharedGroup?, extend, Except.bind, bind, pure, Except.pure, Text.lit]

lemma read_value (strings : Array Text) (build : Build) (cell : PendingCell) (value : Option Text)
    (htype : cell.type = some (Text.lit "inlineStr")) (hvalue : cell.value = none) :
    ((valueMarkup value).flatMap Markup.events).foldlM (CellReader.step strings)
      (.inside build (some cell)) =
        .ok (.inside build (some { cell with value := value.map guarded })) := by
  obtain ⟨reference, type, v, formula, group⟩ := cell
  cases htype
  cases hvalue
  cases value with
  | none => rfl
  | some text =>
    simp [valueMarkup, Markup.events, List.foldlM_cons, CellReader.step, CellReader.opened,
      CellReader.closed, CellReader.met, CellReader.addText, CellReader.inside, Xml.writtenTag,
      Tag.is, extend, Except.bind, bind, pure, Except.pure, Text.lit]

/-- A build after a cell whose texts were written. -/
def Build.putCell (build : Build) (position : Position) (formula value : Option Text) : Build :=
  { build with
    sheet := { build.sheet with
      values := build.sheet.values.change position (value.map some)
      formulas := build.sheet.formulas.change position (formula.map some) } }

lemma storeValue_written (sheet : Sheet) {position : Position} {cell : PendingCell}
    {value : Option Text} (hbounds : Sheet.checkBounds position.row position.column = .ok ())
    (htype : cell.type = some (Text.lit "inlineStr")) (hvalue : cell.value = value.map guarded)
    (hv : ∀ text, value = some text → text ≠ []) :
    storeValue strings sheet (Address.relative position.row position.column) cell =
      .ok { sheet with values := sheet.values.change position (value.map some) } := by
  cases value with
  | none => rw [storeValue, hvalue, Option.map_none, Option.map_none, CellMap.change]
  | some text =>
    have htext : valueText strings (some (Text.lit "inlineStr")) (guarded text) = .ok text := by
      simp [valueText, decodeEscapes_guarded, Text.lit]
    have hne : text.isEmpty = false := List.isEmpty_eq_false_iff.mpr (hv text rfl)
    simp only [storeValue, hvalue, htype, Option.map_some, htext, bind, Except.bind,
      Sheet.setValueAt, Address.relative, hbounds, hne]
    rfl

lemma storeFormula_written (sheet : Sheet) {position : Position} {formula : Option Text}
    (hbounds : Sheet.checkBounds position.row position.column = .ok ())
    (hf : ∀ source, formula = some source → source.head? ≠ some '=') :
    storeFormula sheet (Address.relative position.row position.column) formula =
      .ok { sheet with formulas := sheet.formulas.change position (formula.map some) } := by
  cases formula with
  | none => rfl
  | some source =>
    simp only [storeFormula, Sheet.setFormulaAt, CellFormula.ofSource, Address.relative, hbounds,
      bind, Except.bind, withoutEquals_of_head (hf source rfl)]
    rfl

lemma store_written (build : Build) {position : Position} {formula value : Option Text}
    (hr : position.row.toNat < maxRows) (hc : position.column.toNat < maxColumns)
    (hf : ∀ source, formula = some source → source.head? ≠ some '=')
    (hv : ∀ text, value = some text → text ≠ []) :
    build.store strings ⟨some (referenceText position), some (Text.lit "inlineStr"),
      value.map guarded, formula, none⟩ = .ok (build.putCell position formula value) := by
  have haddress : Address.parse (referenceText position) =
      .ok (Address.relative position.row position.column) := Address.parse_toText hr hc
  have hbounds := Sheet.checkBounds_eq_ok ⟨hr, hc⟩
  have hformula (cell : PendingCell) (h : cell.formula = formula) (hg : cell.group = none) :
      formulaOf build.anchors (Address.relative position.row position.column) cell =
        (formula, build.anchors) := by
    rw [formulaOf, h, hg]
    cases formula <;> rfl
  simp only [Build.store, haddress]
  rw [storeValue_written build.sheet hbounds rfl rfl hv, hformula _ rfl rfl]
  simp only [bind, Except.bind, storeFormula_written _ hbounds hf]
  rfl

lemma read_cell (strings : Array Text) (build : Build) {position : Position}
    {formula value : Option Text}
    (hr : position.row.toNat < maxRows) (hc : position.column.toNat < maxColumns)
    (hf : ∀ source, formula = some source → source.head? ≠ some '=')
    (hv : ∀ text, value = some text → text ≠ []) :
    ((cellMarkup position formula value).flatMap Markup.events).foldlM (CellReader.step strings)
      (.inside build none) = .ok (.inside (build.putCell position formula value) none) := by
  let cell : PendingCell :=
    ⟨some (referenceText position), some (Text.lit "inlineStr"), none, none, none⟩
  have hopen : CellReader.step strings (.inside build none) (.opening (Xml.writtenTag (Text.lit "c")
      [(Text.lit "r", referenceText position), (Text.lit "t", Text.lit "inlineStr")])) =
        .ok (.inside build (some cell)) := by
    simp [CellReader.step, CellReader.opened, CellReader.inside, PendingCell.ofTag,
      Xml.writtenTag, Tag.is, Tag.attribute?, Text.lit, cell]
  have hformula := read_formula strings build cell formula rfl rfl
  have hvalue :=
    read_value strings build { cell with formula := formula } value rfl rfl
  have hclose : CellReader.step strings (.inside build (some ⟨some (referenceText position),
      some (Text.lit "inlineStr"), value.map guarded, formula, none⟩)) (.closing (Text.lit "c")) =
        .ok (.inside (build.putCell position formula value) none) := by
    simp only [CellReader.step, CellReader.closed, CellReader.inside, if_true,
      store_written build hr hc hf hv, bind, Except.bind]
    rfl
  rw [cellMarkup, List.flatMap_cons, List.flatMap_append, List.flatMap_append, Markup.events,
    List.singleton_append, foldlM_cons_of_pure hopen, foldlM_append_of_pure hformula,
    foldlM_append_of_pure hvalue]
  exact foldlM_cons_of_pure hclose

lemma read_cells (strings : Array Text) (build : Build) {layout : Layout} {order : List Position}
    (h : ∀ position ∈ order, position ∈ layout.order) :
    ((order.flatMap fun position => cellMarkup position layout.sheet.formulas[position]?
        layout.sheet.values[position]?).flatMap Markup.events).foldlM (CellReader.step strings)
      (.inside build none) = .ok (.inside (order.foldl (fun build position =>
        build.putCell position layout.sheet.formulas[position]? layout.sheet.values[position]?)
          build) none) := by
  induction order generalizing build with
  | nil => rfl
  | cons position order ih =>
    obtain ⟨hr, hc⟩ := layout.inside position (h position List.mem_cons_self)
    have hcell := read_cell strings build hr hc
      (fun source hs => (layout.formula_mem position source hs).2.2)
      (fun text ht => (layout.value_mem position text ht).2)
    rw [List.flatMap_cons, List.flatMap_append, foldlM_append_of_pure hcell]
    exact ih _ fun p hp => h p (List.mem_cons_of_mem position hp)

/-- Putting every cell of a map in some order makes the map. -/
lemma foldl_change {source map : CellMap} {order : List Position}
    (hrest : ∀ position : Position, position ∉ order → map[position]? = source[position]?)
    (hpart : ∀ (position : Position) (text : Text), map[position]? = some text →
      source[position]? = some text) :
    order.foldl (fun map position => map.change position (source[position]?.map some)) map =
      source := by
  -- Outside the rest of the order the map is done, and it never holds what the source does not.
  induction order generalizing map with
  | nil => exact Std.ExtTreeMap.ext_getElem? fun position => hrest position List.not_mem_nil
  | cons position order ih =>
    have hchange (p : Position) : (map.change position (source[position]?.map some))[p]? =
        if position = p then source[p]? else map[p]? := by
      rw [CellMap.getElem?_change]
      by_cases hp : position = p
      · subst hp
        rw [if_pos rfl, if_pos rfl]
        cases hs : source[position]? with
        | some text => rfl
        | none =>
          cases hm : map[position]? with
          | none => rfl
          | some text =>
            rw [hpart position text hm] at hs
            cases hs
      · rw [if_neg hp, if_neg hp]
    refine ih ?_ ?_
    · intro p hp
      rw [hchange]
      split
      · rfl
      · next hne => exact hrest p (by simp [hp, Ne.symm hne])
    · intro p text hp
      rw [hchange] at hp
      split at hp
      · exact hp
      · exact hpart p text hp

lemma foldl_putCell (sheet : Sheet) (build : Build) (order : List Position) :
    order.foldl (fun build position =>
      build.putCell position sheet.formulas[position]? sheet.values[position]?) build =
      { build with
        sheet := { build.sheet with
          values := order.foldl (fun map position =>
            map.change position (sheet.values[position]?.map some)) build.sheet.values
          formulas := order.foldl (fun map position =>
            map.change position (sheet.formulas[position]?.map some)) build.sheet.formulas } } := by
  induction order generalizing build with
  | nil => rfl
  | cons position order ih =>
    rw [List.foldl_cons, ih, List.foldl_cons, List.foldl_cons]
    rfl

/-- Reading the part of a sheet gives the sheet. -/
theorem readCells_layout (layout : Layout) (strings : Array Text) :
    readCells strings layout.sheet.name (layout.markup.flatMap Markup.events) =
      .ok layout.sheet := by
  have hvalues : layout.order.foldl (fun (map : CellMap) position =>
      map.change position (layout.sheet.values[position]?.map some)) ∅ = layout.sheet.values := by
    apply foldl_change
    · intro position hp
      cases h : layout.sheet.values[position]? with
      | none => rfl
      | some text => exact absurd (layout.value_mem position text h).1 hp
    · intro position text h
      cases h
  have hformulas : layout.order.foldl (fun (map : CellMap) position =>
      map.change position (layout.sheet.formulas[position]?.map some)) ∅ =
        layout.sheet.formulas := by
    apply foldl_change
    · intro position hp
      cases h : layout.sheet.formulas[position]? with
      | none => rfl
      | some source => exact absurd (layout.formula_mem position source h).1 hp
    · intro position source h
      cases h
  have hcells := read_cells strings ⟨Sheet.empty layout.sheet.name, ∅⟩
    (fun position (h : position ∈ layout.order) => h)
  rw [foldl_putCell] at hcells
  have hopen (name : String) (hname : name = "worksheet" ∨ name = "sheetData") (build : Build) :
      CellReader.step strings (.inside build none) (.opening (Xml.writtenTag (Text.lit name) [])) =
        .ok (.inside build none) := by
    rcases hname with rfl | rfl <;>
      simp [CellReader.step, CellReader.opened, Xml.writtenTag, Tag.is, Text.lit]
  have hclose (name : String) (hname : name = "worksheet" ∨ name = "sheetData") (build : Build) :
      CellReader.step strings (.inside build none) (.closing (Text.lit name)) =
        .ok (.inside build none) := by
    rcases hname with rfl | rfl <;>
      simp [CellReader.step, CellReader.closed, Text.lit]
  have hrun : (layout.markup.flatMap Markup.events).foldlM (CellReader.step strings)
      (CellReader.start layout.sheet.name) = .ok (.inside ⟨layout.sheet, ∅⟩ none) := by
    have hstart : CellReader.start layout.sheet.name =
        .inside ⟨Sheet.empty layout.sheet.name, ∅⟩ none := rfl
    have haside (reader : CellReader) : CellReader.step strings reader .aside = .ok reader := rfl
    rw [Layout.markup, List.flatMap_cons, List.flatMap_cons, List.flatMap_cons,
      List.flatMap_append, hstart]
    simp only [Markup.events, List.singleton_append]
    rw [foldlM_cons_of_pure (haside _), foldlM_cons_of_pure (hopen _ (Or.inl rfl) _),
      foldlM_cons_of_pure (hopen _ (Or.inr rfl) _), foldlM_append_of_pure hcells]
    simp only [Sheet.empty, hvalues, hformulas]
    exact (foldlM_cons_of_pure (hclose _ (Or.inr rfl) _)).trans
      (foldlM_cons_of_pure (hclose _ (Or.inl rfl) _))
  rw [readCells, hrun]
  rfl

end SheetGloss.Package
