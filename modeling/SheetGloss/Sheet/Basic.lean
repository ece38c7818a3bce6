import SheetGloss.Cell.Address
import SheetGloss.Formula.Basic
import SheetGloss.Sheet.Headers
import SheetGloss.Sheet.Position

/-!
# Sheets

A sheet holds the displayed text of its non-empty cells and the formulas of its formula cells. Its
header row is its first row that holds anything.
-/

namespace SheetGloss

/-- A named sheet. -/
structure Sheet where
  name : Text
  /-- The text of each cell that has one; never empty. -/
  values : CellMap
  /-- The formula of each cell that has one, without its equals sign. -/
  formulas : CellMap

namespace Sheet

/-- A sheet with no cells. -/
def empty (name : Text) : Sheet := ⟨name, ∅, ∅⟩

/-- Whether the sheet has neither values nor formulas. -/
def isEmpty (sheet : Sheet) : Bool := sheet.values.isEmpty && sheet.formulas.isEmpty

/-- Refuses a position outside the sheet, the row first. -/
def checkBounds (row : UInt32) (column : UInt16) : Except SheetError Unit :=
  if maxRows ≤ row.toNat then .error (.rowOutOfBounds row.toNat (maxRows - 1))
  else if maxColumns ≤ column.toNat then
    .error (.columnOutOfBounds column.toNat (maxColumns - 1))
  else .ok ()

/-- The text of a cell. -/
def valueAt (sheet : Sheet) (row : UInt32) (column : UInt16) : Option Text :=
  sheet.values[(⟨row, column⟩ : Position)]?

/-- The formula of a cell. -/
def formulaAt (sheet : Sheet) (row : UInt32) (column : UInt16) : Option Text :=
  sheet.formulas[(⟨row, column⟩ : Position)]?

/-- The text of the cell with an address. -/
def value (sheet : Sheet) (address : Text) : Except SheetError (Option Text) := do
  let a ← Address.parse address
  return sheet.valueAt a.row a.column

/-- Sets the text of a cell; the empty text clears it. -/
def setValueAt (sheet : Sheet) (row : UInt32) (column : UInt16) (text : Text) :
    Except SheetError Sheet := do
  checkBounds row column
  let values :=
    if text.isEmpty then sheet.values.erase ⟨row, column⟩
    else sheet.values.insert ⟨row, column⟩ text
  return { sheet with values }

/-- Sets the formula of a cell; one equals sign at its front is dropped. -/
def setFormulaAt (sheet : Sheet) (row : UInt32) (column : UInt16) (source : Text) :
    Except SheetError Sheet := do
  checkBounds row column
  let formula := CellFormula.ofSource (.relative row column) source
  return { sheet with formulas := sheet.formulas.insert ⟨row, column⟩ formula.expression }

/-- Sets the text of the cell with an address. -/
def setValue (sheet : Sheet) (address text : Text) : Except SheetError Sheet := do
  let a ← Address.parse address
  sheet.setValueAt a.row a.column text

/-- Sets the formula of the cell with an address. -/
def setFormula (sheet : Sheet) (address source : Text) : Except SheetError Sheet := do
  let a ← Address.parse address
  sheet.setFormulaAt a.row a.column source

/-- The number of formula cells. -/
def formulaCount (sheet : Sheet) : Nat := sheet.formulas.size

/-- The formula cells in reading order. -/
def cellFormulas (sheet : Sheet) : List CellFormula :=
  sheet.formulas.toList.map fun (position, expression) =>
    ⟨Address.relative position.row position.column, expression⟩

/-- The first row that holds a value or a formula. -/
def headerRowIndex (sheet : Sheet) : Option UInt32 :=
  match sheet.values.minKey?, sheet.formulas.minKey? with
  | some value, some formula => some (min value.row formula.row)
  | some value, none => some value.row
  | none, some formula => some formula.row
  | none, none => none

/-- The number of columns up to the last one with a text in a row. -/
def rowWidth (sheet : Sheet) (row : UInt32) : Nat :=
  ((sheet.values.keys.filter (·.row == row)).map (·.column.toNat + 1)).foldl max 0

/-- The labels of the first row that holds anything; a gap has an empty label. -/
def headers (sheet : Sheet) : HeaderRow :=
  match sheet.headerRowIndex with
  | none => ⟨#[]⟩
  | some row =>
    ⟨Array.ofFn fun column : Fin (sheet.rowWidth row) =>
      (sheet.valueAt row (UInt16.ofNat column)).getD []⟩

end Sheet

end SheetGloss
