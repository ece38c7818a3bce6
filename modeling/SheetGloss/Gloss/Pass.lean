import SheetGloss.Gloss.Basic
import SheetGloss.Gloss.Memo
import SheetGloss.Sheet.Workbook

/-!
# Explaining the formulas of a sheet

One pass goes over the formulas in order and explains each that has a gloss, asking the memo first.
Each explanation joins the rows so far as the rule for repeated headers says.
-/

namespace SheetGloss

/-- What happens when two explained formulas stand under the same header. -/
inductive Repeats where
  /-- The later gloss takes the place of the earlier one. -/
  | overwrite
  /-- Both are kept, in order. -/
  | append
  deriving DecidableEq, Repr

/-- Puts an explanation in the place of the one with its header, or at the end. -/
def Explanation.put (rows : List Explanation) (row : Explanation) : List Explanation :=
  if rows.any (·.header == row.header) then
    rows.map fun old => if old.header == row.header then row else old
  else rows ++ [row]

/-- The rows after one more explanation, by the rule for repeated headers. -/
def Repeats.push : Repeats → List Explanation → Explanation → List Explanation
  | overwrite, rows, row => Explanation.put rows row
  | append, rows, row => rows ++ [row]

/-- The gloss of one formula, from the memo or worked out, and the memo afterwards. -/
def Memo.gloss? (memo : Memo) (headers : HeaderRow) (expression : Text) : Option Text × Memo :=
  match memo.find expression with
  | (some known, memo) => (some known, memo)
  | (none, memo) =>
    match SheetGloss.gloss? expression headers with
    | some gloss => (some gloss, memo.insert expression gloss)
    | none => (none, memo.skip)

/-- One step of a pass: the explanation of a formula, if it has a gloss, joins the rows so far. -/
def explainNext (headers : HeaderRow) (repeats : Repeats) :
    List Explanation × Memo → CellFormula → List Explanation × Memo
  | (rows, memo), formula =>
    match memo.gloss? headers formula.expression with
    | (some gloss, memo) => (repeats.push rows ⟨headers.label formula.cell.column, gloss⟩, memo)
    | (none, memo) => (rows, memo)

/-- Explains formulas with a memo, and gives the memo afterwards. -/
def explainWith (formulas : List CellFormula) (headers : HeaderRow) (repeats : Repeats)
    (memo : Memo) : List Explanation × Memo :=
  formulas.foldl (explainNext headers repeats) ([], memo)

/-- Explains formulas with a fresh memo. -/
def explain (formulas : List CellFormula) (headers : HeaderRow) (repeats : Repeats) :
    List Explanation :=
  (explainWith formulas headers repeats .empty).1

/-- Explains formulas written as an address, an equals sign and an expression. A text of another
form is passed over. -/
def explainTexts (formulas : List Text) (headers : HeaderRow) (repeats : Repeats) :
    List Explanation :=
  explain (formulas.filterMap fun s => (CellFormula.parse s).toOption) headers repeats

/-- Explains the formulas of a sheet under its own headers, and tells how they were answered. -/
def Sheet.explainTallied (sheet : Sheet) (repeats : Repeats) : List Explanation × Tally :=
  let (rows, memo) := explainWith sheet.cellFormulas sheet.headers repeats .empty
  (rows, memo.tally)

/-- Explains the formulas of a sheet under its own headers. -/
def Sheet.explain (sheet : Sheet) (repeats : Repeats) : List Explanation :=
  (sheet.explainTallied repeats).1

/-- Explains every sheet of a workbook on its own, in order. -/
def Workbook.explainAll (book : Workbook) (repeats : Repeats) : List (Text × List Explanation) :=
  book.sheets.map fun sheet => (sheet.name, sheet.explain repeats)

end SheetGloss
