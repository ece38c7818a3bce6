import SheetGloss.Cell.Address

/-!
# Cell formulas

A formula together with the cell that holds it, written as the address, an equals sign and the
expression.
-/

namespace SheetGloss

/-- The text without one equals sign at its front. -/
def withoutEquals : Text → Text
  | '=' :: rest => rest
  | s => s

theorem withoutEquals_of_head {s : Text} (h : s.head? ≠ some '=') : withoutEquals s = s := by
  unfold withoutEquals
  split
  · exact absurd rfl h
  · rfl

/-- A cell and the formula it holds. -/
structure CellFormula where
  cell : Address
  /-- The formula, without its equals sign. -/
  expression : Text
  deriving DecidableEq, Repr

namespace CellFormula

/-- The formula of a cell; one equals sign at its front is dropped. -/
def ofSource (cell : Address) (source : Text) : CellFormula := ⟨cell, withoutEquals source⟩

/-- Reads an address, the first equals sign and the expression after it. -/
def parse (s : Text) : Except SheetError CellFormula :=
  match Text.splitFirst '=' s with
  | (_, none) => .error (.formula s)
  | (before, some expression) => do
    let cell ← Address.parse before
    return ⟨cell, expression⟩

/-- The address, an equals sign and the expression. -/
def toText (f : CellFormula) : Text := f.cell.toText ++ '=' :: f.expression

end CellFormula

end SheetGloss
