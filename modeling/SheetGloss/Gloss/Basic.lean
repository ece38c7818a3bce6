import SheetGloss.Cell.Span
import SheetGloss.Formula.Call
import SheetGloss.Sheet.Headers

/-!
# Glosses

The gloss of a formula says its first aggregate call in header labels: `SUM(A2:B2)` under `Price`
and `Qty` is `SUM(Price + Qty)`. An explanation pairs the gloss with the label of the cell's column.
-/

namespace SheetGloss

/-- What stands between two labels of a gloss. -/
def labelSeparator : Text := Text.lit " + "

/-- An aggregate over the columns of a span, in labels. -/
def Aggregate.gloss (aggregate : Aggregate) (span : ColumnSpan) (headers : HeaderRow) : Text :=
  aggregate.name ++ '(' :: (labelSeparator.intercalate (span.columns.map headers.label) ++ [')'])

/-- The gloss of a formula: nothing unless its first aggregate call has a span as its argument. -/
def gloss? (expression : Text) (headers : HeaderRow) : Option Text := do
  let (aggregate, argument) ← Aggregate.firstCall? expression
  let span ← (ColumnSpan.parse argument).toOption
  return aggregate.gloss span headers

/-- A column's header and the gloss of a formula in that column. -/
structure Explanation where
  header : Text
  gloss : Text
  deriving DecidableEq, Repr

namespace Explanation

/-- The header, an equals sign and the gloss. -/
def toText (e : Explanation) : Text := e.header ++ Text.lit " = " ++ e.gloss

/-- A line for each explanation. -/
def report (rows : List Explanation) : Text := rows.flatMap fun e => e.toText ++ ['\n']

end Explanation

end SheetGloss
