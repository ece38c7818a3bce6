import SheetGloss.Text.Basic

/-!
# Header rows

The labels of a sheet's columns, from the first column on.
-/

namespace SheetGloss

/-- The labels of the columns; a sheet may use more columns than have labels. -/
structure HeaderRow where
  /-- The labels, from column zero on. -/
  labels : Array Text
  deriving DecidableEq, Repr

namespace HeaderRow

/-- The row with the given labels. -/
def ofList (labels : List Text) : HeaderRow := ⟨labels.toArray⟩

/-- The labels as a list. -/
def toList (headers : HeaderRow) : List Text := headers.labels.toList

/-- The number of labels. -/
def size (headers : HeaderRow) : Nat := headers.labels.size

/-- The label of a column, nothing past the end of the row. -/
def label? (headers : HeaderRow) (column : UInt16) : Option Text :=
  headers.labels[column.toNat]?

/-- The label of a column, empty past the end of the row. -/
def label (headers : HeaderRow) (column : UInt16) : Text := (headers.label? column).getD []

end HeaderRow

end SheetGloss
