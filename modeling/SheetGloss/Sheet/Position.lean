import SheetGloss.Text.Basic
import Std.Data.ExtTreeMap

/-!
# Positions

The place of a cell in a sheet. Positions are ordered row by row, and by column within a row, so a
map keyed by them lists its cells in reading order.
-/

namespace SheetGloss

/-- A row and a column, both from zero. -/
structure Position where
  row : UInt32
  column : UInt16
  deriving DecidableEq, Repr

namespace Position

/-- Reading order: by row, then by column. -/
def order : Position → Position → Ordering :=
  compareLex (compareOn (·.row)) (compareOn (·.column))

instance : Std.TransCmp order := inferInstanceAs (Std.TransCmp (compareLex _ _))

instance : Std.LawfulEqCmp order where
  compare_self := Std.ReflCmp.compare_self
  eq_of_compare {a b} h := by
    simp only [order, compareLex, compareOn, Ordering.then_eq_eq, Std.compare_eq_iff_eq] at h
    cases a
    cases b
    simp_all

end Position

/-- Texts of cells, in reading order. -/
abbrev CellMap := Std.ExtTreeMap Position Text Position.order

end SheetGloss
