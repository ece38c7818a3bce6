import SheetGloss.Cell.Address

/-!
# Column spans

A span is the columns from a first to a last one, both included, as `A2:C2` or `A:C` name them.
-/

namespace SheetGloss

/-- The columns from `first` to `last`. -/
structure ColumnSpan where
  first : UInt16
  last : UInt16
  deriving DecidableEq, Repr

namespace ColumnSpan

/-- The span between two columns, if they are in order. -/
def ofEnds? (first last : UInt16) : Option ColumnSpan :=
  if first ≤ last then some ⟨first, last⟩ else none

/-- Reads a span: two ends with one colon between them, the first not right of the last. -/
def parse (s : Text) : Except SheetError ColumnSpan :=
  match Text.splitAll ':' s with
  | [left, right] => do
    let first ← Address.parseColumn left
    let last ← Address.parseColumn right
    match ofEnds? first last with
    | some span => return span
    | none => .error (.span (.reversed s))
  | _ => .error (.span (.notTwoEndpoints s))

/-- The number of columns, in the arithmetic of 16-bit indices. -/
def size (span : ColumnSpan) : Nat := (span.last - span.first).toNat + 1

/-- The column indices in ascending order. -/
def columns (span : ColumnSpan) : List UInt16 :=
  (List.range' span.first.toNat (span.last.toNat + 1 - span.first.toNat)).map UInt16.ofNat

/-- The span as two columns and a colon. -/
def toText (span : ColumnSpan) : Text :=
  Column.letters span.first.toNat ++ ':' :: Column.letters span.last.toNat

end ColumnSpan

end SheetGloss
