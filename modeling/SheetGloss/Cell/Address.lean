import SheetGloss.Text.Blank
import SheetGloss.Text.Digits
import SheetGloss.Cell.Column

/-!
# Cell addresses

An address names a cell by row and column, both counted from zero, and tells for each whether it is
fixed: written with a dollar sign, and kept where it is when a formula is filled into other cells.
-/

namespace SheetGloss

/-- The address of a cell. -/
structure Address where
  /-- Row index, from zero. -/
  row : UInt32
  /-- Column index, from zero. -/
  column : UInt16
  /-- Whether the row stays when a formula is filled. -/
  rowFixed : Bool
  /-- Whether the column stays when a formula is filled. -/
  columnFixed : Bool
  deriving DecidableEq, Repr

namespace Address

/-- The address of a cell, with neither part fixed. -/
def relative (row : UInt32) (column : UInt16) : Address := ⟨row, column, false, false⟩

/-- A dollar sign at the front, and the rest. -/
def dollar : Text → Bool × Text
  | '$' :: rest => (true, rest)
  | s => (false, s)

/-- The column at the front of a reference, whether it is fixed, and what follows its letters. -/
def splitColumn (s : Text) : Except SheetError (UInt16 × Bool × Text) :=
  let (columnFixed, body) := dollar s
  let letters := body.takeWhile Char.isAlpha
  if letters.isEmpty then .error (.address (.noLetters s))
  else do
    let column ← Column.ofLetters letters
    return (column, columnFixed, body.dropWhile Char.isAlpha)

/-- The row that digits stand for; `source` is the whole reference, for messages. -/
def readRow (source digits : Text) : Except SheetError UInt32 :=
  if digits.isEmpty then .error (.address (.noRow source))
  else if !digits.all Char.isDigit then .error (.address (.badRow source))
  else
    let number := Text.decimalValue digits
    if UInt32.size ≤ number then .error (.address (.badRow source))
    else if number = 0 then .error (.address (.rowZero source))
    else if maxRows ≤ number - 1 then .error (.rowOutOfBounds (number - 1) (maxRows - 1))
    else .ok (UInt32.ofNat (number - 1))

/-- Reads an address such as `C2` or `$B$2`; blanks around it are allowed. -/
def parse (s : Text) : Except SheetError Address :=
  let source := Text.trim s
  if source.isEmpty then .error (.address .empty)
  else do
    let (column, columnFixed, rest) ← splitColumn source
    let (rowFixed, digits) := dollar rest
    let row ← readRow source digits
    return ⟨row, column, rowFixed, columnFixed⟩

/-- Reads the column of one end of a span: a whole address, or a column alone. -/
def parseColumn (s : Text) : Except SheetError UInt16 := do
  let source := Text.trim s
  let (column, _, rest) ← splitColumn source
  if rest.isEmpty then return column
  else return (← parse source).column

/-- A dollar sign for a fixed part. -/
def mark (fixed : Bool) : Text := if fixed then ['$'] else []

/-- The address in A1 notation. -/
def toText (a : Address) : Text :=
  mark a.columnFixed ++ Column.letters a.column.toNat ++
    (mark a.rowFixed ++ Text.ofNat (a.row.toNat + 1))

/-- Moves the parts that are not fixed; nothing when the result lies outside the sheet. -/
def offset (a : Address) (rows columns : Int) : Option Address :=
  let row := if a.rowFixed then (a.row.toNat : Int) else a.row.toNat + rows
  let column := if a.columnFixed then (a.column.toNat : Int) else a.column.toNat + columns
  if 0 ≤ row && row < maxRows && 0 ≤ column && column < maxColumns then
    some ⟨UInt32.ofNat row.toNat, UInt16.ofNat column.toNat, a.rowFixed, a.columnFixed⟩
  else none

end Address

end SheetGloss
