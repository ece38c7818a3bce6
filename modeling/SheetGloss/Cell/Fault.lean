import SheetGloss.Text.Basic
import SheetGloss.Cell.Limits

/-!
# What can be wrong with an address, a span, a formula or a sheet

Each fault is a cause with the data it concerns; the wording is in the `message` functions.
-/

namespace SheetGloss

/-- Why a text is not the address of a cell. -/
inductive AddressFault where
  /-- Nothing but blanks. -/
  | empty
  /-- No letters where the column should be. -/
  | noLetters (source : Text)
  /-- An empty run of column letters. -/
  | emptyLetters
  /-- A character that is no letter among column letters. -/
  | notLetter (c : Char)
  /-- Nothing after the column. -/
  | noRow (source : Text)
  /-- A row that is not a number of 32 bits. -/
  | badRow (source : Text)
  /-- Row zero: rows are counted from one. -/
  | rowZero (source : Text)
  deriving DecidableEq, Repr

/-- Why a text is not a span of columns. -/
inductive SpanFault where
  /-- Not exactly one colon. -/
  | notTwoEndpoints (source : Text)
  /-- The first column lies right of the last. -/
  | reversed (source : Text)
  deriving DecidableEq, Repr

/-- Why a text cannot name a sheet. -/
inductive NameFault where
  | empty
  /-- More characters than `maxNameLength`. -/
  | tooLong (name : Text)
  /-- A character that names must not hold. -/
  | forbidden (name : Text) (c : Char)
  deriving DecidableEq, Repr

/-- Everything that can be refused about cells and sheets. -/
inductive SheetError where
  | address (fault : AddressFault)
  | span (fault : SpanFault)
  /-- A text is not a cell and a formula: it has no equals sign. -/
  | formula (source : Text)
  | rowOutOfBounds (row greatest : Nat)
  | columnOutOfBounds (column greatest : Nat)
  | sheetName (fault : NameFault)
  /-- A name another sheet of the workbook has. -/
  | duplicateSheetName (name : Text)
  deriving DecidableEq, Repr

/-- The wording of an address fault. -/
def AddressFault.message : AddressFault → String
  | empty => "empty address"
  | noLetters source => "no column letters in " ++ Text.inQuotes source
  | emptyLetters => "empty column letters"
  | notLetter c => "invalid column letter " ++ Text.inQuotes [c]
  | noRow source => "no row number in " ++ Text.inQuotes source
  | badRow source => "invalid row number in " ++ Text.inQuotes source
  | rowZero source => "row number must be >= 1 in " ++ Text.inQuotes source

/-- The wording of a span fault. -/
def SpanFault.message : SpanFault → String
  | notTwoEndpoints source => "expected two endpoints in " ++ Text.inQuotes source
  | reversed source => "start column is after end column in " ++ Text.inQuotes source

/-- The wording of a name fault. -/
def NameFault.message : NameFault → String
  | empty => "name is empty"
  | tooLong name =>
    Text.inQuotes name ++ " is longer than " ++ toString maxNameLength ++ " characters"
  | forbidden name c => Text.inQuotes name ++ " contains invalid character " ++ Text.inQuotes [c]

/-- The wording of a sheet error. -/
def SheetError.message : SheetError → String
  | address fault => "Invalid cell address: " ++ fault.message
  | span fault => "Invalid column range: " ++ fault.message
  | formula source => "Invalid raw formula: missing '=' in " ++ Text.inQuotes source
  | rowOutOfBounds row greatest =>
    "Row index " ++ toString row ++ " out of bounds (max: " ++ toString greatest ++ ")"
  | columnOutOfBounds column greatest =>
    "Column index " ++ toString column ++ " out of bounds (max: " ++ toString greatest ++ ")"
  | sheetName fault => "Invalid sheet name: " ++ fault.message
  | duplicateSheetName name => "Sheet name already exists: " ++ String.ofList name

end SheetGloss
