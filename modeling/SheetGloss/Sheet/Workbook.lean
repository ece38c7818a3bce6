import SheetGloss.Sheet.Basic

/-!
# Workbooks

A workbook is a list of sheets whose names are valid and distinct.
-/

namespace SheetGloss

/-- Characters that no sheet name may hold. -/
def forbiddenInNames : List Char := ['\\', '/', '?', '*', '[', ']', ':']

/-- Refuses a text that cannot name a sheet. -/
def checkName (name : Text) : Except SheetError Unit :=
  if name.isEmpty then .error (.sheetName .empty)
  else if maxNameLength < name.length then .error (.sheetName (.tooLong name))
  else
    match name.find? (forbiddenInNames.contains ·) with
    | some c => .error (.sheetName (.forbidden name c))
    | none => .ok ()

/-- Sheets in the order in which they were added. -/
structure Workbook where
  sheets : List Sheet

namespace Workbook

/-- A workbook with no sheets. -/
def empty : Workbook := ⟨[]⟩

/-- The names of the sheets, in order. -/
def names (book : Workbook) : List Text := book.sheets.map (·.name)

/-- The sheet at an index. -/
def sheet? (book : Workbook) (index : Nat) : Option Sheet := book.sheets[index]?

/-- The sheet with a name. -/
def sheetNamed? (book : Workbook) (name : Text) : Option Sheet :=
  book.sheets.find? (·.name == name)

/-- The index of the sheet with a name. -/
def indexOf? (book : Workbook) (name : Text) : Option Nat :=
  book.sheets.findIdx? (·.name == name)

/-- Adds a sheet at the end and tells its index. Its name must be valid and not taken. -/
def add (book : Workbook) (sheet : Sheet) : Except SheetError (Workbook × Nat) := do
  checkName sheet.name
  if (book.indexOf? sheet.name).isSome then throw (.duplicateSheetName sheet.name)
  return (⟨book.sheets ++ [sheet]⟩, book.sheets.length)

/-- Adds an empty sheet with a name. -/
def addNamed (book : Workbook) (name : Text) : Except SheetError (Workbook × Nat) :=
  book.add (Sheet.empty name)

end Workbook

end SheetGloss
