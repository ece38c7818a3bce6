import SheetGloss.Csv.Record
import SheetGloss.Sheet.Basic
import SheetGloss.Text.Blank

/-!
# Sheets from comma-separated records

Every record is a row of the sheet, the first one included. A field that begins with an equals sign
and has more than blanks after it is a formula, any other field is a value.
-/

namespace SheetGloss.Csv

/-- How to read a file of records. -/
structure Options where
  dialect : Dialect
  sheetName : Text

/-- Commas, double quotes, and a sheet named `Sheet1`. -/
def Options.standard : Options := ⟨⟨0x2C, 0x22⟩, Text.lit "Sheet1"⟩

/-- Why a file of records is refused. -/
inductive Error where
  /-- A field is not UTF-8. -/
  | notText
  | sheet (error : SheetError)
  deriving DecidableEq, Repr

/-- The wording of an error. -/
def Error.message : Error → String
  | notText => "CSV error"
  | sheet error => "Core error: " ++ error.message

/-- The row of a record; an index beyond 32 bits is the first row outside a sheet. -/
def rowOfIndex (index : Nat) : UInt32 :=
  if index < UInt32.size then UInt32.ofNat index else UInt32.ofNat maxRows

/-- The column of a field; an index beyond 16 bits is refused. -/
def columnOfIndex (index : Nat) : Except SheetError UInt16 :=
  if index < UInt16.size then .ok (UInt16.ofNat index)
  else .error (.columnOutOfBounds index maxColumns)

/-- The formula of a field, if it is one. -/
def formulaOf? : Text → Option Text
  | '=' :: rest => if (Text.trim rest).isEmpty then none else some rest
  | _ => none

/-- Stores a field in its cell. -/
def storeField (sheet : Sheet) (row : UInt32) (index : Nat) (field : Text) :
    Except SheetError Sheet := do
  let column ← columnOfIndex index
  match formulaOf? field with
  | some formula => sheet.setFormulaAt row column formula
  | none => sheet.setValueAt row column field

/-- Stores fields in the cells of a row, from a column on. -/
def storeFields (row : UInt32) (sheet : Sheet) (index : Nat) : List Text → Except SheetError Sheet
  | [] => .ok sheet
  | field :: rest => do
    let sheet ← storeField sheet row index field
    storeFields row sheet (index + 1) rest

/-- Stores records in the rows of a sheet, from a row on. -/
def storeRecords (sheet : Sheet) (index : Nat) : List Record → Except Error Sheet
  | [] => .ok sheet
  | record :: rest =>
    match record.mapM Utf8.text? with
    | none => .error .notText
    | some fields =>
      match storeFields (rowOfIndex index) sheet 0 fields with
      | .error error => .error (.sheet error)
      | .ok sheet => storeRecords sheet (index + 1) rest

/-- Reads the sheet in a file of records. -/
def readSheet (options : Options) (bytes : Bytes) : Except Error Sheet :=
  storeRecords (Sheet.empty options.sheetName) 0 (records options.dialect bytes)

end SheetGloss.Csv
