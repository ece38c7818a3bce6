import SheetGloss.Cell.Fault

/-!
# Why a workbook file is refused
-/

namespace SheetGloss.Package

/-- Why a workbook file is refused. -/
inductive ReadError where
  | archive
  /-- A part is not well-formed XML, or a text in it cannot be read. -/
  | markup
  /-- The archive has no list of content types. -/
  | noContentTypes
  | missingPart (path : Text)
  | cellReference (reference : Text) (error : SheetError)
  /-- A cell's shared string index is not a number. -/
  | stringIndex (source : Text)
  /-- A cell's shared string index is beyond the table. -/
  | stringBeyond (index : Nat)
  | sheet (error : SheetError)
  deriving DecidableEq, Repr

/-- The wording of a read error. -/
def ReadError.message : ReadError → String
  | archive => "ZIP error"
  | markup => "XML error"
  | noContentTypes => "Invalid XLSX format: Missing [Content_Types].xml"
  | missingPart path => "Missing required part: " ++ String.ofList path
  | cellReference reference error =>
    "Parse error: Invalid cell reference " ++ Text.inQuotes reference ++ ": " ++ error.message
  | stringIndex source => "Parse error: Invalid shared string index: " ++ String.ofList source
  | stringBeyond index =>
    "Parse error: Shared string index " ++ toString index ++ " out of bounds"
  | sheet error => "Core error: " ++ error.message

end SheetGloss.Package
