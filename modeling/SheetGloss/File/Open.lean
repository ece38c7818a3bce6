import SheetGloss.Csv.Sheet
import SheetGloss.File.Folder
import SheetGloss.Package.File

/-!
# Opening a workbook

The extension of a path tells how its file is read: as a workbook file, or as one sheet of
comma-separated records.
-/

namespace SheetGloss

/-- Why a workbook cannot be opened. -/
inductive OpenError where
  /-- The extension is none that can be read. -/
  | unsupported (path : Text)
  | file (fault : FileFault)
  | package (error : Package.ReadError)
  | records (error : Csv.Error)
  | sheet (error : SheetError)
  deriving DecidableEq, Repr

/-- The wording of an open error. -/
def OpenError.message : OpenError → String
  | unsupported path => "Unsupported file format: " ++ String.ofList path
  | file fault => "IO error: " ++ fault.message
  | package error => error.message
  | records error => error.message
  | sheet error => error.message

/-- How a file is read. -/
inductive FileFormat where
  | package
  | records
  deriving DecidableEq, Repr

/-- The format that a path's extension stands for. -/
def FileFormat.ofPath? (path : Text) : Option FileFormat := do
  let extension ← Path.extension? path
  if extension = Text.lit "xlsx" || extension = Text.lit "xlsm" then some package
  else if extension = Text.lit "csv" then some records
  else none

/-- The workbook in the bytes of a file. -/
def FileFormat.read (bytes : Bytes) : FileFormat → Except OpenError Workbook
  | package =>
    match Package.readArchive bytes with
    | .ok book => .ok book
    | .error error => .error (.package error)
  | records =>
    match Csv.readSheet .standard bytes with
    | .error error => .error (.records error)
    | .ok sheet =>
      match Workbook.empty.add sheet with
      | .ok (book, _) => .ok book
      | .error error => .error (.sheet error)

/-- The refusal of a folder in the place of a file: it can be opened, but nothing read from it. -/
def FileFormat.onFolder : FileFormat → OpenError
  | package => .package .archive
  | records => .records .notText

/-- Opens the workbook at a path. -/
def Workbook.open? (read : FileReader) (path : Text) : Except OpenError Workbook :=
  match FileFormat.ofPath? path with
  | none => .error (.unsupported path)
  | some format =>
    match read path with
    | .ok bytes => format.read bytes
    | .error .isFolder => .error format.onFolder
    | .error fault => .error (.file fault)

end SheetGloss
