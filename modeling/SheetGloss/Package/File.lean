import SheetGloss.Package.Reader
import SheetGloss.Zip.Reader

/-!
# Workbook files

A workbook file is a zip archive of its parts.
-/

namespace SheetGloss.Package

/-- Reads a workbook from the bytes of its file. -/
def readArchive (bytes : Bytes) : Except ReadError Workbook :=
  match Zip.read? ⟨bytes.toArray⟩ with
  | some archive => read archive
  | none => .error .archive

end SheetGloss.Package
