import SheetGloss.Package.Archive
import SheetGloss.Package.Cells
import SheetGloss.Package.Contents
import SheetGloss.Package.Strings
import SheetGloss.Sheet.Workbook
import SheetGloss.Xml.Document

/-!
# Reading a workbook from its parts

The sheets come in the order in which the workbook part lists them, each from the part that its
relationship leads to. A sheet whose relationship leads to no sheet part is passed over.
-/

namespace SheetGloss.Package

/-- The events of a part. -/
def Part.events (part : Part) : List Xml.Event := Xml.events part.whole part.chunks

/-- The events of a part that must be there. -/
def requiredEvents (archive : Archive) (path : Text) : Except ReadError (List Xml.Event) :=
  match archive.part? path with
  | some part => .ok part.events
  | none => .error (.missingPart path)

/-- The shared strings of a workbook, none when it has no table. -/
def readStrings (archive : Archive) : Except ReadError (Array Text) :=
  match archive.part? (Text.lit "xl/sharedStrings.xml") with
  | some part => sharedStrings part.events
  | none => .ok #[]

/-- Adds the sheet of an entry to a workbook. -/
def addSheet (archive : Archive) (strings : Array Text) (relations : List Relation)
    (book : Workbook) (entry : SheetEntry) : Except ReadError Workbook :=
  match pathOf? relations entry.relation with
  | none => .ok book
  | some path => do
    let events ← requiredEvents archive path
    let sheet ← readCells strings entry.name events
    let (book, _) ← onSheet (book.add sheet)
    return book

/-- Reads a workbook. -/
def read (archive : Archive) : Except ReadError Workbook := do
  if (archive.part? (Text.lit "[Content_Types].xml")).isNone then throw .noContentTypes
  let strings ← readStrings archive
  let entries ← collect SheetEntry.ofTag? (← requiredEvents archive (Text.lit "xl/workbook.xml"))
  let relations ←
    collect Relation.ofTag? (← requiredEvents archive (Text.lit "xl/_rels/workbook.xml.rels"))
  entries.foldlM (addSheet archive strings relations) Workbook.empty

end SheetGloss.Package
