import SheetGloss.Package.Reader
import SheetGloss.Proofs.AddressText
import SheetGloss.Proofs.MarkupText

/-!
# Written workbooks

A plain way to write workbooks: a part for each sheet with the cells one after another, in any
order, and the parts that list the sheets.
-/

namespace SheetGloss.Package

open Xml (Markup)

/-- A sheet that can be written, and an order for its cells. -/
structure Layout where
  sheet : Sheet
  /-- The cells in the order in which they are written. -/
  order : List Position
  name_valid : checkName sheet.name = .ok ()
  inside : ∀ position ∈ order,
    position.row.toNat < maxRows ∧ position.column.toNat < maxColumns
  value_mem : ∀ position text, sheet.values[position]? = some text →
    position ∈ order ∧ text ≠ []
  formula_mem : ∀ position source, sheet.formulas[position]? = some source →
    position ∈ order ∧ source ≠ [] ∧ source.head? ≠ some '='

def referenceText (position : Position) : Text :=
  (Address.relative position.row position.column).toText

def formulaMarkup : Option Text → List Markup
  | some source => [.leaf (Text.lit "f") source]
  | none => []

def valueMarkup : Option Text → List Markup
  | some text =>
    [.opening (Text.lit "is") [], .leaf (Text.lit "t") (guarded text), .closing (Text.lit "is")]
  | none => []

/-- A cell as it is written. -/
def cellMarkup (position : Position) (formula value : Option Text) : List Markup :=
  .opening (Text.lit "c")
      [(Text.lit "r", referenceText position), (Text.lit "t", Text.lit "inlineStr")] ::
    (formulaMarkup formula ++ (valueMarkup value ++ [.closing (Text.lit "c")]))

def Layout.markup (layout : Layout) : List Markup :=
  .declaration :: .opening (Text.lit "worksheet") [] :: .opening (Text.lit "sheetData") [] ::
    ((layout.order.flatMap fun position =>
        cellMarkup position layout.sheet.formulas[position]? layout.sheet.values[position]?) ++
      [.closing (Text.lit "sheetData"), .closing (Text.lit "worksheet")])

def relationText (number : Nat) : Text := Text.lit "rId" ++ Text.ofNat number

def targetStem : Text := Text.lit "worksheets/sheet"

/-- Where the part of the sheet with a number lies, from the folder of the workbook. -/
def targetText (number : Nat) : Text := targetStem ++ (Text.ofNat number ++ Text.lit ".xml")

def sheetPath (number : Nat) : Text := Text.lit "xl/" ++ targetText number

/-- The list of the content types, which names none. -/
def typesMarkup : List Markup :=
  [.declaration, .opening (Text.lit "Types") [], .closing (Text.lit "Types")]

def sheetMarkup (entry : Text × Nat) : Markup :=
  .single (Text.lit "sheet") [(Text.lit "name", entry.1), (Text.lit "sheetId", Text.ofNat entry.2),
    (Text.lit "r:id", relationText entry.2)]

/-- The workbook's list of the sheets with some names, numbered from one on. -/
def workbookMarkup (names : List Text) : List Markup :=
  .declaration ::
    .opening (Text.lit "workbook") [(Text.lit "xmlns:r",
      Text.lit "http://schemas.openxmlformats.org/officeDocument/2006/relationships")] ::
    .opening (Text.lit "sheets") [] ::
    ((names.zipIdx 1).map sheetMarkup ++
      [.closing (Text.lit "sheets"), .closing (Text.lit "workbook")])

def worksheetType : Text :=
  Text.lit "http://schemas.openxmlformats.org/officeDocument/2006/relationships/worksheet"

def relationMarkup (number : Nat) : Markup :=
  .single (Text.lit "Relationship") [(Text.lit "Id", relationText number),
    (Text.lit "Type", worksheetType), (Text.lit "Target", targetText number)]

/-- The relationships to some sheets, numbered from one on. -/
def relationsMarkup (count : Nat) : List Markup :=
  .declaration :: .opening (Text.lit "Relationships") [] ::
    ((List.range' 1 count).map relationMarkup ++ [.closing (Text.lit "Relationships")])

def writtenPart (name : Text) (document : List Markup) : Entry :=
  .sound name (Utf8.encode (Xml.documentText document))

/-- The archive of some documents. -/
def documents (parts : List (Text × List Markup)) : Archive :=
  parts.map fun part => writtenPart part.1 part.2

/-- The documents of a written workbook, by the names of their parts. -/
def writtenDocuments (layouts : List Layout) : List (Text × List Markup) :=
  (Text.lit "[Content_Types].xml", typesMarkup) ::
    (Text.lit "xl/workbook.xml",
      workbookMarkup (layouts.map fun layout => layout.sheet.name)) ::
    (Text.lit "xl/_rels/workbook.xml.rels", relationsMarkup layouts.length) ::
    (layouts.zipIdx 1).map fun entry => (sheetPath entry.2, entry.1.markup)

/-- The parts of a written workbook. -/
def writtenArchive (layouts : List Layout) : Archive := documents (writtenDocuments layouts)

/-! ### Events of a written part -/

lemma withoutMark_of_head {b : UInt8} {rest : Bytes} {chunks : List Bytes} (h : b ≠ 0xEF) :
    Xml.withoutMark ((b :: rest) :: chunks) = (b :: rest) :: chunks := by
  unfold Xml.withoutMark
  split
  · next heq =>
    cases heq
    exact absurd rfl h
  · rfl

/-- The events of a written part are the events of its markup. -/
lemma events_written {document : List Markup} (h : ∀ markup ∈ document, markup.Sound)
    (hhead : document.head? = some .declaration)
    (hnest : document.foldlM Markup.nest? [] = some []) :
    Xml.events true (chunks (Utf8.encode (Xml.documentText document))) =
      document.flatMap Markup.events := by
  obtain ⟨rest, rfl⟩ := List.head?_eq_some_iff.mp hhead
  obtain ⟨bytes, hbytes⟩ : ∃ bytes,
      Utf8.encode (Xml.documentText (.declaration :: rest)) = 0x3C :: bytes := ⟨_, rfl⟩
  have hchunks : Xml.withoutMark (chunks (0x3C :: bytes)) = chunks (0x3C :: bytes) := by
    rw [chunks]
    exact withoutMark_of_head (by decide)
  have hevents (starts : List Nat) :
      Xml.eventsFrom true starts [] (Utf8.decode (0x3C :: bytes)) =
        (Markup.declaration :: rest).flatMap Markup.events ++ Xml.eventsFrom true starts [] [] := by
    rw [← hbytes, Utf8.decode_encode, ← List.append_nil (Glyph.ofText _)]
    exact Xml.eventsFrom_document h hnest []
  have hend (starts : List Nat) : Xml.eventsFrom true starts [] [] = [] := by
    rw [Xml.eventsFrom]
    rfl
  simp only [Xml.events, hbytes, hchunks, flatten_chunks]
  rw [hevents, hend, List.append_nil]

end SheetGloss.Package
