import SheetGloss.Decimal.Display
import SheetGloss.Formula.Fill
import SheetGloss.Package.Escape
import SheetGloss.Package.Fault
import SheetGloss.Sheet.Basic
import SheetGloss.Text.Blank
import SheetGloss.Xml.Event
import Std.Data.HashMap

/-!
# The cells of a sheet's part

Between the start and the end of a cell its type, its value and its formula are collected; at its
end they are stored. A formula can be shared: the first cell of its group carries the text, the
others name the group and get the text with its references moved.
-/

namespace SheetGloss.Package

open Xml (Event Tag)

/-- What is known of a cell before its end. -/
structure PendingCell where
  /-- The address, as it is written. -/
  reference : Option Text
  /-- The type, which tells how to read the value. -/
  type : Option Text
  /-- The value, as it is written. -/
  value : Option Text
  formula : Option Text
  /-- The group whose formula the cell shares. -/
  group : Option Text
  deriving DecidableEq, Repr

/-- The first cell of a group of shared formulas, and its formula. -/
structure Anchor where
  cell : Address
  formula : Text
  deriving DecidableEq, Repr

/-- A sheet under construction, with the groups that have an anchor. -/
structure Build where
  sheet : Sheet
  /-- The latest anchor of each group. -/
  anchors : Std.HashMap Text Anchor

/-- The group that a formula's tag names, if its formula is shared. -/
def sharedGroup? (tag : Tag) : Option Text :=
  if tag.attribute? "t" = some (Text.lit "shared") then tag.attribute? "si" else none

/-- A cell at its start. -/
def PendingCell.ofTag (tag : Tag) : PendingCell :=
  ⟨tag.attribute? "r", tag.attribute? "t", none, none, none⟩

/-- Text added to one that may not have begun. -/
def extend (before : Option Text) (s : Text) : Option Text := some (before.getD [] ++ s)

/-- The displayed text of a value of some type. -/
def valueText (strings : Array Text) (type : Option Text) (value : Text) :
    Except ReadError Text :=
  match type with
  | none => .ok (displayNumber value)
  | some type =>
    if type = Text.lit "s" then
      match Text.index? (Text.trim value) with
      | none => .error (.stringIndex value)
      | some index =>
        match strings[index]? with
        | some s => .ok s
        | none => .error (.stringBeyond index)
    else if type = Text.lit "b" then
      .ok (if value = Text.lit "1" || Text.lower value = Text.lit "true" then Text.lit "TRUE"
        else Text.lit "FALSE")
    else if type = Text.lit "inlineStr" || type = Text.lit "str" then .ok (decodeEscapes value)
    else if type = Text.lit "n" then .ok (displayNumber value)
    else .ok value

/-- The formula of a cell at an address, and the anchors afterwards. -/
def formulaOf (anchors : Std.HashMap Text Anchor) (address : Address) (cell : PendingCell) :
    Option Text × Std.HashMap Text Anchor :=
  match cell.formula, cell.group with
  | some formula, some group => (some formula, anchors.insert group ⟨address, formula⟩)
  | some formula, none => (some formula, anchors)
  | none, some group =>
    (anchors[group]?.map fun anchor =>
      Formula.fill anchor.formula ((address.row.toNat : Int) - anchor.cell.row.toNat)
        ((address.column.toNat : Int) - anchor.cell.column.toNat), anchors)
  | none, none => (none, anchors)

/-- A refusal of a sheet, as a refusal of the file. -/
def onSheet {α : Type} : Except SheetError α → Except ReadError α
  | .ok value => .ok value
  | .error error => .error (.sheet error)

/-- Stores the value of a cell, if it has one. -/
def storeValue (strings : Array Text) (sheet : Sheet) (address : Address) (cell : PendingCell) :
    Except ReadError Sheet :=
  match cell.value with
  | none => .ok sheet
  | some value => do
    let text ← valueText strings cell.type value
    onSheet (sheet.setValueAt address.row address.column text)

/-- Stores a formula, if there is one. -/
def storeFormula (sheet : Sheet) (address : Address) (formula : Option Text) :
    Except ReadError Sheet :=
  match formula with
  | none => .ok sheet
  | some formula => onSheet (sheet.setFormulaAt address.row address.column formula)

/-- Stores a complete cell. A cell without a reference is passed over. -/
def Build.store (strings : Array Text) (build : Build) (cell : PendingCell) :
    Except ReadError Build :=
  match cell.reference with
  | none => .ok build
  | some reference =>
    match Address.parse reference with
    | .error error => .error (.cellReference reference error)
    | .ok address => do
      let sheet ← storeValue strings build.sheet address cell
      let (formula, anchors) := formulaOf build.anchors address cell
      return ⟨← storeFormula sheet address formula, anchors⟩

/-- The sheet so far, and where in its part the next event stands. -/
structure CellReader where
  build : Build
  /-- The cell that is open. -/
  cell : Option PendingCell
  inValue : Bool
  inFormula : Bool
  inInline : Bool
  inInlineText : Bool

namespace CellReader

/-- The reader before the first event. -/
def start (name : Text) : CellReader := ⟨⟨Sheet.empty name, ∅⟩, none, false, false, false, false⟩

/-- The reader after the start of an element. -/
def opened (reader : CellReader) (tag : Tag) : CellReader :=
  if tag.is "c" then { reader with cell := some (.ofTag tag) }
  else if tag.is "v" then { reader with inValue := reader.inValue || reader.cell.isSome }
  else if tag.is "f" then
    match reader.cell with
    | some cell =>
      { reader with cell := some { cell with group := sharedGroup? tag }, inFormula := true }
    | none => reader
  else if tag.is "is" then { reader with inInline := reader.inInline || reader.cell.isSome }
  else if tag.is "t" then { reader with inInlineText := reader.inInlineText || reader.inInline }
  else reader

/-- The reader after an empty element: an empty cell holds nothing, and an empty formula can only
name its group. -/
def passed (reader : CellReader) (tag : Tag) : CellReader :=
  if tag.is "c" then { reader with cell := none }
  else if tag.is "f" then
    { reader with cell := reader.cell.map fun cell => { cell with group := sharedGroup? tag } }
  else reader

/-- The reader after the end of an element. -/
def closed (strings : Array Text) (reader : CellReader) (name : Text) :
    Except ReadError CellReader :=
  if name = Text.lit "c" then
    match reader.cell with
    | some cell => do
      let build ← reader.build.store strings cell
      return { reader with build, cell := none }
    | none => .ok reader
  else .ok <|
    if name = Text.lit "v" then { reader with inValue := false }
    else if name = Text.lit "f" then { reader with inFormula := false }
    else if name = Text.lit "is" then { reader with inInline := false }
    else if name = Text.lit "t" then { reader with inInlineText := false }
    else reader

/-- A cell after text inside it. -/
def addText (reader : CellReader) (cell : PendingCell) (s : Text) : PendingCell :=
  if reader.inValue then { cell with value := extend cell.value s }
  else if reader.inFormula then { cell with formula := extend cell.formula s }
  else if reader.inInlineText then
    { cell with value := extend cell.value s, type := some (Text.lit "inlineStr") }
  else cell

/-- The reader after text. It must be readable only where it is used. -/
def met (reader : CellReader) (content : Option Text) : Except ReadError CellReader :=
  match reader.cell with
  | none => .ok reader
  | some cell =>
    if reader.inValue || reader.inFormula || reader.inInlineText then
      match content with
      | some s => .ok { reader with cell := some (reader.addText cell s) }
      | none => .error .markup
    else .ok reader

/-- The reader after one event. -/
def step (strings : Array Text) (reader : CellReader) : Event → Except ReadError CellReader
  | .opening tag => .ok (reader.opened tag)
  | .single tag => .ok (reader.passed tag)
  | .closing name => reader.closed strings name
  | .text content => reader.met content
  | .aside => .ok reader
  | .fault => .error .markup

end CellReader

/-- The sheet in the events of its part. -/
def readCells (strings : Array Text) (name : Text) (events : List Event) :
    Except ReadError Sheet := do
  let reader ← events.foldlM (CellReader.step strings) (CellReader.start name)
  return reader.build.sheet

end SheetGloss.Package
