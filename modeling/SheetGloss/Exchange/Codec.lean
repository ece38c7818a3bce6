import SheetGloss.Exchange.Request
import SheetGloss.Json.Reader
import SheetGloss.Json.Printer

/-!
# The JSON form of what is exchanged

Each type has a writer `toJson` and a reader `ofJson?`. A record is written as an object and read
from an object or from an array of its fields in order.
-/

namespace SheetGloss

/-- An address as an object of its row, its column and what is fixed. -/
def Address.toJson (a : Address) : Json :=
  .record [("row", .ofNat a.row.toNat), ("col", .ofNat a.column.toNat),
    ("row_absolute", .boolean a.rowFixed), ("col_absolute", .boolean a.columnFixed)]

/-- Reads an address; the indices are only bounded by their width. -/
def Address.ofJson? (json : Json) : Option Address := do
  match ← json.fields? ["row", "col", "row_absolute", "col_absolute"] with
  | [some row, some column, some rowFixed, some columnFixed] =>
    return ⟨UInt32.ofNat (← row.natBelow? UInt32.size),
      UInt16.ofNat (← column.natBelow? UInt16.size), ← rowFixed.boolean?, ← columnFixed.boolean?⟩
  | _ => none

/-- A span as an object of its first and last column. -/
def ColumnSpan.toJson (span : ColumnSpan) : Json :=
  .record [("start", .ofNat span.first.toNat), ("end", .ofNat span.last.toNat)]

/-- Reads a span; the order of its ends is not asked. -/
def ColumnSpan.ofJson? (json : Json) : Option ColumnSpan := do
  match ← json.fields? ["start", "end"] with
  | [some first, some last] =>
    return ⟨UInt16.ofNat (← first.natBelow? UInt16.size),
      UInt16.ofNat (← last.natBelow? UInt16.size)⟩
  | _ => none

/-- A formula as an object of its cell and its expression. -/
def CellFormula.toJson (f : CellFormula) : Json :=
  .record [("cell", f.cell.toJson), ("expression", .ofText f.expression)]

/-- Reads a formula. -/
def CellFormula.ofJson? (json : Json) : Option CellFormula := do
  match ← json.fields? ["cell", "expression"] with
  | [some cell, some expression] => return ⟨← Address.ofJson? cell, ← expression.text?⟩
  | _ => none

/-- A header row as the array of its labels. -/
def HeaderRow.toJson (headers : HeaderRow) : Json := .array (headers.toList.map .ofText)

/-- Reads a header row. -/
def HeaderRow.ofJson? (json : Json) : Option HeaderRow :=
  (json.list? Json.text?).map HeaderRow.ofList

/-- An explanation as an object of its header and its gloss. -/
def Explanation.toJson (e : Explanation) : Json :=
  .record [("header", .ofText e.header), ("formula", .ofText e.gloss)]

/-- Reads an explanation. -/
def Explanation.ofJson? (json : Json) : Option Explanation := do
  match ← json.fields? ["header", "formula"] with
  | [some header, some gloss] => return ⟨← header.text?, ← gloss.text?⟩
  | _ => none

/-- Explanations as an array. -/
def Explanation.listToJson (rows : List Explanation) : Json := .array (rows.map toJson)

/-- Reads an array of explanations. -/
def Explanation.listOfJson? (json : Json) : Option (List Explanation) := json.list? ofJson?

/-- A request as an object of its formulas and its headers. -/
def Request.toJson (request : Request) : Json :=
  .record [("formulas", .array (request.formulas.map .ofText)),
    ("headers", .array (request.headers.map .ofText))]

/-- A list of texts, empty when the field is not there. -/
def textsOrNone? : Option Json → Option (List Text)
  | some json => json.list? Json.text?
  | none => some []

/-- Reads a request; a missing field is an empty list. -/
def Request.ofJson? (json : Json) : Option Request := do
  match ← json.fields? ["formulas", "headers"] with
  | [formulas, headers] => return ⟨← textsOrNone? formulas, ← textsOrNone? headers⟩
  | _ => none

/-- An answer as an object of its explanations. -/
def Answer.toJson (answer : Answer) : Json :=
  .record [("formulas", Explanation.listToJson answer.rows)]

/-- Reads an answer. -/
def Answer.ofJson? (json : Json) : Option Answer := do
  match ← json.fields? ["formulas"] with
  | [some rows] => return ⟨← Explanation.listOfJson? rows⟩
  | _ => none

end SheetGloss
