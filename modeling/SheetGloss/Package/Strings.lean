import SheetGloss.Package.Escape
import SheetGloss.Package.Fault
import SheetGloss.Xml.Event

/-!
# The table of shared strings

Each item of the table is a string, made of the texts in it that are no phonetic hints.
-/

namespace SheetGloss.Package

open Xml (Event)

/-- The strings so far, and where in the table the next event stands. -/
structure StringTable where
  strings : Array Text
  /-- The text of the current item, before escapes are decoded. -/
  current : Text
  inItem : Bool
  inText : Bool
  inPhonetic : Bool
  deriving DecidableEq, Repr

namespace StringTable

/-- An empty table, before its first event. -/
def start : StringTable := ⟨#[], [], false, false, false⟩

/-- The table after one event. -/
def step (table : StringTable) : Event → Except ReadError StringTable
  | .opening tag =>
    .ok <|
      if tag.is "si" then { table with inItem := true, current := [] }
      else if tag.is "rPh" then { table with inPhonetic := true }
      else if tag.is "t" && table.inItem && !table.inPhonetic then { table with inText := true }
      else table
  | .single tag =>
    .ok (if tag.is "si" then { table with strings := table.strings.push [] } else table)
  | .closing name =>
    .ok <|
      if name = Text.lit "si" then
        { table with
          strings := table.strings.push (decodeEscapes table.current)
          current := []
          inItem := false }
      else if name = Text.lit "rPh" then { table with inPhonetic := false }
      else if name = Text.lit "t" then { table with inText := false }
      else table
  | .text content =>
    if table.inText then
      match content with
      | some s => .ok { table with current := table.current ++ s }
      | none => .error .markup
    else .ok table
  | .aside => .ok table
  | .fault => .error .markup

end StringTable

/-- The shared strings, from the events of their part. -/
def sharedStrings (events : List Event) : Except ReadError (Array Text) := do
  let table ← events.foldlM StringTable.step StringTable.start
  return table.strings

end SheetGloss.Package
