import SheetGloss.Package.Fault
import SheetGloss.Xml.Event

/-!
# The sheets a workbook lists, and their parts

The workbook part lists the sheets by name and relationship; the relationships tell the part of
each.
-/

namespace SheetGloss.Package

open Xml (Event Tag)

/-- A sheet as the workbook part lists it. -/
structure SheetEntry where
  name : Text
  relation : Text
  deriving DecidableEq, Repr

/-- The tag of an event that starts an element, empty or not. -/
def startedTag? : Event → Option Tag
  | .opening tag => some tag
  | .single tag => some tag
  | _ => none

/-- The sheet that a tag lists, if it names one and its relationship. -/
def SheetEntry.ofTag? (tag : Tag) : Option SheetEntry := do
  if !tag.is "sheet" then none
  let name ← tag.attribute? "name"
  let relation ← tag.attribute? "r:id"
  return ⟨name, relation⟩

/-- A relationship of the workbook to the part of a sheet. -/
structure Relation where
  id : Text
  path : Text
  deriving DecidableEq, Repr

/-- The path that a target means: from the top after a slash, else from the workbook's folder. -/
def targetPath : Text → Text
  | '/' :: path => path
  | target => Text.lit "xl/" ++ target

/-- The relationship of a tag, if it leads to a sheet. -/
def Relation.ofTag? (tag : Tag) : Option Relation := do
  if !tag.is "Relationship" then none
  let id ← tag.attribute? "Id"
  let target ← tag.attribute? "Target"
  let type ← tag.attribute? "Type"
  if !Text.endsIn (Text.lit "/worksheet") type then none
  return ⟨id, targetPath target⟩

/-- What the started tags stand for, in order, in a part that is well formed. -/
def collect {α : Type} (ofTag? : Tag → Option α) (events : List Event) :
    Except ReadError (List α) :=
  if events.contains .fault then .error .markup
  else .ok (events.filterMap fun event => (startedTag? event).bind ofTag?)

/-- The path of the last relationship with an identifier. -/
def pathOf? (relations : List Relation) (id : Text) : Option Text :=
  (relations.reverse.find? (·.id == id)).map (·.path)

end SheetGloss.Package
