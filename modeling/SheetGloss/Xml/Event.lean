import SheetGloss.Text.Basic

/-!
# XML events

What a reader of a part meets, in order. The events are those of a document that has not been
checked as a whole: elements may still be open at the end.
-/

namespace SheetGloss.Xml

/-- The name and the attributes of an element. Each attribute has the value it stands for, nothing
when its value cannot be read. Attributes that are not well formed are left out. -/
structure Tag where
  /-- The name, with its prefix. -/
  name : Text
  attributes : List (Text × Option Text)
  deriving DecidableEq, Repr

/-- Whether a tag has a name. -/
def Tag.is (tag : Tag) (name : String) : Bool := tag.name == name.toList

/-- The value of an attribute, nothing when it is missing or cannot be read. -/
def Tag.attribute? (tag : Tag) (key : String) : Option Text :=
  (tag.attributes.find? fun entry => entry.1 == key.toList).bind (·.2)

/-- A step through a document. -/
inductive Event where
  | opening (tag : Tag)
  /-- An element that is empty by its tag. -/
  | single (tag : Tag)
  /-- The end of the innermost open element. -/
  | closing (name : Text)
  /-- Text between tags, nothing when it cannot be read. -/
  | text (content : Option Text)
  /-- A comment, a literal section, a declaration or an instruction. -/
  | aside
  /-- The document breaks off: it is not well formed here, or its source ends in an error. -/
  | fault
  deriving DecidableEq, Repr

end SheetGloss.Xml
