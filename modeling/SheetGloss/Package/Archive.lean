import SheetGloss.Text.Utf8

/-!
# Archives of parts

A workbook file is an archive of named parts. A part is read in chunks.
-/

namespace SheetGloss.Package

/-- The most bytes that a chunk has. -/
def chunkSize : Nat := 8192

/-- Bytes in chunks, all but the last of the greatest size. -/
def chunks : Bytes → List Bytes
  | [] => []
  | b :: rest => (b :: rest.take (chunkSize - 1)) :: chunks (rest.drop (chunkSize - 1))
termination_by bytes => bytes.length
decreasing_by
  simp only [List.length_cons, List.length_drop]
  omega

theorem flatten_chunks (bytes : Bytes) : (chunks bytes).flatten = bytes := by
  fun_induction chunks bytes with
  | case1 => rfl
  | case2 b rest ih => simp [ih, List.take_append_drop]

/-- The content of a part. -/
structure Part where
  /-- The bytes that can be read, as they come. -/
  chunks : List Bytes
  /-- Whether reading ends well after them, and not in an error. -/
  whole : Bool
  deriving DecidableEq, Repr

/-- A named part; it has no content when it cannot be opened. -/
structure Entry where
  name : Text
  part : Option Part
  deriving DecidableEq, Repr

/-- The parts of a file, in order. -/
abbrev Archive := List Entry

/-- A part that is in good order. -/
def Entry.sound (name : Text) (bytes : Bytes) : Entry := ⟨name, some ⟨chunks bytes, true⟩⟩

/-- The part with exactly this name; the last one when there are several. -/
def Archive.part? (archive : Archive) (name : Text) : Option Part :=
  (archive.reverse.find? (·.name == name)).bind (·.part)

end SheetGloss.Package
