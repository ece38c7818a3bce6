import SheetGloss.Package.Archive
import SheetGloss.Zip.Crc32
import SheetGloss.Zip.Word

/-!
# Writing archives

Archives in the zip format whose parts are stored as they are.
-/

namespace SheetGloss.Zip

/-- Numbers one after another, each given with the count of its bytes. -/
def wordsBytes (words : List (Nat × Nat)) : Bytes :=
  words.flatMap fun (width, n) => wordBytes width n

/-- What the front of a part and its directory entry have in common: version, flags (names are
UTF-8), method, time, check, sizes and the length of the name. -/
def description (name content : Bytes) : Bytes :=
  wordsBytes [(2, 20), (2, 0x0800), (2, 0), (4, 0), (4, (crc32 content).toNat),
    (4, content.length), (4, content.length), (2, name.length), (2, 0)]

/-- A part with what stands in front of it. -/
def storedPart (name content : Bytes) : Bytes :=
  wordBytes 4 partMark ++ description name content ++ name ++ content

/-- The directory entry of a part that begins at a place. -/
def storedEntry (place : Nat) (name content : Bytes) : Bytes :=
  wordsBytes [(4, entryMark), (2, 20)] ++ description name content ++
    wordsBytes [(2, 0), (2, 0), (2, 0), (4, 0), (4, place)] ++ name

/-- The directory entries of parts, the first of which begins at a place. -/
def storedEntries (place : Nat) : List (Bytes × Bytes) → Bytes
  | [] => []
  | (name, content) :: rest =>
    storedEntry place name content ++
      storedEntries (place + (storedPart name content).length) rest

/-- The archive of some named parts, in order. -/
def store (parts : List (Text × Bytes)) : Bytes :=
  let parts := parts.map fun (name, content) => (Utf8.encode name, content)
  let front := parts.flatMap fun (name, content) => storedPart name content
  let directory := storedEntries 0 parts
  front ++ directory ++ wordsBytes [(4, endMark), (2, 0), (2, 0), (2, parts.length),
    (2, parts.length), (4, directory.length), (4, front.length), (2, 0)]

end SheetGloss.Zip
