import SheetGloss.Zip.Directory
import SheetGloss.Zip.Portion

/-!
# Archives in the zip format

The directory at the end of the file lists the parts. A part is stored or deflated; one whose check
does not fit its bytes can be read, but ends in an error.
-/

namespace SheetGloss.Zip

open Package (Archive Part chunks)

/-- Where the content of a part begins, behind what stands in front of it. -/
def contentPlace? (data : ByteArray) (place : Nat) : Option Nat := do
  if (← word? 4 data place) ≠ partMark then none
  let nameLength ← word? 2 data (place + 26)
  let extraLength ← word? 2 data (place + 28)
  return place + 30 + nameLength + extraLength

/-- The content of a part, if it can be opened. -/
def part? (data : ByteArray) (header : Header) : Option Part := do
  if !header.isReadable then none
  let place ← contentPlace? data header.place
  let content := data.extract place (min data.size (place + header.storedSize))
  let (read, whole) :=
    if header.method = 0 then (chunks content.data.toList, true) else inflatedChunks content
  return ⟨read, whole && (crc32 read.flatten).toNat = header.check⟩

/-- The parts of an archive, nothing when the file is none. -/
def read? (data : ByteArray) : Option Archive := do
  if data.size < 22 then none
  let headers ← headersBefore? data (data.size - 22)
  return headers.map fun header => ⟨header.name, part? data header⟩

end SheetGloss.Zip
