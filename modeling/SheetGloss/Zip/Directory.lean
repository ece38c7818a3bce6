import SheetGloss.Zip.CodePage
import SheetGloss.Zip.Extra

/-!
# The directory of an archive

The directory stands behind the parts, and a record at its end tells where it begins. Bytes in front
of the archive move all of it, so places are counted from where the archive begins in the file. A
directory with great numbers has a second record, to which a pointer in front of the first leads.
-/

namespace SheetGloss.Zip

/-- Where a directory is, and what it says of itself. -/
structure Directory where
  /-- Where the archive begins in the file. -/
  base : Nat
  /-- Where the first entry is, from the beginning of the archive. -/
  offset : Nat
  count : Nat
  disk : Nat
  /-- The disk on which the directory begins. -/
  firstDisk : Nat
  deriving DecidableEq, Repr

/-- The place of the first entry in the file. -/
def Directory.start (directory : Directory) : Nat := directory.base + directory.offset

/-- The first place with a mark, among `count` places from one on. -/
def findMark? (data : ByteArray) (mark place : Nat) : Nat → Option Nat
  | 0 => none
  | count + 1 =>
    if word? 4 data place = some mark then some place else findMark? data mark (place + 1) count

/-- The record at the end of a directory. -/
structure EndRecord where
  disk : Nat
  firstDisk : Nat
  /-- The number of entries on the disk. -/
  count : Nat
  /-- The number of entries on all disks. -/
  total : Nat
  offset : Nat
  deriving DecidableEq, Repr

/-- The record at a place, if there is one and its comment fits into the file. -/
def EndRecord.at? (data : ByteArray) (place : Nat) : Option EndRecord := do
  if (← word? 4 data place) ≠ endMark then none
  let disk ← word? 2 data (place + 4)
  let firstDisk ← word? 2 data (place + 6)
  let count ← word? 2 data (place + 8)
  let total ← word? 2 data (place + 10)
  let offset ← word? 4 data (place + 16)
  let comment ← word? 2 data (place + 20)
  if data.size < place + 22 + comment then none
  return ⟨disk, firstDisk, count, total, offset⟩

/-- The directory that ends in a record at a place. Its entries must stand in front of the record;
the first of them shows where the archive begins. -/
def EndRecord.directory? (data : ByteArray) (place : Nat) (record : EndRecord) :
    Option Directory := do
  let found (base : Nat) : Directory :=
    ⟨base, record.offset, record.count, record.disk, record.firstDisk⟩
  if record.total = 0 then return found (place - record.offset)
  let first ← findMark? data entryMark record.offset (place - record.offset)
  return found (first - record.offset)

/-- The pointer to a record with great numbers. -/
structure WideEndPointer where
  /-- The disk on which the directory begins. -/
  firstDisk : Nat
  /-- Where the record is, from the beginning of the archive. -/
  offset : Nat
  /-- The number of disks. -/
  disks : Nat
  deriving DecidableEq, Repr

/-- The pointer at a place. -/
def WideEndPointer.at? (data : ByteArray) (place : Nat) : Option WideEndPointer := do
  if (← word? 4 data place) ≠ wideEndPointerMark then none
  return ⟨← word? 4 data (place + 4), ← word? 8 data (place + 8), ← word? 4 data (place + 16)⟩

/-- The record with great numbers at the end of a directory. -/
structure WideEndRecord where
  /-- The number of bytes after the size itself. -/
  size : Nat
  /-- The version of the format that the writer knew. -/
  writer : Nat
  /-- The version of the format that a reader must know. -/
  needed : Nat
  disk : Nat
  firstDisk : Nat
  /-- The number of entries on the disk. -/
  count : Nat
  /-- The number of entries on all disks. -/
  total : Nat
  offset : Nat
  deriving DecidableEq, Repr

namespace WideEndRecord

/-- The record at a place. -/
def at? (data : ByteArray) (place : Nat) : Option WideEndRecord := do
  if (← word? 4 data place) ≠ wideEndMark then none
  return ⟨← word? 8 data (place + 4), ← word? 2 data (place + 12), ← word? 2 data (place + 14),
    ← word? 4 data (place + 16), ← word? 4 data (place + 20), ← word? 8 data (place + 24),
    ← word? 8 data (place + 32), ← word? 8 data (place + 48)⟩

/-- Whether the record at a place reaches up to its pointer and agrees with it, and leaves room for
its entries in front. -/
def fits (record : WideEndRecord) (pointer : WideEndPointer) (pointerPlace place : Nat) : Bool :=
  44 ≤ record.size && place + record.size + 12 = pointerPlace &&
    record.firstDisk = pointer.firstDisk && record.total * 46 + record.offset ≤ place

/-- The first fitting record among `count` places from one on, and its place. -/
def find? (data : ByteArray) (pointer : WideEndPointer) (pointerPlace place : Nat) :
    Nat → Option (WideEndRecord × Nat)
  | 0 => none
  | count + 1 =>
    match (at? data place).filter (·.fits pointer pointerPlace place) with
    | some record => some (record, place)
    | none => find? data pointer pointerPlace (place + 1) count

end WideEndRecord

/-- The directory that a pointer at a place leads to. -/
def WideEndPointer.directory? (data : ByteArray) (place : Nat) (pointer : WideEndPointer) :
    Option Directory := do
  if 1 < pointer.disks then none
  let (record, found) ←
    WideEndRecord.find? data pointer place pointer.offset (place - pointer.offset)
  if record.total < record.count || record.writer < record.needed then none
  return ⟨found - pointer.offset, record.offset, record.total, record.disk, record.firstDisk⟩

/-- The directory whose end is at a place. The pointer to great numbers counts only where the record
has a number that is too great for it. -/
def directoryAt? (data : ByteArray) (place : Nat) : Option Directory := do
  let record ← EndRecord.at? data place
  let pointer? :=
    if 20 ≤ place && (record.total = 0xFFFF || record.offset = 0xFFFFFFFF) then
      WideEndPointer.at? data (place - 20)
    else none
  match pointer? with
  | none => record.directory? data place
  | some pointer => pointer.directory? data (place - 20)

/-- A text of the directory, which is UTF-8 or in the code page. -/
def headerText (isUtf8 : Bool) (bytes : Bytes) : Text :=
  if isUtf8 then Utf8.repair bytes else codePageText bytes

/-- The header at a place, and the place after it. A part begins before the directory. -/
def headerAt? (data : ByteArray) (directory : Directory) (place : Nat) : Option (Header × Nat) := do
  if (← word? 4 data place) ≠ entryMark then none
  let flags ← word? 2 data (place + 8)
  let method ← word? 2 data (place + 10)
  let check ← word? 4 data (place + 16)
  let storedSize ← word? 4 data (place + 20)
  let fullSize ← word? 4 data (place + 24)
  let nameLength ← word? 2 data (place + 28)
  let extraLength ← word? 2 data (place + 30)
  let commentLength ← word? 2 data (place + 32)
  let offset ← word? 4 data (place + 42)
  let rawName ← bytes? nameLength data (place + 46)
  let extra ← bytes? extraLength data (place + 46 + nameLength)
  let comment ← bytes? commentLength data (place + 46 + nameLength + extraLength)
  let isUtf8 := flags.testBit 11
  let header : Header :=
    ⟨rawName, headerText isUtf8 rawName, headerText isUtf8 comment, method, flags.testBit 0, false,
      check, storedSize, fullSize, offset⟩
  let header ← header.extend? extra
  let header := { header with place := directory.base + header.place }
  if directory.start ≤ header.place then none
  return (header, place + 46 + nameLength + extraLength + commentLength)

/-- A number of headers from a place on. -/
def headersFrom? (data : ByteArray) (directory : Directory) : Nat → Nat → Option (List Header)
  | 0, _ => some []
  | count + 1, place => do
    let (header, next) ← headerAt? data directory place
    let headers ← headersFrom? data directory count next
    return header :: headers

/-- The headers of a directory, all of which must be on one disk. -/
def Directory.headers? (data : ByteArray) (directory : Directory) : Option (List Header) :=
  if directory.disk ≠ directory.firstDisk then none
  else headersFrom? data directory directory.count directory.start

/-- The headers of the last sound directory that ends at or before a place. -/
def headersBefore? (data : ByteArray) (place : Nat) : Option (List Header) :=
  match (directoryAt? data place).bind (·.headers? data) with
  | some headers => some headers
  | none =>
    match place with
    | 0 => none
    | place + 1 => headersBefore? data place

end SheetGloss.Zip
