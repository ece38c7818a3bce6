import SheetGloss.Zip.Crc32
import SheetGloss.Zip.Header
import SheetGloss.Zip.Word

/-!
# Extra fields

After the name of a part its header can have extra fields, each with a kind and a length. Some
replace what the header says, some are checked, all others are passed over. When the bytes run out
inside a field, the fields before it count.
-/

namespace SheetGloss.Zip

/-- Why the reading of extra fields stops. -/
inductive ExtraStop where
  /-- The bytes ran out. -/
  | short
  /-- A field is wrong. -/
  | wrong
  deriving DecidableEq, Repr

/-- The header so far, and the bytes of the fields to come. -/
structure ExtraState where
  header : Header
  rest : Bytes

/-- Reading of extra fields. -/
abbrev ExtraReader := ExceptT ExtraStop (StateM ExtraState)

namespace ExtraReader

/-- Reads some bytes. -/
def take (count : Nat) : ExtraReader Bytes := do
  let fields ← get
  if fields.rest.length < count then throw .short
  set { fields with rest := fields.rest.drop count }
  return fields.rest.take count

/-- Reads a number. -/
def word (width : Nat) : ExtraReader Nat := do return ofWordBytes (← take width)

/-- Passes over some bytes. -/
def skip (count : Nat) : ExtraReader Unit := do let _ ← take count

/-- Refuses a field unless a condition holds. -/
def require (condition : Bool) : ExtraReader Unit := if condition then pure () else throw .wrong

/-- The header so far. -/
def header : ExtraReader Header := do return (← get).header

/-- Changes the header. -/
def update (f : Header → Header) : ExtraReader Unit :=
  modify fun fields => { fields with header := f fields.header }

/-- Reads the eight bytes of a number, if the field has all numbers or the header has only the mark
of a great one. Gives the count of bytes that were read. -/
def wideNumber (length narrow : Nat) (replace : Nat → Header → Header) : ExtraReader Nat :=
  if 24 ≤ length || narrow = 0xFFFFFFFF then do
    update (replace (← word 8))
    return 8
  else return 0

/-- Reads sizes and a place that are too great for four bytes. -/
def wideField (length : Nat) : ExtraReader Unit := do
  let full ← wideNumber length (← header).fullSize fun n header => { header with fullSize := n }
  let stored ← wideNumber length (← header).storedSize
    fun n header => { header with storedSize := n }
  let place ← wideNumber length (← header).place fun n header => { header with place := n }
  require (full + stored + place ≤ length)
  skip (length - (full + stored + place))

/-- Reads three times in the units of one file system. -/
def fineTimesField (length : Nat) : ExtraReader Unit := do
  require (length = 32)
  skip 4
  require ((← word 2) = 1)
  require ((← word 2) = 24)
  skip 24

/-- Reads the times whose flags are set; there are three flags. A field of five bytes has one time,
whatever its flags are. -/
def timesField (length : Nat) : ExtraReader Unit := do
  let flags ← word 1
  require (flags < 8)
  require (length = 5 || length = 1 + 4 * (List.range 3).countP flags.testBit)
  if flags.testBit 0 || length = 5 then skip 4
  if flags.testBit 1 && 5 < length then skip 4
  if flags.testBit 2 && 5 < length then skip 4

/-- Reads how a part is encrypted, and with what method it was compressed before. -/
def aesField (length : Nat) : ExtraReader Unit := do
  require (length = 7)
  let version ← word 2
  let vendor ← word 2
  let strength ← word 1
  let method ← word 2
  require (vendor = 0x4541)
  require (version = 1 || version = 2)
  require (1 ≤ strength && strength ≤ 3)
  update fun header => { header with method, aes := true }

/-- Reads a text in UTF-8 that stands for a text of the header; it carries the check of that. -/
def unicodeField (length : Nat) (replaced : Bytes) : ExtraReader (Bytes × Text) := do
  skip 1
  let check ← word 4
  require (5 ≤ length)
  let content ← take (length - 5)
  require (check = (crc32 replaced).toNat)
  match Utf8.text? content with
  | some s => return (content, s)
  | none => throw .wrong

/-- Reads the rest of a field of some kind. -/
def field (kind length : Nat) : ExtraReader Unit := do
  if kind = 0x0001 then wideField length
  else if kind = 0x000A then fineTimesField length
  else if kind = 0x5455 then timesField length
  else if kind = 0x9901 then aesField length
  else if kind = 0x6375 then
    let (_, comment) ← unicodeField length (Utf8.encode (← header).comment)
    update fun header => { header with comment }
  else if kind = 0x7075 then
    let (rawName, name) ← unicodeField length (← header).rawName
    update fun header => { header with rawName, name }
  else skip length

/-- Reads fields to the end. Each has at least four bytes, so `fuel` counts bytes. -/
def fields : Nat → ExtraReader Unit
  | 0 => return
  | fuel + 1 => do
    if (← get).rest.isEmpty then return
    field (← word 2) (← word 2)
    fields fuel

end ExtraReader

/-- The header with its extra fields read, nothing when one of them is wrong. A part with the method
that leaves its compression to an extra field must have that field. -/
def Header.extend? (header : Header) (extra : Bytes) : Option Header :=
  match (ExtraReader.fields extra.length).run.run ⟨header, extra⟩ with
  | (.error .wrong, _) => none
  | (_, fields) =>
    if fields.header.method = Header.aesMethod && !fields.header.aes then none
    else some fields.header

end SheetGloss.Zip
