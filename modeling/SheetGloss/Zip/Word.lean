import SheetGloss.Text.Utf8

/-!
# Numbers in archives

A number is written in a fixed count of bytes, the low one first. The records of an archive begin
with a number that marks their kind.
-/

namespace SheetGloss.Zip

/-- The mark in front of a part. -/
def partMark : Nat := 0x04034B50

/-- The mark of an entry of a directory. -/
def entryMark : Nat := 0x02014B50

/-- The mark of the end of a directory. -/
def endMark : Nat := 0x06054B50

/-- The mark of the end of a directory with numbers of eight bytes. -/
def wideEndMark : Nat := 0x06064B50

/-- The mark in front of the place of such an end. -/
def wideEndPointerMark : Nat := 0x07064B50

/-- The bytes of a number; of one that is too great, those of its remainder. -/
def wordBytes : Nat → Nat → Bytes
  | 0, _ => []
  | width + 1, n => n.toUInt8 :: wordBytes width (n / 256)

/-- The number in some bytes. -/
def ofWordBytes : Bytes → Nat
  | [] => 0
  | b :: rest => b.toNat + 256 * ofWordBytes rest

/-- The number in the bytes from a place on. -/
def word? : Nat → ByteArray → Nat → Option Nat
  | 0, _, _ => some 0
  | width + 1, data, place => do
    let low ← data[place]?
    let high ← word? width data (place + 1)
    return low.toNat + 256 * high

/-- The bytes from a place on. -/
def bytes? (count : Nat) (data : ByteArray) (place : Nat) : Option Bytes :=
  if data.size < place + count then none
  else some (data.extract place (place + count)).data.toList

end SheetGloss.Zip
