import SheetGloss.Text.Utf8

/-!
# Cyclic redundancy check

The check of 32 bits that archives store for each part.
-/

namespace SheetGloss.Zip

/-- One bit of division by the check's polynomial, in reflected order. -/
def divideBit (crc : UInt32) : UInt32 :=
  if crc &&& 1 = 1 then (crc >>> 1) ^^^ 0xEDB88320 else crc >>> 1

/-- The running check after one more byte. -/
def crcByte (crc : UInt32) (b : UInt8) : UInt32 :=
  Nat.repeat divideBit 8 (crc ^^^ b.toUInt32)

/-- The check of some bytes. -/
def crc32 (bytes : Bytes) : UInt32 := bytes.foldl crcByte 0xFFFFFFFF ^^^ 0xFFFFFFFF

end SheetGloss.Zip
