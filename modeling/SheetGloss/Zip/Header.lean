import SheetGloss.Text.Utf8

/-!
# Headers

What the directory of an archive tells about a part.
-/

namespace SheetGloss.Zip

/-- What the directory tells about a part. -/
structure Header where
  /-- The name as it is written. -/
  rawName : Bytes
  name : Text
  comment : Text
  /-- How the part is compressed. -/
  method : Nat
  encrypted : Bool
  /-- Whether an extra field describes the encryption. -/
  aes : Bool
  check : Nat
  /-- The number of bytes of the part in the file. -/
  storedSize : Nat
  /-- The number of bytes that the part stands for. -/
  fullSize : Nat
  /-- Where the part begins. -/
  place : Nat
  deriving DecidableEq, Repr

/-- The method of a part whose method is in an extra field. -/
def Header.aesMethod : Nat := 99

/-- Whether the content of a part can be made out: it is not encrypted, and stored or deflated. -/
def Header.isReadable (header : Header) : Bool :=
  !header.encrypted && !header.aes && (header.method = 0 || header.method = 8)

end SheetGloss.Zip
