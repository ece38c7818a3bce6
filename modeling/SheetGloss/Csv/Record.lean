import SheetGloss.Text.Utf8

/-!
# Comma-separated records

Bytes cut into records of fields. A quote is special only as the first byte of a field: what it
encloses may hold delimiters and line ends, and a doubled quote in it stands for one. After the
closing quote the rest of the field is taken as it stands. Lines without a byte are no records.
-/

namespace SheetGloss.Csv

/-- The bytes that structure the records. -/
structure Dialect where
  delimiter : UInt8
  quote : UInt8
  deriving DecidableEq, Repr

/-- The fields of one line. -/
abbrev Record := List Bytes

/-- Where in a record the next byte stands. -/
inductive Place where
  | lineStart
  /-- At the start of a field that is not the first. -/
  | fieldStart
  | plain
  | quoted
  /-- After a quote that closes the field or is the first of two. -/
  | quoteSeen
  deriving DecidableEq, Repr

/-- What a byte does to the record being read. -/
inductive Action where
  | keep
  /-- It only marks. -/
  | drop
  | endField
  /-- It ends the field and the record. -/
  | endRecord
  deriving DecidableEq, Repr

/-- Whether a byte is a line feed or a carriage return. -/
def isLineEnd (b : UInt8) : Bool := b == 0x0A || b == 0x0D

namespace Dialect

/-- A byte of a field, outside quotes. -/
def plainByte (d : Dialect) (b : UInt8) : Place × Action :=
  if b == d.delimiter then (.fieldStart, .endField)
  else if isLineEnd b then (.lineStart, .endRecord)
  else (.plain, .keep)

/-- The first byte of a field. -/
def firstByte (d : Dialect) (b : UInt8) : Place × Action :=
  if b == d.quote then (.quoted, .drop) else d.plainByte b

/-- The place after a byte, and what the byte does. -/
def step (d : Dialect) (place : Place) (b : UInt8) : Place × Action :=
  match place with
  | .lineStart => if isLineEnd b then (.lineStart, .drop) else d.firstByte b
  | .fieldStart => d.firstByte b
  | .plain => d.plainByte b
  | .quoted => if b == d.quote then (.quoteSeen, .drop) else (.quoted, .keep)
  | .quoteSeen => if b == d.quote then (.quoted, .keep) else d.plainByte b

/-- The records of the bytes after a place. The bytes of the field and the fields of the record
read so far come last first. -/
def recordsFrom (d : Dialect) (place : Place) (field : Bytes) (fields : Record) :
    Bytes → List Record
  | [] => if place = .lineStart then [] else [(field.reverse :: fields).reverse]
  | b :: rest =>
    match d.step place b with
    | (next, .keep) => recordsFrom d next (b :: field) fields rest
    | (next, .drop) => recordsFrom d next field fields rest
    | (next, .endField) => recordsFrom d next [] (field.reverse :: fields) rest
    | (next, .endRecord) => (field.reverse :: fields).reverse :: recordsFrom d next [] [] rest

end Dialect

/-- The bytes after a byte order mark, if there is one. -/
def withoutMark : Bytes → Bytes
  | 0xEF :: 0xBB :: 0xBF :: rest => rest
  | bytes => bytes

/-- The records of a file. -/
def records (d : Dialect) (bytes : Bytes) : List Record :=
  d.recordsFrom .lineStart [] [] (withoutMark bytes)

end SheetGloss.Csv
