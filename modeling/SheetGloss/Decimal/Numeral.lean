import SheetGloss.Text.Digits

/-!
# Decimal numerals

A numeral is an optional sign, digits with an optional point among or around them, and an optional
exponent. Its value is a natural number times a power of ten.
-/

namespace SheetGloss

/-- The value of a numeral: `coefficient * 10 ^ exponent`, with a sign. -/
structure Numeral where
  negative : Bool
  /-- The digits, read without the point. -/
  coefficient : Nat
  /-- The power of ten. -/
  exponent : Int
  deriving DecidableEq, Repr

namespace Numeral

/-- A plus or minus sign, which may be missing: whether it is a minus, and what follows. -/
def sign : Text → Bool × Text
  | '+' :: rest => (false, rest)
  | '-' :: rest => (true, rest)
  | s => (false, s)

/-- The digits before and after the point, and what follows them. -/
def mantissa (s : Text) : Text × Text × Text :=
  let whole := s.takeWhile Char.isDigit
  match s.dropWhile Char.isDigit with
  | '.' :: rest => (whole, rest.takeWhile Char.isDigit, rest.dropWhile Char.isDigit)
  | rest => (whole, [], rest)

/-- The value of digits that are the whole of a text. -/
def wholeDigits? (s : Text) : Option Nat :=
  if s.isEmpty || !s.all Char.isDigit then none else some (Text.decimalValue s)

/-- The exponent at the end of a numeral, zero when there is none. -/
def exponentPart? : Text → Option Int
  | [] => some 0
  | c :: rest =>
    if c == 'e' || c == 'E' then
      let (negative, digits) := sign rest
      (wholeDigits? digits).map fun value => if negative then -(value : Int) else value
    else none

/-- Reads a numeral. There must be a digit before or after the point. -/
def parse? (s : Text) : Option Numeral := do
  let (negative, s) := sign s
  let (whole, fraction, s) := mantissa s
  if whole.isEmpty && fraction.isEmpty then none
  let exponent ← exponentPart? s
  return ⟨negative, Text.decimalValue (whole ++ fraction), exponent - fraction.length⟩

end Numeral

end SheetGloss
