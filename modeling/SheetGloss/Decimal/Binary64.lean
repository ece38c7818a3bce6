import SheetGloss.Decimal.Numeral

/-!
# Binary floating-point numbers of 64 bits

A finite number is a natural number below `2 ^ 53` times a power of two that is at least `-1074`.
Numerals are read as the nearest such number; of two equally near ones the one with the even
mantissa is taken. The arithmetic is exact.
-/

namespace SheetGloss

/-- A floating-point number. -/
inductive Binary64 where
  | nan
  /-- Beyond the greatest finite number. -/
  | infinite (negative : Bool)
  /-- The number `mantissa * 2 ^ exponent`, with a sign. -/
  | finite (negative : Bool) (mantissa : Nat) (exponent : Int)
  deriving DecidableEq, Repr

namespace Binary64

/-- The nearest natural number to a quotient; of two equally near ones the even one. -/
def roundDiv (num den : Nat) : Nat :=
  let quotient := num / den
  let twice := 2 * (num % den)
  if twice < den || (twice == den && quotient % 2 == 0) then quotient else quotient + 1

/-- The greatest `e` with `2 ^ e ≤ num / den`, for positive `num` and `den`. -/
def floorLog2 (num den : Nat) : Int :=
  let guess : Int := (num.log2 : Int) - den.log2
  if den * Nat.pow 2 guess.toNat ≤ num * Nat.pow 2 (-guess).toNat then guess else guess - 1

/-- The floating-point number nearest to `num / den`. -/
def ofRatio (negative : Bool) (num den : Nat) : Binary64 :=
  if num = 0 then finite negative 0 (-1074)
  else
    let exponent := max (floorLog2 num den - 52) (-1074)
    let mantissa :=
      roundDiv (num * Nat.pow 2 (-exponent).toNat) (den * Nat.pow 2 exponent.toNat)
    let (mantissa, exponent) :=
      if mantissa = Nat.pow 2 53 then (Nat.pow 2 52, exponent + 1) else (mantissa, exponent)
    if 971 < exponent then infinite negative else finite negative mantissa exponent

/-- The floating-point number nearest to a numeral. A magnitude that is certain to be too great or
to vanish is not computed. -/
def ofNumeral (n : Numeral) : Binary64 :=
  let magnitude := (Text.ofNat n.coefficient).length + n.exponent
  if n.coefficient = 0 then finite n.negative 0 (-1074)
  else if 310 < magnitude then infinite n.negative
  else if magnitude < -330 then finite n.negative 0 (-1074)
  else
    ofRatio n.negative (n.coefficient * Nat.pow 10 n.exponent.toNat)
      (Nat.pow 10 (-n.exponent).toNat)

/-- Reads a numeral, or one of the words `inf`, `infinity` and `nan` in any case. -/
def parse? (s : Text) : Option Binary64 :=
  let (negative, word) := Numeral.sign s
  let word := Text.lower word
  if word = Text.lit "inf" || word = Text.lit "infinity" then some (infinite negative)
  else if word = Text.lit "nan" then some nan
  else (Numeral.parse? s).map ofNumeral

/-- The natural number equal to `mantissa * 2 ^ exponent`, if there is one. -/
def whole? (mantissa : Nat) (exponent : Int) : Option Nat :=
  if mantissa % Nat.pow 2 (-exponent).toNat = 0 then
    some (mantissa / Nat.pow 2 (-exponent).toNat * Nat.pow 2 exponent.toNat)
  else none

end Binary64

end SheetGloss
