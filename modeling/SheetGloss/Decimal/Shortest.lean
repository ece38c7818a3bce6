import SheetGloss.Decimal.Binary64

/-!
# Shortest decimal text

The text of a floating-point number has the fewest digits that read back as the number, and among
those the nearest. It never uses an exponent.
-/

namespace SheetGloss.Binary64

/-- A decimal `digits * 10 ^ place`. -/
structure Decimal where
  /-- The digits as one number. -/
  digits : Nat
  /-- The place of the last digit. -/
  place : Int
  deriving DecidableEq, Repr

/-- The reals that read as a positive number: from `low` to `high`, in the unit `num / den`; the
number itself is `mid`. The ends belong to it when `closed` holds. -/
structure Basin where
  low : Nat
  mid : Nat
  high : Nat
  /-- Numerator of the unit. -/
  num : Nat
  /-- Denominator of the unit. -/
  den : Nat
  /-- Whether the ends belong to it. -/
  closed : Bool

/-- The basin of `mantissa * 2 ^ exponent`, in quarters of the last place. Below a power of two the
neighbour is half as far. -/
def basin (mantissa : Nat) (exponent : Int) : Basin :=
  let low :=
    if mantissa = Nat.pow 2 52 && -1074 < exponent then 4 * mantissa - 1 else 4 * mantissa - 2
  ⟨low, 4 * mantissa, 4 * mantissa + 2, Nat.pow 2 (exponent - 2).toNat,
    Nat.pow 2 (2 - exponent).toNat, mantissa % 2 == 0⟩

namespace Basin

/-- Whether `digits * 10 ^ place` lies in a basin. -/
def holds (b : Basin) (d : Decimal) : Bool :=
  let value := d.digits * Nat.pow 10 d.place.toNat * b.den
  let unit := Nat.pow 10 (-d.place).toNat * b.num
  if b.closed then b.low * unit ≤ value && value ≤ b.high * unit
  else b.low * unit < value && value < b.high * unit

/-- The distance from the number, in a unit that depends on the place alone. -/
def distance (b : Basin) (d : Decimal) : Nat :=
  let value := d.digits * Nat.pow 10 d.place.toNat * b.den
  let number := b.mid * (Nat.pow 10 (-d.place).toNat * b.num)
  (value - number) + (number - value)

/-- The nearest decimal of a place, if it lies in the basin; of two equally near the greater. -/
def atPlace? (b : Basin) (place : Int) : Option Decimal :=
  let below := b.mid * (Nat.pow 10 (-place).toNat * b.num) / (Nat.pow 10 place.toNat * b.den)
  let lower : Decimal := ⟨below, place⟩
  let upper : Decimal := ⟨below + 1, place⟩
  match b.holds lower, b.holds upper with
  | true, true => some (if b.distance lower < b.distance upper then lower else upper)
  | true, false => some lower
  | false, true => some upper
  | false, false => none

/-- A place at which one decimal is greater than the number. -/
def topPlace (b : Basin) : Int :=
  ((Text.ofNat (b.mid * b.num)).length : Int) - (Text.ofNat b.den).length + 1

/-- The decimal of a basin with the fewest digits. Twenty places below the top always hold one. -/
def shortest (b : Basin) : Decimal :=
  ((List.range 24).findSome? fun step : Nat => b.atPlace? (b.topPlace - step)).getD ⟨0, 0⟩

end Basin

/-- A decimal without an exponent. -/
def Decimal.toText (d : Decimal) : Text :=
  let digits := Text.ofNat d.digits
  if 0 ≤ d.place then digits ++ List.replicate d.place.toNat '0'
  else
    let places := (-d.place).toNat
    let padded := List.replicate (places + 1 - digits.length) '0' ++ digits
    padded.take (padded.length - places) ++ '.' :: padded.drop (padded.length - places)

/-- The text of a floating-point number: the fewest digits that read back as it. -/
def toText : Binary64 → Text
  | nan => Text.lit "NaN"
  | infinite negative => (if negative then ['-'] else []) ++ Text.lit "inf"
  | finite negative mantissa exponent =>
    (if negative then ['-'] else []) ++
      (if mantissa = 0 then ['0'] else (basin mantissa exponent).shortest.toText)

end SheetGloss.Binary64
