import SheetGloss.Decimal.Shortest

/-!
# Displayed numbers

How the number of a cell is shown: a whole number below `10 ^ 15` as its digits, any other number
with the fewest digits that read back, and a text that is no number as it stands.
-/

namespace SheetGloss

/-- Numbers from here on are not shown as whole numbers. -/
def wholeLimit : Nat := Nat.pow 10 15

/-- The text of a floating-point number in a cell. -/
def Binary64.display : Binary64 → Text
  | .finite negative mantissa exponent =>
    match whole? mantissa exponent with
    | some n =>
      if n < wholeLimit then Text.ofInt (if negative then -(n : Int) else n)
      else toText (.finite negative mantissa exponent)
    | none => toText (.finite negative mantissa exponent)
  | other => other.toText

/-- The text of a numeric cell whose stored text is `source`. -/
def displayNumber (source : Text) : Text :=
  match Binary64.parse? source with
  | some number => number.display
  | none => source

end SheetGloss
