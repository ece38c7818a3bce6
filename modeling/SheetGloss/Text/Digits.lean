import SheetGloss.Text.Basic

/-!
# Digits

Reading runs of decimal and hexadecimal digits.
-/

namespace SheetGloss.Text

/-- The value of a run of decimal digits. -/
def decimalValue (digits : Text) : Nat := Nat.ofDigitChars 10 digits 0

/-- The value of a hexadecimal digit of either case. -/
def hexDigit? (c : Char) : Option Nat :=
  if '0' ≤ c && c ≤ '9' then some (c.toNat - 48)
  else if 'a' ≤ c && c ≤ 'f' then some (c.toNat - 87)
  else if 'A' ≤ c && c ≤ 'F' then some (c.toNat - 55)
  else none

/-- The value of a run of hexadecimal digits, nothing when another character is among them. -/
def hexValue? (digits : Text) : Option Nat :=
  digits.foldlM (fun value c => (hexDigit? c).map (16 * value + ·)) 0

/-- The character with a code, nothing for a surrogate or a code beyond the last one. -/
def charOfCode? (code : Nat) : Option Char :=
  if h : code.isValidChar then some (Char.ofNatAux code h) else none

/-- Reads an index of 64 bits: decimal digits with at most one plus sign before them. -/
def index? (s : Text) : Option Nat :=
  let digits := match s with
    | '+' :: rest => rest
    | _ => s
  if digits.isEmpty || !digits.all Char.isDigit then none
  else
    let value := decimalValue digits
    if value < UInt64.size then some value else none

/-- The digit of a value below sixteen, with lower-case letters. -/
def hexDigit (value : Nat) : Char := Nat.digitChar value

/-- The last four hexadecimal digits of a code. -/
def hexFour (code : Nat) : Text :=
  [hexDigit (code / 4096 % 16), hexDigit (code / 256 % 16), hexDigit (code / 16 % 16),
    hexDigit (code % 16)]

end SheetGloss.Text
