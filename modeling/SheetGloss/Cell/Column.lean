import SheetGloss.Cell.Fault

/-!
# Column letters

Columns are counted from zero and written in bijective base 26: `A` to `Z`, then `AA`, up to `XFD`.
-/

namespace SheetGloss.Column

/-- The capital letter of a digit below 26. -/
def letter (digit : Nat) : Char := Char.ofNat (65 + digit)

/-- The letters of a column index. -/
def letters (column : Nat) : Text :=
  if column < 26 then [letter column]
  else letters (column / 26 - 1) ++ [letter (column % 26)]
termination_by column
decreasing_by omega

/-- The value of an ASCII letter, in either case: `A` is 1 and `Z` is 26. -/
def letterValue (c : Char) : Nat := c.toUpper.toNat - 64

/-- Reads letters after some whose value is `value`, and stops at the first that leaves the
sheet. -/
def readFrom (value : Nat) : Text → Except SheetError UInt16
  | [] => .ok (UInt16.ofNat (value - 1))
  | c :: rest =>
    if c.isAlpha then
      let value := value * 26 + letterValue c
      if maxColumns < value then
        .error (.columnOutOfBounds (value - 1) (maxColumns - 1))
      else readFrom value rest
    else .error (.address (.notLetter c))

/-- The column index that letters stand for. -/
def ofLetters (s : Text) : Except SheetError UInt16 :=
  if s.isEmpty then .error (.address .emptyLetters) else readFrom 0 s

end SheetGloss.Column
