import SheetGloss.Cell.Address

/-!
# Filling a formula into another cell

A formula that is shared by a block of cells is written once. Every other cell of the block has the
same text with its relative references moved by the distance from the first cell. Quoted spans,
names of functions and names of sheets are no references and stay as they are.
-/

namespace SheetGloss.Formula

/-- Whether a character opens a quoted span: a string or the name of a sheet. -/
def isQuote (c : Char) : Bool := c == '"' || c == '\''

/-- Whether a character may be part of a name or a reference: ASCII only. -/
def isNameChar (c : Char) : Bool := c.isAlphanum || c == '_' || c == '.' || c == '$'

/-- The rest of a quoted span with its closing quote, and what follows it. A doubled quote does not
close the span, and a span that is never closed runs to the end. -/
def quotedSpan (quote : Char) : Text → Text × Text
  | [] => ([], [])
  | [c] => ([c], [])
  | c :: d :: rest =>
    if c = quote then
      if d = quote then
        let (inside, after) := quotedSpan quote rest
        (c :: d :: inside, after)
      else ([c], d :: rest)
    else
      let (inside, after) := quotedSpan quote (d :: rest)
      (c :: inside, after)

/-- A quoted span and what follows it are the whole text. -/
theorem quotedSpan_append (quote : Char) (s : Text) :
    (quotedSpan quote s).1 ++ (quotedSpan quote s).2 = s := by
  fun_induction quotedSpan quote s <;> simp_all

theorem length_quotedSpan_le (quote : Char) (s : Text) :
    (quotedSpan quote s).2.length ≤ s.length := by
  have h := congrArg List.length (quotedSpan_append quote s)
  rw [List.length_append] at h
  omega

theorem length_dropWhile_le (p : Char → Bool) (s : Text) : (s.dropWhile p).length ≤ s.length :=
  (List.dropWhile_sublist p).length_le

/-- A run of name characters after the move: an address that is not followed by `(` or `!` is
moved, and becomes `#REF!` when it leaves the sheet. -/
def moveRun (rows columns : Int) (run : Text) (next : Option Char) : Text :=
  if next = some '(' || next = some '!' then run
  else
    match Address.parse run with
    | .error _ => run
    | .ok address =>
      match address.offset rows columns with
      | some moved => moved.toText
      | none => Text.lit "#REF!"

/-- Moves the references of a text; `inName` tells whether a name character stands before it. -/
def fillFrom (rows columns : Int) (inName : Bool) : Text → Text
  | [] => []
  | c :: rest =>
    if isQuote c then
      have := length_quotedSpan_le c rest
      c :: (quotedSpan c rest).1 ++ fillFrom rows columns false (quotedSpan c rest).2
    else if !inName && (c == '$' || c.isAlpha) then
      have := length_dropWhile_le isNameChar rest
      let after := rest.dropWhile isNameChar
      moveRun rows columns (c :: rest.takeWhile isNameChar) after.head? ++
        fillFrom rows columns true after
    else c :: fillFrom rows columns (isNameChar c) rest
termination_by s => s.length

/-- The formula with its relative references moved by a number of rows and columns. -/
def fill (formula : Text) (rows columns : Int) : Text := fillFrom rows columns false formula

end SheetGloss.Formula
