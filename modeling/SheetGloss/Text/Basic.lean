/-!
# Text

Text is a list of Unicode scalar values. Every rule of the library reads and writes such lists;
`String` appears only where a message or an output leaves the library.
-/

namespace SheetGloss

/-- A text, as the list of its Unicode scalar values. -/
abbrev Text := List Char

instance : Hashable Text where
  hash s := s.foldl (fun code c => mixHash code (hash c.val)) 7

namespace Text

/-- The text of a string. -/
abbrev lit (s : String) : Text := s.toList

/-- The decimal digits of a natural number, with no leading zero. -/
def ofNat (n : Nat) : Text := Nat.toDigits 10 n

/-- The decimal text of an integer: a minus sign only below zero. -/
def ofInt : Int → Text
  | .ofNat n => ofNat n
  | .negSucc n => '-' :: ofNat (n + 1)

/-- The text between single quotes, as messages show it. -/
def inQuotes (s : Text) : String := "'" ++ String.ofList s ++ "'"

/-- The part before the first `mark`, and the part after it when there is one. -/
def splitFirst (mark : Char) : Text → Text × Option Text
  | [] => ([], none)
  | c :: rest =>
    if c = mark then ([], some rest)
    else
      let (before, after) := splitFirst mark rest
      (c :: before, after)

/-- The parts between the occurrences of `mark`; there is always at least one. -/
def splitAll (mark : Char) : Text → List Text
  | [] => [[]]
  | c :: rest =>
    if c = mark then [] :: splitAll mark rest
    else
      match splitAll mark rest with
      | [] => [[c]]
      | part :: parts => (c :: part) :: parts

/-- The lines of a text, cut at line feeds. -/
def lines (s : Text) : List Text := splitAll '\n' s

/-- The rest of `s` after `head`, when `s` begins with it. -/
def dropHead? : (head s : Text) → Option Text
  | [], s => some s
  | _ :: _, [] => none
  | c :: head, d :: s => if c = d then dropHead? head s else none

/-- Whether `s` ends in `tail`. -/
def endsIn (tail s : Text) : Bool := (dropHead? tail.reverse s.reverse).isSome

/-- ASCII letters in lower case, all else as it is. -/
def lower (s : Text) : Text := s.map Char.toLower

end Text

end SheetGloss
