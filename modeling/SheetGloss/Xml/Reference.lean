import SheetGloss.Text.Digits

/-!
# Character references

In text and in attribute values a character can be named, by one of five words or by its code.
-/

namespace SheetGloss.Xml

/-- The character of a name between `&` and `;`. -/
def named? (name : Text) : Option Char :=
  if name = Text.lit "lt" then some '<'
  else if name = Text.lit "gt" then some '>'
  else if name = Text.lit "amp" then some '&'
  else if name = Text.lit "apos" then some '\''
  else if name = Text.lit "quot" then some '"'
  else none

/-- The character of a code; the code zero names none. -/
def coded? (code : Nat) : Option Char := if code = 0 then none else Text.charOfCode? code

/-- The character that is named between `&` and `;`. Codes have at most seven decimal or six
hexadecimal digits. -/
def referenced? : Text → Option Char
  | '#' :: 'x' :: digits => if 6 < digits.length then none else (Text.hexValue? digits).bind coded?
  | '#' :: digits =>
    if 7 < digits.length || !digits.all Char.isDigit then none
    else coded? (Text.decimalValue digits)
  | name => named? name

/-- What stands before the first semicolon, and what follows it; no ampersand may come earlier. -/
def untilSemicolon? : Text → Option (Text × Text)
  | [] => none
  | c :: rest =>
    if c = ';' then some ([], rest)
    else if c = '&' then none
    else (untilSemicolon? rest).map fun (before, after) => (c :: before, after)

theorem length_lt_of_untilSemicolon? {s before after : Text}
    (h : untilSemicolon? s = some (before, after)) : after.length < s.length := by
  induction s generalizing before with
  | nil => cases h
  | cons c rest ih =>
    unfold untilSemicolon? at h
    split at h
    · simp only [Option.some.injEq, Prod.mk.injEq] at h
      simp [h.2]
    split at h
    · cases h
    · simp only [Option.map_eq_some_iff, Prod.mk.injEq, Prod.exists] at h
      obtain ⟨_, _, h, _, rfl⟩ := h
      have := ih h
      simp only [List.length_cons]
      omega

/-- The text with every reference replaced by its character, nothing when one names none. -/
def unescape? : Text → Option Text
  | [] => some []
  | c :: rest =>
    if c = '&' then
      match h : untilSemicolon? rest with
      | none => none
      | some (body, after) =>
        have := length_lt_of_untilSemicolon? h
        match referenced? body with
        | none => none
        | some d => (unescape? after).map (d :: ·)
    else (unescape? rest).map (c :: ·)
termination_by s => s.length
decreasing_by all_goals (simp_all only [List.length_cons]; omega)

end SheetGloss.Xml
