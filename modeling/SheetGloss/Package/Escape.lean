import SheetGloss.Text.Digits

/-!
# Escaped characters in cell texts

Workbooks write characters that XML cannot hold as `_xHHHH_`, with four hexadecimal digits.
-/

namespace SheetGloss.Package

/-- The character that the text after an underscore names, and what follows the escape. -/
def escapeAfter? : Text → Option (Char × Text)
  | 'x' :: a :: b :: c :: d :: '_' :: rest =>
    ((Text.hexValue? [a, b, c, d]).bind Text.charOfCode?).map (·, rest)
  | _ => none

theorem length_lt_of_escapeAfter? {s after : Text} {c : Char}
    (h : escapeAfter? s = some (c, after)) : after.length < s.length := by
  unfold escapeAfter? at h
  split at h
  · simp only [Option.map_eq_some_iff, Prod.mk.injEq] at h
    obtain ⟨_, _, _, rfl⟩ := h
    simp only [List.length_cons]
    omega
  · cases h

/-- The text with every escape replaced by its character, from the left. What only resembles an
escape stays, and a character that came from an escape is not looked at again. -/
def decodeEscapes : Text → Text
  | [] => []
  | c :: rest =>
    if c = '_' then
      match h : escapeAfter? rest with
      | some (d, after) =>
        have := length_lt_of_escapeAfter? h
        d :: decodeEscapes after
      | none => c :: decodeEscapes rest
    else c :: decodeEscapes rest
termination_by s => s.length
decreasing_by all_goals (try simp only [List.length_cons] at *); omega

end SheetGloss.Package
