import SheetGloss.Text.Word
import SheetGloss.Text.Digits

/-!
# Calls of aggregates

An aggregate is a function whose formula can be said in header labels. A formula is explained
through the first call of an aggregate in it: the name at a word boundary, an opening parenthesis,
and an argument that holds no parenthesis.
-/

namespace SheetGloss

/-- A function that the library can explain. -/
inductive Aggregate where
  | sum
  | average
  deriving DecidableEq, Repr

namespace Aggregate

/-- Every aggregate. -/
def all : List Aggregate := [sum, average]

/-- The name of an aggregate, as formulas and explanations write it. -/
def name : Aggregate → Text
  | sum => Text.lit "SUM"
  | average => Text.lit "AVERAGE"

/-- The aggregate of a name, which must be in capitals. -/
def ofName? (s : Text) : Option Aggregate := all.find? fun a => a.name == s

/-- Whether a character may stand inside the name of a called function. -/
def isCallChar (c : Char) : Bool := c.isUpper || c.isDigit || c == '.'

/-- Whether a character is no parenthesis. -/
def isPlain (c : Char) : Bool := c != '(' && c != ')'

/-- The call that a text begins with: name, argument, and what follows the closing parenthesis. -/
def callAt? (s : Text) : Option (Text × Text × Text) :=
  match s.dropWhile isCallChar with
  | '(' :: inside =>
    match inside.dropWhile isPlain with
    | ')' :: after => some (s.takeWhile isCallChar, inside.takeWhile isPlain, after)
    | _ => none
  | _ => none

/-- What follows a call is shorter than the text that begins with it. -/
theorem length_lt_of_callAt? {s name argument after : Text}
    (h : callAt? s = some (name, argument, after)) : after.length < s.length := by
  unfold callAt? at h
  split at h
  · next inside h₁ =>
    split at h
    · next rest h₂ =>
      simp only [Option.some.injEq, Prod.mk.injEq] at h
      obtain ⟨_, _, rfl⟩ := h
      have e₁ := (List.dropWhile_sublist (l := s) isCallChar).length_le
      have e₂ := (List.dropWhile_sublist (l := inside) isPlain).length_le
      rw [h₁] at e₁
      rw [h₂] at e₂
      simp only [List.length_cons] at e₁ e₂
      omega
    · cases h
  · cases h

/-- The first call of an aggregate in a text that stands after the character `before`. Calls do not
overlap: after a call of another function the search goes on behind its closing parenthesis. -/
def firstCallFrom? (before : Option Char) (s : Text) : Option (Aggregate × Text) :=
  match s with
  | [] => none
  | c :: rest =>
    if c.isUpper && !before.any Text.isWord then
      match h : callAt? (c :: rest) with
      | some (name, argument, after) =>
        have := length_lt_of_callAt? h
        match ofName? name with
        | some aggregate => some (aggregate, argument)
        | none => firstCallFrom? (some ')') after
      | none => firstCallFrom? (some c) rest
    else firstCallFrom? (some c) rest
termination_by s.length
decreasing_by all_goals (simp only [List.length_cons] at *; omega)

/-- The first call of an aggregate in a formula, and its argument. -/
def firstCall? (expression : Text) : Option (Aggregate × Text) := firstCallFrom? none expression

end Aggregate

end SheetGloss
