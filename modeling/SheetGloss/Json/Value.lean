import SheetGloss.Text.Digits

/-!
# JSON values

A value as its text writes it: numbers keep their digits and objects keep the order and the repeated
keys of their members. A string literal can name half of a surrogate pair, which no text holds; such
a string is kept as unreadable.
-/

namespace SheetGloss

/-- A JSON value. -/
inductive Json where
  | null
  | boolean (value : Bool)
  /-- A number, as it is written. -/
  | number (digits : Text)
  /-- A string, nothing when it is unreadable. -/
  | string (text : Option Text)
  | array (items : List Json)
  | object (members : List (Option Text × Json))

namespace Json

/-- The JSON string of a text. -/
def ofText (s : Text) : Json := .string (some s)

/-- The JSON number of a natural number. -/
def ofNat (n : Nat) : Json := .number (Text.ofNat n)

/-- An object from names and values. -/
def record (members : List (String × Json)) : Json :=
  .object (members.map fun (name, value) => (some name.toList, value))

/-- A piece of a JSON text. -/
inductive Token where
  | objectOpen
  | objectClose
  | arrayOpen
  | arrayClose
  | colon
  | comma
  | null
  | boolean (value : Bool)
  /-- A number, as it is written. -/
  | number (digits : Text)
  /-- A string, nothing when it is unreadable. -/
  | string (text : Option Text)
  deriving DecidableEq, Repr

end Json

end SheetGloss
