import SheetGloss.Json.Lexer

/-!
# Reading JSON values

Tokens are put together one at a time over a list of the arrays and objects that are still open, so
nesting has no bound but the text.
-/

namespace SheetGloss.Json

/-- Named values, as an object lists them. -/
abbrev Members := List (Option Text × Json)

/-- An array or object that is still open, with what it holds so far, last first. -/
inductive Frame where
  | array (items : List Json)
  /-- An object whose next member has a key and waits for its value. -/
  | object (members : Members) (key : Option Text)

/-- What may come next. -/
inductive Expected where
  | value
  /-- The first item of an array, or its end. -/
  | firstItem
  /-- The first key of an object, or its end. -/
  | firstKey
  /-- A further key of an object with these members. -/
  | key (members : Members)
  | colon (members : Members) (key : Option Text)
  /-- What follows a complete value. -/
  | after (value : Json)

/-- The state between two tokens: the open arrays and objects, innermost first, and what may come
next. -/
structure Assembly where
  nesting : List Frame
  expected : Expected

namespace Assembly

/-- The start of a text. -/
def start : Assembly := ⟨[], .value⟩

/-- Takes a token as the start of a value, or as a whole one. -/
def takeValue (frames : List Frame) : Token → Option Assembly
  | .null => some ⟨frames, .after .null⟩
  | .boolean value => some ⟨frames, .after (.boolean value)⟩
  | .number digits => some ⟨frames, .after (.number digits)⟩
  | .string text => some ⟨frames, .after (.string text)⟩
  | .arrayOpen => some ⟨frames, .firstItem⟩
  | .objectOpen => some ⟨frames, .firstKey⟩
  | _ => none

/-- Takes the token after a complete value. -/
def takeAfter (value : Json) : List Frame → Token → Option Assembly
  | .array items :: frames, .comma => some ⟨.array (value :: items) :: frames, .value⟩
  | .array items :: frames, .arrayClose =>
    some ⟨frames, .after (.array (value :: items).reverse)⟩
  | .object members key :: frames, .comma => some ⟨frames, .key ((key, value) :: members)⟩
  | .object members key :: frames, .objectClose =>
    some ⟨frames, .after (.object ((key, value) :: members).reverse)⟩
  | _, _ => none

/-- Takes one token. -/
def take (state : Assembly) (token : Token) : Option Assembly :=
  match state.expected, token with
  | .value, token => takeValue state.nesting token
  | .firstItem, .arrayClose => some ⟨state.nesting, .after (.array [])⟩
  | .firstItem, token => takeValue (.array [] :: state.nesting) token
  | .firstKey, .objectClose => some ⟨state.nesting, .after (.object [])⟩
  | .firstKey, .string key => some ⟨state.nesting, .colon [] key⟩
  | .key members, .string key => some ⟨state.nesting, .colon members key⟩
  | .colon members key, .colon => some ⟨.object members key :: state.nesting, .value⟩
  | .after value, token => takeAfter value state.nesting token
  | _, _ => none

/-- The value of a text that ends here: one complete value with nothing open. -/
def finish? : Assembly → Option Json
  | ⟨[], .after value⟩ => some value
  | _ => none

end Assembly

/-- The value that tokens write. -/
def ofTokens? (tokens : List Token) : Option Json := do
  let state ← tokens.foldlM Assembly.take Assembly.start
  state.finish?

/-- Reads a JSON text: one value, with nothing but blanks around it. -/
def parse? (s : Text) : Option Json := do
  let tokens ← tokens? s
  ofTokens? tokens

/-! ## What a value holds -/

/-- The text of a string. -/
def text? : Json → Option Text
  | .string text => text
  | _ => none

/-- A truth value. -/
def boolean? : Json → Option Bool
  | .boolean value => some value
  | _ => none

/-- A natural number below a bound, written with digits alone. -/
def natBelow? (bound : Nat) : Json → Option Nat
  | .number digits =>
    if digits.all Char.isDigit then
      let value := Text.decimalValue digits
      if value < bound then some value else none
    else none
  | _ => none

/-- The items of an array, each read by `item?`. -/
def list? {α : Type} (item? : Json → Option α) : Json → Option (List α)
  | .array items => items.mapM item?
  | _ => none

/-- The value of a key that occurs at most once. -/
def member? (members : Members) (name : String) : Option (Option Json) :=
  match members.filter (·.1 == some name.toList) with
  | [] => some none
  | [(_, value)] => some (some value)
  | _ => none

/-- The values of named fields, where a field that is not there has none. Fields are read from an
object by key, whatever other keys it has, or from an array by place. -/
def fields? (names : List String) : Json → Option (List (Option Json))
  | .object members =>
    if members.any (·.1.isNone) then none else names.mapM (member? members)
  | .array items =>
    if items.length ≤ names.length then
      some (items.map some ++ List.replicate (names.length - items.length) none)
    else none
  | _ => none

end SheetGloss.Json
