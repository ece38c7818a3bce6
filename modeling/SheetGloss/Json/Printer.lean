import SheetGloss.Json.Value

/-!
# Writing JSON values

Values as text, compactly or over indented lines. In strings only the quote, the backslash and the
characters below the space are escaped.
-/

namespace SheetGloss.Json

/-- A character of a string literal. -/
def escapeChar (c : Char) : Text :=
  if c == '"' then ['\\', '"']
  else if c == '\\' then ['\\', '\\']
  else if c == '\x08' then ['\\', 'b']
  else if c == '\x0C' then ['\\', 'f']
  else if c == '\n' then ['\\', 'n']
  else if c == '\r' then ['\\', 'r']
  else if c == '\t' then ['\\', 't']
  else if c < ' ' then '\\' :: 'u' :: Text.hexFour c.toNat
  else [c]

/-- A string literal; an unreadable one names a lone half of a pair. -/
def quoted : Option Text → Text
  | some s => '"' :: (s.flatMap escapeChar ++ ['"'])
  | none => Text.lit "\"\\ud800\""

mutual

/-- A value as text, with no blanks. -/
def compact : Json → Text
  | .null => Text.lit "null"
  | .boolean true => Text.lit "true"
  | .boolean false => Text.lit "false"
  | .number digits => digits
  | .string text => quoted text
  | .array [] => ['[', ']']
  | .array (item :: items) => '[' :: (compact item ++ compactItems items ++ [']'])
  | .object [] => ['{', '}']
  | .object ((key, value) :: members) =>
    '{' :: (quoted key ++ ':' :: compact value ++ compactMembers members ++ ['}'])

/-- Further items of an array, each after a comma. -/
def compactItems : List Json → Text
  | [] => []
  | item :: items => ',' :: (compact item ++ compactItems items)

/-- Further members of an object, each after a comma. -/
def compactMembers : List (Option Text × Json) → Text
  | [] => []
  | (key, value) :: members =>
    ',' :: (quoted key ++ ':' :: compact value ++ compactMembers members)

end

/-- A new line with two spaces for each level of nesting. -/
def newline (level : Nat) : Text := '\n' :: List.replicate (2 * level) ' '

mutual

/-- A value over indented lines, inside `level` arrays and objects. -/
def pretty (level : Nat) : Json → Text
  | .null => Text.lit "null"
  | .boolean true => Text.lit "true"
  | .boolean false => Text.lit "false"
  | .number digits => digits
  | .string text => quoted text
  | .array [] => ['[', ']']
  | .array (item :: items) =>
    '[' :: (newline (level + 1) ++ pretty (level + 1) item ++ prettyItems (level + 1) items ++
      (newline level ++ [']']))
  | .object [] => ['{', '}']
  | .object ((key, value) :: members) =>
    '{' :: (newline (level + 1) ++ quoted key ++ ':' :: ' ' :: pretty (level + 1) value ++
      prettyMembers (level + 1) members ++ (newline level ++ ['}']))

/-- Further items of an array, each on a line of its own. -/
def prettyItems (level : Nat) : List Json → Text
  | [] => []
  | item :: items => ',' :: (newline level ++ pretty level item ++ prettyItems level items)

/-- Further members of an object, each on a line of its own. -/
def prettyMembers (level : Nat) : List (Option Text × Json) → Text
  | [] => []
  | (key, value) :: members =>
    ',' :: (newline level ++ quoted key ++ ':' :: ' ' :: pretty level value ++
      prettyMembers level members)

end

end SheetGloss.Json
