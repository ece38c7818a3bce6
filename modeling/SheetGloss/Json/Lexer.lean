import SheetGloss.Json.Value

/-!
# JSON tokens

A JSON text cut into tokens. Blanks between tokens are space, tab, line feed and carriage return.
-/

namespace SheetGloss.Json

/-- Whether a character may stand between tokens. -/
def isSpace (c : Char) : Bool := c == ' ' || c == '\t' || c == '\n' || c == '\r'

/-- A part of a string literal: a character, or a code unit that is half of a pair. -/
inductive StringPart where
  | char (c : Char)
  /-- Half of a surrogate pair. -/
  | half (unit : Nat)
  deriving DecidableEq, Repr

/-- The part that a code unit of sixteen bits stands for. -/
def StringPart.ofUnit (unit : Nat) : StringPart :=
  match Text.charOfCode? unit with
  | some c => .char c
  | none => .half unit

/-- The text of string parts: halves must come in pairs, the high one first. -/
def joinParts? : List StringPart → Option Text
  | [] => some []
  | .char c :: rest => (joinParts? rest).map (c :: ·)
  | [.half _] => none
  | .half _ :: .char _ :: _ => none
  | .half high :: .half low :: rest =>
    if high < 0xDC00 && 0xDC00 ≤ low then do
      let c ← Text.charOfCode? (0x10000 + (high - 0xD800) * 0x400 + (low - 0xDC00))
      let s ← joinParts? rest
      return c :: s
    else none

/-- The character that a letter after a backslash stands for. -/
def escaped? : Char → Option Char
  | '"' => some '"'
  | '\\' => some '\\'
  | '/' => some '/'
  | 'b' => some '\x08'
  | 'f' => some '\x0C'
  | 'n' => some '\n'
  | 'r' => some '\r'
  | 't' => some '\t'
  | _ => none

/-- The parts of a string literal after its opening quote, and what follows the closing one. -/
def stringParts? : Text → Option (List StringPart × Text)
  | [] => none
  | '"' :: rest => some ([], rest)
  | '\\' :: 'u' :: a :: b :: c :: d :: rest => do
    let unit ← Text.hexValue? [a, b, c, d]
    let (parts, after) ← stringParts? rest
    return (.ofUnit unit :: parts, after)
  | '\\' :: e :: rest => do
    let c ← escaped? e
    let (parts, after) ← stringParts? rest
    return (.char c :: parts, after)
  | c :: rest =>
    if c < ' ' || c == '\\' then none
    else do
      let (parts, after) ← stringParts? rest
      return (.char c :: parts, after)

/-- What follows a string literal is shorter than the text that holds it. -/
theorem length_lt_of_stringParts? {s after : Text} {parts : List StringPart}
    (h : stringParts? s = some (parts, after)) : after.length < s.length := by
  fun_induction stringParts? s generalizing parts after with
  | case1 => cases h
  | case2 rest =>
    simp only [Option.some.injEq, Prod.mk.injEq] at h
    simp [h.2]
  | case3 a b c d rest ih =>
    simp only [Option.bind_eq_bind, Option.bind_eq_some_iff, Option.pure_def, Option.some.injEq,
      Prod.mk.injEq, Prod.exists] at h
    obtain ⟨_, _, _, _, h, _, rfl⟩ := h
    have := ih h
    simp only [List.length_cons]
    omega
  | case4 e rest _ ih =>
    simp only [Option.bind_eq_bind, Option.bind_eq_some_iff, Option.pure_def, Option.some.injEq,
      Prod.mk.injEq, Prod.exists] at h
    obtain ⟨_, _, _, _, h, _, rfl⟩ := h
    have := ih h
    simp only [List.length_cons]
    omega
  | case5 => cases h
  | case6 c rest _ _ _ _ ih =>
    simp only [Option.bind_eq_bind, Option.bind_eq_some_iff, Option.pure_def, Option.some.injEq,
      Prod.mk.injEq, Prod.exists] at h
    obtain ⟨_, _, h, _, rfl⟩ := h
    have := ih h
    simp only [List.length_cons]
    omega

/-- A run of at least one digit, and what follows it. -/
def digits? (s : Text) : Option (Text × Text) :=
  if (s.takeWhile Char.isDigit).isEmpty then none
  else some (s.takeWhile Char.isDigit, s.dropWhile Char.isDigit)

/-- The integer part of a number: one zero, or digits that begin with another one. -/
def integerPart? : Text → Option (Text × Text)
  | '0' :: rest => some (['0'], rest)
  | s => digits? s

/-- The fraction of a number, which may be missing. -/
def fractionPart? : Text → Option (Text × Text)
  | '.' :: rest => (digits? rest).map fun (digits, after) => ('.' :: digits, after)
  | s => some ([], s)

/-- A sign, which may be missing. -/
def signPart : Text → Text × Text
  | '+' :: rest => (['+'], rest)
  | '-' :: rest => (['-'], rest)
  | s => ([], s)

/-- The exponent of a number, which may be missing. -/
def exponentPart? : Text → Option (Text × Text)
  | 'e' :: rest =>
    (digits? (signPart rest).2).map fun (digits, after) =>
      ('e' :: (signPart rest).1 ++ digits, after)
  | 'E' :: rest =>
    (digits? (signPart rest).2).map fun (digits, after) =>
      ('E' :: (signPart rest).1 ++ digits, after)
  | s => some ([], s)

/-- A number that does not begin with a minus sign. -/
def magnitude? (s : Text) : Option (Text × Text) := do
  let (integer, s₁) ← integerPart? s
  let (fraction, s₂) ← fractionPart? s₁
  let (exponent, s₃) ← exponentPart? s₂
  return (integer ++ fraction ++ exponent, s₃)

/-- The number that a text begins with, and what follows it. -/
def number? : Text → Option (Text × Text)
  | '-' :: rest => (magnitude? rest).map fun (digits, after) => ('-' :: digits, after)
  | s => magnitude? s

theorem length_lt_of_digits? {s digits after : Text} (h : digits? s = some (digits, after)) :
    after.length < s.length := by
  unfold digits? at h
  split at h
  · cases h
  · next hne =>
    simp only [Option.some.injEq, Prod.mk.injEq] at h
    obtain ⟨_, rfl⟩ := h
    have e := congrArg List.length (List.takeWhile_append_dropWhile (p := Char.isDigit) (l := s))
    rw [List.length_append] at e
    have : 0 < (s.takeWhile Char.isDigit).length := List.length_pos_iff.2 (by simpa using hne)
    omega

theorem length_lt_of_integerPart? {s digits after : Text}
    (h : integerPart? s = some (digits, after)) : after.length < s.length := by
  unfold integerPart? at h
  split at h
  · simp only [Option.some.injEq, Prod.mk.injEq] at h
    simp [h.2]
  · exact length_lt_of_digits? h

theorem length_le_of_fractionPart? {s digits after : Text}
    (h : fractionPart? s = some (digits, after)) : after.length ≤ s.length := by
  unfold fractionPart? at h
  split at h
  · simp only [Option.map_eq_some_iff, Prod.mk.injEq, Prod.exists] at h
    obtain ⟨_, _, h, _, rfl⟩ := h
    have := length_lt_of_digits? h
    simp only [List.length_cons]
    omega
  · simp only [Option.some.injEq, Prod.mk.injEq] at h
    simp [h.2]

theorem length_signPart_le (s : Text) : (signPart s).2.length ≤ s.length := by
  unfold signPart
  split <;> simp

theorem length_le_of_exponentPart? {s digits after : Text}
    (h : exponentPart? s = some (digits, after)) : after.length ≤ s.length := by
  unfold exponentPart? at h
  split at h
  · next rest =>
    simp only [Option.map_eq_some_iff, Prod.mk.injEq, Prod.exists] at h
    obtain ⟨_, _, h, _, rfl⟩ := h
    have := length_lt_of_digits? h
    have := length_signPart_le rest
    simp only [List.length_cons]
    omega
  · next rest =>
    simp only [Option.map_eq_some_iff, Prod.mk.injEq, Prod.exists] at h
    obtain ⟨_, _, h, _, rfl⟩ := h
    have := length_lt_of_digits? h
    have := length_signPart_le rest
    simp only [List.length_cons]
    omega
  · simp only [Option.some.injEq, Prod.mk.injEq] at h
    simp [h.2]

theorem length_lt_of_magnitude? {s digits after : Text}
    (h : magnitude? s = some (digits, after)) : after.length < s.length := by
  simp only [magnitude?, Option.bind_eq_bind, Option.bind_eq_some_iff, Option.pure_def,
    Option.some.injEq, Prod.mk.injEq, Prod.exists] at h
  obtain ⟨_, _, h₁, _, _, h₂, _, _, h₃, _, rfl⟩ := h
  have := length_lt_of_integerPart? h₁
  have := length_le_of_fractionPart? h₂
  have := length_le_of_exponentPart? h₃
  omega

/-- What follows a number is shorter than the text that begins with it. -/
theorem length_lt_of_number? {s digits after : Text} (h : number? s = some (digits, after)) :
    after.length < s.length := by
  unfold number? at h
  split at h
  · simp only [Option.map_eq_some_iff, Prod.mk.injEq, Prod.exists] at h
    obtain ⟨_, _, h, _, rfl⟩ := h
    have := length_lt_of_magnitude? h
    simp only [List.length_cons]
    omega
  · exact length_lt_of_magnitude? h

/-- The token of a character that is one by itself. -/
def mark? : Char → Option Token
  | '{' => some .objectOpen
  | '}' => some .objectClose
  | '[' => some .arrayOpen
  | ']' => some .arrayClose
  | ':' => some .colon
  | ',' => some .comma
  | _ => none

/-- The tokens of a text, nothing when a part of it is no token. -/
def tokens? (s : Text) : Option (List Token) :=
  match s with
  | [] => some []
  | 'n' :: 'u' :: 'l' :: 'l' :: rest => (tokens? rest).map (.null :: ·)
  | 't' :: 'r' :: 'u' :: 'e' :: rest => (tokens? rest).map (.boolean true :: ·)
  | 'f' :: 'a' :: 'l' :: 's' :: 'e' :: rest => (tokens? rest).map (.boolean false :: ·)
  | c :: rest =>
    if isSpace c then tokens? rest
    else if c == '"' then
      match h : stringParts? rest with
      | none => none
      | some (parts, after) =>
        have := length_lt_of_stringParts? h
        (tokens? after).map (.string (joinParts? parts) :: ·)
    else
      match mark? c with
      | some token => (tokens? rest).map (token :: ·)
      | none =>
        match h : number? (c :: rest) with
        | none => none
        | some (digits, after) =>
          have := length_lt_of_number? h
          (tokens? after).map (.number digits :: ·)
termination_by s.length
decreasing_by all_goals (simp_all only [List.length_cons]; try omega)

end SheetGloss.Json
