import SheetGloss.Text.Digits

/-!
# UTF-8

Bytes read as glyphs: a glyph is a character, or a byte that belongs to no well-formed character.
Reading loses nothing, so a format can be cut at its ASCII marks first and ask afterwards whether a
part is text.
-/

namespace SheetGloss

/-- A sequence of bytes. -/
abbrev Bytes := List UInt8

/-- A character, or a byte that is part of no character. -/
inductive Glyph where
  | char (c : Char)
  /-- A byte outside any character. -/
  | stray (b : UInt8)
  deriving DecidableEq, Repr

namespace Glyph

/-- The character of a glyph, if it is one. -/
def char? : Glyph → Option Char
  | char c => some c
  | stray _ => none

/-- The text of glyphs that are all characters. -/
def text? (glyphs : List Glyph) : Option Text := glyphs.mapM char?

/-- The glyphs of a text. -/
def ofText (s : Text) : List Glyph := s.map char

/-- The number of bytes of a glyph. -/
def size : Glyph → Nat
  | char c => c.utf8Size
  | stray _ => 1

/-- The number of bytes of glyphs. -/
def totalSize (glyphs : List Glyph) : Nat := glyphs.foldl (fun sum g => sum + g.size) 0

/-- The glyphs as text, each stray byte as the replacement character. -/
def display (glyphs : List Glyph) : Text := glyphs.map fun g => g.char?.getD '\uFFFD'

end Glyph

namespace Utf8

/-- The bytes of a character. -/
def encodeChar (c : Char) : Bytes :=
  let n := c.toNat
  if n < 0x80 then [n.toUInt8]
  else if n < 0x800 then [(0xC0 + n / 64).toUInt8, (0x80 + n % 64).toUInt8]
  else if n < 0x10000 then
    [(0xE0 + n / 4096).toUInt8, (0x80 + n / 64 % 64).toUInt8, (0x80 + n % 64).toUInt8]
  else
    [(0xF0 + n / 262144).toUInt8, (0x80 + n / 4096 % 64).toUInt8, (0x80 + n / 64 % 64).toUInt8,
      (0x80 + n % 64).toUInt8]

/-- The bytes of a text. -/
def encode (s : Text) : Bytes := s.flatMap encodeChar

/-- The six payload bits of a continuation byte. -/
def tail? (b : UInt8) : Option Nat :=
  let n := b.toNat
  if 0x80 ≤ n && n < 0xC0 then some (n - 0x80) else none

/-- The character with a code that is not below `least`: a shorter form would have been used. -/
def longForm? (least code : Nat) : Option Char :=
  if code < least then none else Text.charOfCode? code

/-- The character that a byte and the bytes after it begin with, and what follows it. -/
def firstChar? (b : UInt8) (rest : Bytes) : Option (Char × Bytes) :=
  let n := b.toNat
  if n < 0x80 then (Text.charOfCode? n).map (·, rest)
  else if n < 0xC0 then none
  else if n < 0xE0 then
    match rest with
    | b₁ :: rest => do
      let t₁ ← tail? b₁
      let c ← longForm? 0x80 ((n - 0xC0) * 64 + t₁)
      return (c, rest)
    | _ => none
  else if n < 0xF0 then
    match rest with
    | b₁ :: b₂ :: rest => do
      let t₁ ← tail? b₁
      let t₂ ← tail? b₂
      let c ← longForm? 0x800 ((n - 0xE0) * 4096 + t₁ * 64 + t₂)
      return (c, rest)
    | _ => none
  else if n < 0xF8 then
    match rest with
    | b₁ :: b₂ :: b₃ :: rest => do
      let t₁ ← tail? b₁
      let t₂ ← tail? b₂
      let t₃ ← tail? b₃
      let c ← longForm? 0x10000 ((n - 0xF0) * 262144 + t₁ * 4096 + t₂ * 64 + t₃)
      return (c, rest)
    | _ => none
  else none

/-- Reading a character never leaves more bytes than there were. -/
theorem length_le_of_firstChar? {b : UInt8} {rest after : Bytes} {c : Char}
    (h : firstChar? b rest = some (c, after)) : after.length ≤ rest.length := by
  unfold firstChar? at h
  dsimp only at h
  split at h
  · simp only [Option.map_eq_some_iff, Prod.mk.injEq] at h
    obtain ⟨_, _, _, rfl⟩ := h
    exact Nat.le_refl _
  split at h
  · cases h
  split at h
  · split at h
    · simp only [Option.bind_eq_bind, Option.bind_eq_some_iff, Option.pure_def, Option.some.injEq,
        Prod.mk.injEq] at h
      obtain ⟨_, _, _, _, _, rfl⟩ := h
      simp
    · cases h
  split at h
  · split at h
    · simp only [Option.bind_eq_bind, Option.bind_eq_some_iff, Option.pure_def, Option.some.injEq,
        Prod.mk.injEq] at h
      obtain ⟨_, _, _, _, _, _, _, rfl⟩ := h
      simp only [List.length_cons]
      omega
    · cases h
  split at h
  · split at h
    · simp only [Option.bind_eq_bind, Option.bind_eq_some_iff, Option.pure_def, Option.some.injEq,
        Prod.mk.injEq] at h
      obtain ⟨_, _, _, _, _, _, _, _, _, rfl⟩ := h
      simp only [List.length_cons]
      omega
    · cases h
  · cases h

/-- The glyphs of a sequence of bytes. -/
def decode : Bytes → List Glyph
  | [] => []
  | b :: rest =>
    match h : firstChar? b rest with
    | some (c, after) =>
      have := length_le_of_firstChar? h
      .char c :: decode after
    | none => .stray b :: decode rest
termination_by bytes => bytes.length

/-- The text of a sequence of bytes, nothing when it is not UTF-8. -/
def text? (bytes : Bytes) : Option Text := Glyph.text? (decode bytes)

/-- The least and the greatest byte that may stand second in a character. -/
def secondBytes (first : Nat) : Nat × Nat :=
  if first = 0xE0 then (0xA0, 0xBF)
  else if first = 0xED then (0x80, 0x9F)
  else if first = 0xF0 then (0x90, 0xBF)
  else if first = 0xF4 then (0x80, 0x8F)
  else (0x80, 0xBF)

/-- Whether a byte may stand second in a character of three or four bytes. -/
def isSecond (first second : UInt8) : Bool :=
  let (least, greatest) := secondBytes first.toNat
  0xE0 ≤ first.toNat && first.toNat < 0xF5 && least ≤ second.toNat && second.toNat ≤ greatest

/-- What follows a character that is broken off, after its first byte. -/
def afterBroken (b : UInt8) : Bytes → Bytes
  | [] => []
  | b₁ :: rest =>
    if !isSecond b b₁ then b₁ :: rest
    else if b.toNat < 0xF0 then rest
    else
      match rest with
      | [] => []
      | b₂ :: rest => if (tail? b₂).isSome then rest else b₂ :: rest

theorem length_le_of_afterBroken (b : UInt8) (rest : Bytes) :
    (afterBroken b rest).length ≤ rest.length := by
  unfold afterBroken
  split
  · exact Nat.le_refl _
  split
  · exact Nat.le_refl _
  split
  · simp
  split
  · simp
  split
  · simp only [List.length_cons]
    omega
  · simp

/-- The text of a sequence of bytes, with the replacement character in the place of each character
that is broken off and of each byte that begins none. -/
def repair : Bytes → Text
  | [] => []
  | b :: rest =>
    match h : firstChar? b rest with
    | some (c, after) =>
      have := length_le_of_firstChar? h
      c :: repair after
    | none =>
      have := length_le_of_afterBroken b rest
      '\uFFFD' :: repair (afterBroken b rest)
termination_by bytes => bytes.length
decreasing_by all_goals (simp only [List.length_cons]; omega)

end Utf8

end SheetGloss
