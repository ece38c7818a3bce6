import SheetGloss.Text.Utf8
import SheetGloss.Xml.Reference

/-!
# Attributes

The attributes of a tag are read one after another. One that is not well formed or repeats a key is
passed over, and reading goes on behind it.
-/

namespace SheetGloss.Xml

/-- Whether a glyph is a space, a tab, a line feed or a carriage return. -/
def isSpace (g : Glyph) : Bool :=
  g == .char ' ' || g == .char '\t' || g == .char '\n' || g == .char '\r'

/-- Whether a glyph ends the key of an attribute. -/
def endsKey (g : Glyph) : Bool := g == .char '=' || isSpace g

/-- Whether a glyph opens the value of an attribute. -/
def isValueQuote (g : Glyph) : Bool := g == .char '"' || g == .char '\''

/-- The glyphs before the first `stop`, and those after it when there is one. -/
def upTo (stop : Glyph) : List Glyph → List Glyph × Option (List Glyph)
  | [] => ([], none)
  | g :: rest =>
    if g = stop then ([], some rest)
    else
      let (before, after) := upTo stop rest
      (g :: before, after)

theorem length_lt_of_upTo {stop : Glyph} {s before after : List Glyph}
    (h : upTo stop s = (before, some after)) : after.length < s.length := by
  induction s generalizing before with
  | nil => simp [upTo] at h
  | cons g rest ih =>
    unfold upTo at h
    split at h
    · simp only [Prod.mk.injEq, Option.some.injEq] at h
      simp [h.2]
    · simp only [Prod.mk.injEq] at h
      have := ih (show upTo stop rest = (_, some after) from Prod.ext rfl h.2)
      simp only [List.length_cons]
      omega

/-- What follows the key of an attribute. -/
inductive AfterKey where
  | equals (rest : List Glyph)
  | other (rest : List Glyph)

/-- Looks for the equals sign after a key; spaces may stand before it. -/
def afterKey (s : List Glyph) : AfterKey :=
  match s.dropWhile isSpace with
  | .char '=' :: rest => .equals rest
  | rest => .other rest

theorem length_lt_of_afterKey_equals {s rest : List Glyph} (h : afterKey s = .equals rest) :
    rest.length < s.length := by
  unfold afterKey at h
  split at h
  · next e =>
    cases h
    have := (List.dropWhile_sublist (l := s) isSpace).length_le
    rw [e] at this
    simp only [List.length_cons] at this
    omega
  · cases h

theorem length_le_of_afterKey_other {s rest : List Glyph} (h : afterKey s = .other rest) :
    rest.length ≤ s.length := by
  unfold afterKey at h
  split at h
  · cases h
  · cases h
    exact (List.dropWhile_sublist isSpace).length_le

/-- The keys and values of the well-formed attributes; `seen` are the keys that came before. After a
repeated key or a value without quotes the glyphs up to the next space are passed over. -/
def attributesFrom (seen : List (List Glyph)) (s : List Glyph) :
    List (List Glyph × List Glyph) :=
  match hs : s.dropWhile isSpace with
  | [] => []
  | g :: rest =>
    have start : rest.length < s.length := by
      have := (List.dropWhile_sublist (l := s) isSpace).length_le
      rw [hs] at this
      simp only [List.length_cons] at this
      omega
    have key_le := (List.dropWhile_sublist (l := rest) (!endsKey ·)).length_le
    let key := g :: rest.takeWhile (!endsKey ·)
    match hk : afterKey (rest.dropWhile (!endsKey ·)) with
    | .other after =>
      have := length_le_of_afterKey_other hk
      attributesFrom seen after
    | .equals value =>
      have := length_lt_of_afterKey_equals hk
      have skip_le := (List.dropWhile_sublist (l := value) (!isSpace ·)).length_le
      have space_le := (List.dropWhile_sublist (l := value) isSpace).length_le
      if seen.contains key then attributesFrom seen (value.dropWhile (!isSpace ·))
      else
        match hv : value.dropWhile isSpace with
        | [] => []
        | quote :: inside =>
          have inside_lt : inside.length < value.length := by
            rw [hv] at space_le
            simp only [List.length_cons] at space_le
            omega
          if isValueQuote quote then
            match hu : upTo quote inside with
            | (_, none) => []
            | (content, some after) =>
              have := length_lt_of_upTo hu
              (key, content) :: attributesFrom (key :: seen) after
          else
            have inside_le := (List.dropWhile_sublist (l := inside) (!isSpace ·)).length_le
            attributesFrom (key :: seen) (inside.dropWhile (!isSpace ·))
termination_by s.length
decreasing_by all_goals omega

/-- The text that glyphs stand for: characters with every reference replaced. -/
def content? (glyphs : List Glyph) : Option Text := (Glyph.text? glyphs).bind unescape?

/-- The attributes of a tag, from the glyphs after its name. -/
def attributes (s : List Glyph) : List (Text × Option Text) :=
  (attributesFrom [] s).map fun (key, value) => (Glyph.display key, content? value)

end SheetGloss.Xml
