import Mathlib.Data.List.Chain
import SheetGloss.Proofs.EscapedText
import SheetGloss.Proofs.NameText

/-!
# Escapes in cell texts

A text may be written into a cell with any of its characters escaped, as long as no underscore is
left to open an escape. Decoding gives the text back, and looks at no character twice.
-/

namespace SheetGloss

namespace Text

lemma hexDigit?_toLower (c : Char) : hexDigit? c.toLower = hexDigit? c := by
  by_cases hc : c.isUpper = true
  · have hrange := isUpper_iff.mp hc
    exact forall_ascii (P := fun c => hexDigit? c.toLower = hexDigit? c) (by decide) c (by omega)
  · have hlower : c.toLower = c := dif_neg fun h => hc (decide_eq_true h)
    rw [hlower]

lemma hexValue?_lower (digits : Text) : hexValue? (lower digits) = hexValue? digits := by
  simp only [hexValue?, lower, List.foldlM_map, hexDigit?_toLower]

end Text

namespace Package

/-- Four hexadecimal digits of either case that spell the code of a character. -/
structure Escape (c : Char) where
  digits : Text
  short : c.toNat < 0x10000
  spelled : Text.lower digits = Text.hexFour c.toNat

/-- A character of a text as it is written. -/
inductive Written where
  | plain (c : Char)
  | escaped (c : Char) (e : Escape c)

namespace Written

def char : Written → Char
  | plain c => c
  | escaped c _ => c

def text : Written → Text
  | plain c => [c]
  | escaped _ e => '_' :: 'x' :: (e.digits ++ ['_'])

/-- An underscore directly in front of an `x`, both as they are. -/
def opens : Written → Written → Bool
  | plain c, plain d => c == '_' && d == 'x'
  | _, _ => false

end Written

/-- No underscore that is not escaped stands directly in front of an `x` that is not. -/
def Legal (written : List Written) : Prop :=
  written.IsChain fun v w => v.opens w = false

instance (written : List Written) : Decidable (Legal written) :=
  inferInstanceAs (Decidable (List.IsChain _ written))

variable {c : Char} {s rest : Text}

lemma Escape.length_digits (e : Escape c) : e.digits.length = 4 := by
  have h := congrArg List.length e.spelled
  rwa [Text.lower, List.length_map] at h

lemma Escape.exists_digits (e : Escape c) : ∃ i j k l, e.digits = [i, j, k, l] :=
  List.length_eq_four.mp e.length_digits

lemma Escape.hexValue? (e : Escape c) : Text.hexValue? e.digits = some c.toNat := by
  rw [← Text.hexValue?_lower, e.spelled, Text.hexValue?_hexFour e.short]

lemma escapeAfter?_escape (e : Escape c) (rest : Text) :
    escapeAfter? ('x' :: (e.digits ++ '_' :: rest)) = some (c, rest) := by
  have hvalue := e.hexValue?
  obtain ⟨i, j, k, l, hdigits⟩ := e.exists_digits
  rw [hdigits] at hvalue ⊢
  simp [escapeAfter?, hvalue, Text.charOfCode?_toNat]

lemma decodeEscapes_escaped (e : Escape c) (rest : Text) :
    decodeEscapes ((Written.escaped c e).text ++ rest) = c :: decodeEscapes rest := by
  rw [Written.text, List.cons_append, List.cons_append, List.append_assoc]
  exact decodeEscapes_escape (escapeAfter?_escape e rest)

lemma escapeAfter?_eq_none (h : 'x' ∉ s.head?) : escapeAfter? s = none := by
  unfold escapeAfter?
  split
  · exact absurd rfl h
  · rfl

lemma decodeEscapes_plain (h : c = '_' → 'x' ∉ s.head?) :
    decodeEscapes (c :: s) = c :: decodeEscapes s := by
  by_cases hc : c = '_'
  · subst hc
    exact decodeEscapes_underscore (escapeAfter?_eq_none (h rfl))
  · exact decodeEscapes_cons hc

lemma head?_written {written : List Written} (h : Legal (.plain '_' :: written)) :
    'x' ∉ (written.flatMap Written.text).head? := by
  cases written with
  | nil => simp
  | cons w written =>
    have hopens := (List.isChain_cons_cons.mp h).1
    cases w with
    | plain d => simpa [Written.opens, Written.text] using hopens
    | escaped d e =>
      -- The next escape begins with an underscore of its own.
      simp [Written.text]

lemma decodeEscapes_of_legal {written : List Written} (h : Legal written) :
    decodeEscapes (written.flatMap Written.text) = written.map Written.char := by
  induction written with
  | nil => rw [List.flatMap_nil, decodeEscapes, List.map_nil]
  | cons w written ih =>
    rw [List.flatMap_cons, List.map_cons, ← ih (List.IsChain.of_cons h)]
    cases w with
    | plain c =>
      refine decodeEscapes_plain fun hc => ?_
      subst hc
      exact head?_written h
    | escaped c e => exact decodeEscapes_escaped e _

/-- Decoding undoes every legal way to write a text, and does not look again at the character an
escape stands for. -/
theorem decodeEscapes_written :
    (∀ (s : Text) (written : List Written), written.map Written.char = s → Legal written →
      decodeEscapes (written.flatMap Written.text) = s) ∧
    (∀ (c : Char) (e : Escape c) (rest : Text),
      decodeEscapes ((Written.escaped c e).text ++ rest) = c :: decodeEscapes rest) ∧
    decodeEscapes (Text.lit "_x005f_x000d_") = Text.lit "_x000d_" := by
  refine ⟨?_, fun c e rest => decodeEscapes_escaped e rest, ?_⟩
  · rintro s written rfl h
    exact decodeEscapes_of_legal h
  · have h : Legal [.escaped '_' ⟨Text.lit "005f", by decide, by decide⟩, .plain 'x', .plain '0',
        .plain '0', .plain '0', .plain 'd', .plain '_'] := by
      decide
    exact decodeEscapes_of_legal h

/-- Escapes side by side and in both cases, between underscores that open none. -/
theorem decodeEscapes_written_runs :
    let written := [.plain '_', .escaped '_' ⟨Text.lit "005F", by decide, by decide⟩,
      .escaped '\r' ⟨Text.lit "000d", by decide, by decide⟩, .plain 'x', .plain '_',
      .escaped 'x' ⟨Text.lit "0078", by decide, by decide⟩, .plain '0', .plain '_', .plain '_',
      .escaped '…' ⟨Text.lit "2026", by decide, by decide⟩,
      .escaped 'ʫ' ⟨Text.lit "02aB", by decide, by decide⟩]
    let s := Text.lit "__\rx_x0__…ʫ"
    written.map Written.char = s ∧ Legal written ∧
      written.flatMap Written.text = Text.lit "__x005F__x000d_x__x0078_0___x2026__x02aB_" ∧
      decodeEscapes (Text.lit "__x005F__x000d_x__x0078_0___x2026__x02aB_") = s := by
  intro written s
  have hs : written.map Written.char = s := by decide
  have h : Legal written := by decide
  exact ⟨hs, h, rfl, decodeEscapes_written.1 s written hs h⟩

end Package

end SheetGloss
