import SheetGloss.Package.Escape
import SheetGloss.Proofs.Utf8Text
import SheetGloss.Xml.Attribute

/-!
# Escaped text

A written text has references in the place of the characters that markup uses, and reading it
replaces every reference. In the text of a cell every underscore is written as an escape of its
own, and reading replaces nothing else.
-/

namespace SheetGloss

namespace Xml

/-- The characters that markup uses, and the words that stand for them. -/
def entities : List (Char × Text) :=
  [('&', Text.lit "amp"), ('<', Text.lit "lt"), ('>', Text.lit "gt"), ('"', Text.lit "quot"),
    ('\'', Text.lit "apos")]

/-- A character as markup writes it. -/
def escapeChar (c : Char) : Text :=
  match entities.lookup c with
  | some word => '&' :: (word ++ [';'])
  | none => [c]

/-- A text as markup writes it. -/
def escape (s : Text) : Text := s.flatMap escapeChar

lemma escape_cons (c : Char) (s : Text) : escape (c :: s) = escapeChar c ++ escape s :=
  List.flatMap_cons

lemma escapeChar_cases (c : Char) :
    (∃ word, (c, word) ∈ entities ∧ escapeChar c = '&' :: (word ++ [';'])) ∨
      (c ∉ entities.map Prod.fst ∧ escapeChar c = [c]) := by
  unfold escapeChar
  cases h : entities.lookup c with
  | some word =>
    obtain ⟨before, after, hsplit, -⟩ := List.lookup_eq_some_iff.mp h
    exact Or.inl ⟨word, by rw [hsplit]; simp, rfl⟩
  | none =>
    refine Or.inr ⟨?_, rfl⟩
    intro hc
    obtain ⟨p, hp, rfl⟩ := List.mem_map.mp hc
    have hne := List.lookup_eq_none_iff.mp h p hp
    simp at hne

lemma escape_ne_nil {s : Text} (h : s ≠ []) : escape s ≠ [] := by
  obtain ⟨c, s, rfl⟩ := List.exists_cons_of_ne_nil h
  rw [escape_cons]
  intro he
  have hnil := (List.append_eq_nil_iff.mp he).1
  rcases escapeChar_cases c with ⟨word, -, hword⟩ | ⟨-, hword⟩
  · rw [hword] at hnil
    cases hnil
  · rw [hword] at hnil
    cases hnil

/-- An escaped text has none of the characters that end a tag, a value or a text. -/
lemma not_mem_escape {d : Char} (hd : d ∈ ['<', '>', '"', '\'']) (s : Text) : d ∉ escape s := by
  have hall : d ∈ entities.map Prod.fst ∧ ∀ p ∈ entities, d ∉ '&' :: (p.2 ++ [';']) := by
    simp only [List.mem_cons, List.not_mem_nil, or_false] at hd
    rcases hd with rfl | rfl | rfl | rfl <;> decide
  rw [escape, List.mem_flatMap]
  rintro ⟨c, -, hc⟩
  rcases escapeChar_cases c with ⟨word, hword, heq⟩ | ⟨hkey, heq⟩
  · rw [heq] at hc
    exact hall.2 (c, word) hword hc
  · rw [heq, List.mem_singleton] at hc
    exact hkey (hc ▸ hall.1)

lemma unescape?_cons {c : Char} {s : Text} (hc : c ≠ '&') :
    unescape? (c :: s) = (unescape? s).map (c :: ·) := by
  rw [unescape?, if_neg hc]

lemma unescape?_reference {s body after : Text} {c : Char}
    (h : untilSemicolon? s = some (body, after)) (hc : referenced? body = some c) :
    unescape? ('&' :: s) = (unescape? after).map (c :: ·) := by
  rw [unescape?, if_pos rfl]
  split
  · next heq =>
    rw [h] at heq
    cases heq
  · next heq =>
    rw [h] at heq
    cases heq
    rw [hc]

lemma untilSemicolon?_append {word : Text} (hs : ';' ∉ word) (ha : '&' ∉ word) (s : Text) :
    untilSemicolon? (word ++ ';' :: s) = some (word, s) := by
  induction word with
  | nil => rw [List.nil_append, untilSemicolon?, if_pos rfl]
  | cons c word ih =>
    obtain ⟨hsc, hsw⟩ := List.ne_and_not_mem_of_not_mem_cons hs
    obtain ⟨hac, haw⟩ := List.ne_and_not_mem_of_not_mem_cons ha
    rw [List.cons_append, untilSemicolon?, if_neg (Ne.symm hsc), if_neg (Ne.symm hac), ih hsw haw,
      Option.map_some]

lemma unescape?_escapeChar (c : Char) (s : Text) :
    unescape? (escapeChar c ++ s) = (unescape? s).map (c :: ·) := by
  rcases escapeChar_cases c with ⟨word, hword, heq⟩ | ⟨hkey, heq⟩
  · have hall : ∀ p ∈ entities, referenced? p.2 = some p.1 ∧ ';' ∉ p.2 ∧ '&' ∉ p.2 := by
      decide
    obtain ⟨href, hs, ha⟩ := hall (c, word) hword
    rw [heq, List.cons_append, List.append_assoc]
    exact unescape?_reference (untilSemicolon?_append hs ha s) href
  · have hamp : c ≠ '&' := by
      rintro rfl
      exact hkey (by decide)
    rw [heq]
    exact unescape?_cons hamp

theorem unescape?_escape (s : Text) : unescape? (escape s) = some s := by
  induction s with
  | nil => rw [escape, List.flatMap_nil, unescape?]
  | cons c s ih => rw [escape_cons, unescape?_escapeChar, ih, Option.map_some]

lemma content?_escape (s : Text) : content? (Glyph.ofText (escape s)) = some s := by
  rw [content?, Glyph.text?_ofText, Option.bind_some, unescape?_escape]

end Xml

namespace Package

/-- A character of a cell text as the cell holds it. -/
def guardChar (c : Char) : Text := if c = '_' then Text.lit "_x005F_" else [c]

/-- A cell text with every underscore escaped. -/
def guarded (s : Text) : Text := s.flatMap guardChar

lemma decodeEscapes_cons {c : Char} {s : Text} (hc : c ≠ '_') :
    decodeEscapes (c :: s) = c :: decodeEscapes s := by
  rw [decodeEscapes, if_neg hc]

lemma decodeEscapes_escape {s after : Text} {c : Char} (h : escapeAfter? s = some (c, after)) :
    decodeEscapes ('_' :: s) = c :: decodeEscapes after := by
  rw [decodeEscapes, if_pos rfl]
  split
  · next heq =>
    rw [h] at heq
    cases heq
    rfl
  · next heq =>
    rw [h] at heq
    cases heq

/-- An underscore that opens no escape stays. -/
lemma decodeEscapes_underscore {s : Text} (h : escapeAfter? s = none) :
    decodeEscapes ('_' :: s) = '_' :: decodeEscapes s := by
  rw [decodeEscapes, if_pos rfl]
  split
  · next heq =>
    rw [h] at heq
    cases heq
  · rfl

theorem decodeEscapes_guarded (s : Text) : decodeEscapes (guarded s) = s := by
  induction s with
  | nil => rw [guarded, List.flatMap_nil, decodeEscapes]
  | cons c s ih =>
    rw [guarded, List.flatMap_cons, guardChar]
    by_cases hc : c = '_'
    · rw [if_pos hc, hc]
      exact (decodeEscapes_escape rfl).trans (congrArg ('_' :: ·) ih)
    · rw [if_neg hc]
      exact (decodeEscapes_cons hc).trans (congrArg (c :: ·) ih)

lemma guarded_ne_nil {s : Text} (h : s ≠ []) : guarded s ≠ [] := by
  obtain ⟨c, s, rfl⟩ := List.exists_cons_of_ne_nil h
  rw [guarded, List.flatMap_cons, guardChar]
  split <;> simp

end Package

end SheetGloss
