import Mathlib.Tactic.Lemma
import SheetGloss.Text.Utf8

/-!
# Written text

Decoding the bytes of a text gives its characters back, each as a glyph.
-/

namespace SheetGloss

lemma mapM_map_of_some {α β γ : Type} {f : β → Option γ} {g : α → β} {k : α → γ} {l : List α}
    (h : ∀ a ∈ l, f (g a) = some (k a)) : (l.map g).mapM f = some (l.map k) := by
  induction l with
  | nil => rfl
  | cons a l ih =>
    obtain ⟨ha, hl⟩ := List.forall_mem_cons.mp h
    rw [List.map_cons, List.mapM_cons, ha, ih hl]
    rfl

namespace Glyph

lemma ofText_append (s t : Text) : ofText (s ++ t) = ofText s ++ ofText t := List.map_append

lemma ofText_cons (c : Char) (s : Text) : ofText (c :: s) = .char c :: ofText s := rfl

lemma text?_ofText (s : Text) : text? (ofText s) = some s := by
  have hmap : (s.map char).mapM char? = some (s.map id) := mapM_map_of_some fun c _ => rfl
  rw [List.map_id] at hmap
  exact hmap

lemma display_ofText (s : Text) : display (ofText s) = s := by
  induction s with
  | nil => rfl
  | cons c s ih =>
    rw [ofText_cons, display, List.map_cons]
    exact congrArg (c :: ·) ih

lemma ofText_inj {s t : Text} (h : ofText s = ofText t) : s = t := by
  rw [← display_ofText s, h, display_ofText]

end Glyph

namespace Text

lemma charOfCode?_toNat (c : Char) : charOfCode? c.toNat = some c := by
  have h : c.toNat.isValidChar := c.valid
  rw [charOfCode?, dif_pos h]
  rfl

lemma hexDigit?_hexDigit {value : Nat} (h : value < 16) :
    hexDigit? (hexDigit value) = some value := by
  revert h
  revert value
  decide

lemma hexValue?_hexFour {code : Nat} (h : code < 0x10000) :
    hexValue? (hexFour code) = some code := by
  have hdigit (n : Nat) : hexDigit? (hexDigit (n % 16)) = some (n % 16) :=
    hexDigit?_hexDigit (Nat.mod_lt n (by decide))
  have hvalue : hexValue? (hexFour code) = some (16 * (16 * (16 * (16 * 0 + code / 4096 % 16) +
      code / 256 % 16) + code / 16 % 16) + code % 16) := by
    simp [hexValue?, hexFour, hdigit]
  rw [hvalue]
  congr 1
  omega

end Text

namespace Utf8

lemma tail?_toUInt8 {n : Nat} (h : n < 64) : tail? (0x80 + n).toUInt8 = some n := by
  have hn : (0x80 + n).toUInt8.toNat = 0x80 + n := UInt8.toNat_ofNat_of_lt (by
    change 0x80 + n < 2 ^ 8
    omega)
  simp only [tail?, hn]
  rw [if_pos (by simp; omega), Nat.add_sub_cancel_left]

lemma longForm?_toNat {c : Char} {least : Nat} (h : least ≤ c.toNat) :
    longForm? least c.toNat = some c := by
  rw [longForm?, if_neg (by omega), Text.charOfCode?_toNat]

lemma bind_of_eq_some {α β : Type} {o : Option α} {a : α} {f : α → Option β} (h : o = some a) :
    (o >>= f) = f a := by
  rw [h]
  rfl

/-- The bytes of a character are read as that character, whatever follows them. -/
lemma firstChar?_encodeChar (c : Char) (rest : Bytes) : ∃ b tail, encodeChar c = b :: tail ∧
    firstChar? b (tail ++ rest) = some (c, rest) := by
  have hvalid : c.toNat < 0xD800 ∨ 0xDFFF < c.toNat ∧ c.toNat < 0x110000 := c.valid
  have hbyte {n : Nat} (h : n < 256) : n.toUInt8.toNat = n := UInt8.toNat_ofNat_of_lt h
  have htail (n : Nat) : tail? (0x80 + n % 64).toUInt8 = some (n % 64) :=
    tail?_toUInt8 (Nat.mod_lt n (by decide))
  by_cases h₁ : c.toNat < 0x80
  · refine ⟨c.toNat.toUInt8, [], by rw [encodeChar, if_pos h₁], ?_⟩
    simp only [firstChar?, hbyte (show c.toNat < 256 by omega)]
    rw [if_pos h₁, Text.charOfCode?_toNat]
    rfl
  by_cases h₂ : c.toNat < 0x800
  · refine ⟨_, _, by rw [encodeChar, if_neg h₁, if_pos h₂], ?_⟩
    have hcode : (0xC0 + c.toNat / 64 - 0xC0) * 64 + c.toNat % 64 = c.toNat := by omega
    simp only [firstChar?, hbyte (show 0xC0 + c.toNat / 64 < 256 by omega), List.cons_append,
      List.nil_append]
    rw [if_neg (by omega), if_neg (by omega), if_pos (by omega), bind_of_eq_some (htail _), hcode,
      bind_of_eq_some (longForm?_toNat (Nat.not_lt.mp h₁))]
    rfl
  by_cases h₃ : c.toNat < 0x10000
  · refine ⟨_, _, by rw [encodeChar, if_neg h₁, if_neg h₂, if_pos h₃], ?_⟩
    have hcode : (0xE0 + c.toNat / 4096 - 0xE0) * 4096 + c.toNat / 64 % 64 * 64 +
        c.toNat % 64 = c.toNat := by omega
    simp only [firstChar?, hbyte (show 0xE0 + c.toNat / 4096 < 256 by omega), List.cons_append,
      List.nil_append]
    rw [if_neg (by omega), if_neg (by omega), if_neg (by omega), if_pos (by omega),
      bind_of_eq_some (htail _), bind_of_eq_some (htail _), hcode,
      bind_of_eq_some (longForm?_toNat (Nat.not_lt.mp h₂))]
    rfl
  refine ⟨_, _, by rw [encodeChar, if_neg h₁, if_neg h₂, if_neg h₃], ?_⟩
  have hcode : (0xF0 + c.toNat / 262144 - 0xF0) * 262144 + c.toNat / 4096 % 64 * 4096 +
      c.toNat / 64 % 64 * 64 + c.toNat % 64 = c.toNat := by omega
  simp only [firstChar?, hbyte (show 0xF0 + c.toNat / 262144 < 256 by omega), List.cons_append,
    List.nil_append]
  rw [if_neg (by omega), if_neg (by omega), if_neg (by omega), if_neg (by omega),
    if_pos (by omega), bind_of_eq_some (htail _), bind_of_eq_some (htail _),
    bind_of_eq_some (htail _), hcode, bind_of_eq_some (longForm?_toNat (Nat.not_lt.mp h₃))]
  rfl

lemma decode_cons {b : UInt8} {rest after : Bytes} {c : Char}
    (h : firstChar? b rest = some (c, after)) : decode (b :: rest) = .char c :: decode after := by
  rw [decode]
  split
  · next heq =>
    rw [h] at heq
    cases heq
    rfl
  · next heq =>
    rw [h] at heq
    cases heq

theorem decode_encode (s : Text) : decode (encode s) = Glyph.ofText s := by
  induction s with
  | nil => rw [encode, List.flatMap_nil, decode, Glyph.ofText, List.map_nil]
  | cons c s ih =>
    obtain ⟨b, tail, hbytes, hfirst⟩ := firstChar?_encodeChar c (encode s)
    rw [encode, List.flatMap_cons, hbytes, List.cons_append]
    exact (decode_cons hfirst).trans (congrArg (Glyph.char c :: ·) ih)

lemma repair_cons {b : UInt8} {rest after : Bytes} {c : Char}
    (h : firstChar? b rest = some (c, after)) : repair (b :: rest) = c :: repair after := by
  rw [repair]
  split
  · next heq =>
    rw [h] at heq
    cases heq
    rfl
  · next heq =>
    rw [h] at heq
    cases heq

/-- There is nothing to repair in the bytes of a text. -/
lemma repair_encode (s : Text) : repair (encode s) = s := by
  induction s with
  | nil => rw [encode, List.flatMap_nil, repair]
  | cons c s ih =>
    obtain ⟨b, tail, hbytes, hfirst⟩ := firstChar?_encodeChar c (encode s)
    rw [encode, List.flatMap_cons, hbytes, List.cons_append]
    exact (repair_cons hfirst).trans (congrArg (c :: ·) ih)

lemma text?_encode (s : Text) : text? (encode s) = some s := by
  rw [text?, decode_encode, Glyph.text?_ofText]

end Utf8

end SheetGloss
