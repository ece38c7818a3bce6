import Mathlib.Algebra.Order.Field.Power
import Mathlib.Tactic.FieldSimp
import Mathlib.Tactic.NormNum.Pow
import Mathlib.Tactic.Ring
import SheetGloss.Decimal.Display
import SheetGloss.Proofs.AddressRoundTrip
import SheetGloss.Proofs.JsonText

/-!
# Whole numbers in cells

A whole number has many numerals: zeros may stand at either end, and the point may stand anywhere
when an exponent makes up for it. Below `10 ^ 15` all of them are shown as the one canonical text of
the number. The quotient that a numeral stands for is then a number of at most 53 binary digits, so
that nothing is lost when it is rounded.
-/

namespace SheetGloss

/-! ### Numerals as they are written -/

namespace Numeral

/-- A sign, which may be missing. -/
inductive Sign where
  | missing
  | plus
  | minus
  deriving DecidableEq, Repr

namespace Sign

def text : Sign → Text
  | missing => []
  | plus => ['+']
  | minus => ['-']

def negative : Sign → Bool
  | minus => true
  | _ => false

/-- The number with a sign before it. -/
def apply {α : Type} [Neg α] (sign : Sign) (magnitude : α) : α :=
  if sign.negative then -magnitude else magnitude

/-- A sign and a magnitude make an integer only when they are its own. -/
lemma eq_of_apply_eq {sign : Sign} {q : ℚ} {n : ℤ} (hq : 0 ≤ q) (h : sign.apply q = n) :
    q = n.natAbs ∧ sign.apply (n.natAbs : ℤ) = n := by
  unfold apply at *
  split at h
  · next hnegative =>
    have hn : n ≤ 0 := by
      have hle : (n : ℚ) ≤ 0 := h ▸ neg_nonpos.mpr hq
      exact_mod_cast hle
    have habs : (n.natAbs : ℤ) = -n := Int.ofNat_natAbs_of_nonpos hn
    rw [if_pos hnegative, habs, Int.neg_neg, ← Int.cast_natCast n.natAbs, habs, Int.cast_neg, ← h,
      neg_neg]
    exact ⟨rfl, rfl⟩
  · next hnegative =>
    have hn : 0 ≤ n := by
      have hle : (0 : ℚ) ≤ n := h ▸ hq
      exact_mod_cast hle
    have habs : (n.natAbs : ℤ) = n := Int.natAbs_of_nonneg hn
    rw [if_neg hnegative, habs, ← Int.cast_natCast n.natAbs, habs]
    exact ⟨h, rfl⟩

end Sign

/-- Digits, perhaps none. -/
abbrev Digits := {s : Text // ∀ c ∈ s, c.isDigit = true}

/-- An exponent as it is written. -/
structure Exponent where
  /-- Whether its letter is a capital. -/
  capital : Bool
  sign : Sign
  digits : Digits
  ne_nil : digits.1 ≠ []

namespace Exponent

def text (e : Exponent) : Text :=
  (if e.capital then 'E' else 'e') :: (e.sign.text ++ e.digits.1)

def value (e : Exponent) : ℤ := e.sign.apply (Text.decimalValue e.digits.1 : ℤ)

end Exponent

/-- A numeral as it is written. -/
structure Written where
  sign : Sign
  /-- The digits before the point. -/
  whole : Digits
  /-- The digits after the point, when there is one. -/
  fraction : Option Digits
  exponent : Option Exponent
  ne_nil : whole.1 ++ fraction.elim [] (·.1) ≠ []

namespace Written

variable (w : Written)

/-- The digits after the point. -/
def places : Text := w.fraction.elim [] (·.1)

def exponentText : Text := w.exponent.elim [] Exponent.text

/-- What follows the sign. -/
def body : Text := w.whole.1 ++ (w.fraction.elim [] ('.' :: ·.1) ++ w.exponentText)

def text : Text := w.sign.text ++ w.body

/-- The power of ten that the exponent names. -/
def power : ℤ := w.exponent.elim 0 Exponent.value

/-- The number that a numeral stands for. -/
def value : ℚ := w.sign.apply
  (((Text.decimalValue w.whole.1 : ℚ) + Text.decimalValue w.places / 10 ^ w.places.length) *
    10 ^ w.power)

/-- What is read from a numeral. -/
def numeral : Numeral :=
  ⟨w.sign.negative, Text.decimalValue (w.whole.1 ++ w.places), w.power - w.places.length⟩

end Written

/-! ### Reading a numeral -/

lemma sign_text (sign : Sign) {c : Char} {rest : Text} (hplus : c ≠ '+') (hminus : c ≠ '-') :
    Numeral.sign (sign.text ++ c :: rest) = (sign.negative, c :: rest) := by
  cases sign with
  | missing =>
    rw [Sign.text, List.nil_append, Numeral.sign]
    · rfl
    · exact fun _ h => hplus (List.cons.inj h).1
    · exact fun _ h => hminus (List.cons.inj h).1
  | plus => rfl
  | minus => rfl

lemma ne_sign {c : Char} (h : c.isDigit = true ∨ c = '.') : c ≠ '+' ∧ c ≠ '-' := by
  rcases h with h | rfl
  · constructor
    · rintro rfl
      cases h
    · rintro rfl
      cases h
  · decide

lemma exponentPart?_text (e : Exponent) : exponentPart? e.text = some e.value := by
  obtain ⟨capital, sign, ⟨digits, hdigits⟩, hne⟩ := e
  obtain ⟨c, rest, rfl⟩ := List.exists_cons_of_ne_nil hne
  obtain ⟨hplus, hminus⟩ := ne_sign (Or.inl (hdigits c List.mem_cons_self))
  have hletter : ((if capital then 'E' else 'e') == 'e' ||
      (if capital then 'E' else 'e') == 'E') = true := by
    cases capital <;> decide
  have hall : (c :: rest).all Char.isDigit = true := List.all_eq_true.mpr hdigits
  rw [Exponent.text, exponentPart?, if_pos hletter, sign_text sign hplus hminus]
  simp only [wholeDigits?, hall, List.isEmpty_cons, Bool.not_true, Bool.or_self,
    Bool.false_eq_true, if_false]
  rfl

namespace Written

variable (w : Written)

lemma exists_head : ∃ c rest, w.body = c :: rest ∧ (c.isDigit = true ∨ c = '.') := by
  obtain ⟨sign, ⟨whole, hwhole⟩, fraction, exponent, hne⟩ := w
  cases whole with
  | cons c rest => exact ⟨c, _, rfl, Or.inl (hwhole c List.mem_cons_self)⟩
  | nil =>
    cases fraction with
    | some digits => exact ⟨'.', _, rfl, Or.inr rfl⟩
    | none => exact absurd rfl hne

lemma sign_text : Numeral.sign w.text = (w.sign.negative, w.body) := by
  obtain ⟨c, rest, hbody, hc⟩ := w.exists_head
  rw [text, hbody]
  exact Numeral.sign_text w.sign (ne_sign hc).1 (ne_sign hc).2

lemma exponentText_head : ∀ c ∈ w.exponentText.head?, c = 'E' ∨ c = 'e' := by
  intro c hc
  rw [exponentText] at hc
  cases hexponent : w.exponent with
  | none =>
    rw [hexponent] at hc
    cases hc
  | some e =>
    rw [hexponent] at hc
    cases hc
    cases e.capital
    · exact Or.inr rfl
    · exact Or.inl rfl

lemma mantissa_body : mantissa w.body = (w.whole.1, w.places, w.exponentText) := by
  have hdigit : ∀ c ∈ w.exponentText.head?, c.isDigit = false := by
    intro c hc
    rcases w.exponentText_head c hc with rfl | rfl <;> rfl
  cases hfraction : w.fraction with
  | none =>
    have hbody : w.body = w.whole.1 ++ w.exponentText := by
      rw [body, hfraction]
      rfl
    have hplaces : w.places = [] := by
      rw [places, hfraction]
      rfl
    rw [hbody, hplaces, mantissa, Text.takeWhile_run w.whole.2 hdigit,
      Text.dropWhile_run w.whole.2 hdigit]
    split
    · next rest hpoint =>
      have hhead := w.exponentText_head '.' (by rw [hpoint]; rfl)
      exact absurd hhead (by decide)
    · rfl
  | some digits =>
    have hbody : w.body = w.whole.1 ++ '.' :: (digits.1 ++ w.exponentText) := by
      rw [body, hfraction]
      rfl
    have hplaces : w.places = digits.1 := by
      rw [places, hfraction]
      rfl
    have hpoint : ∀ c ∈ ('.' :: (digits.1 ++ w.exponentText)).head?, c.isDigit = false := by
      intro c hc
      cases hc
      rfl
    rw [hbody, hplaces, mantissa, Text.takeWhile_run w.whole.2 hpoint,
      Text.dropWhile_run w.whole.2 hpoint]
    simp only [Text.takeWhile_run digits.2 hdigit, Text.dropWhile_run digits.2 hdigit]

lemma exponentPart?_exponentText : exponentPart? w.exponentText = some w.power := by
  rw [exponentText, power]
  cases w.exponent with
  | none => rfl
  | some e => exact exponentPart?_text e

lemma parse?_text : Numeral.parse? w.text = some w.numeral := by
  have hdigits : (w.whole.1.isEmpty && w.places.isEmpty) = false := by
    rw [Bool.eq_false_iff, ne_eq, Bool.and_eq_true, List.isEmpty_iff, List.isEmpty_iff,
      ← List.append_eq_nil_iff]
    exact w.ne_nil
  simp only [Numeral.parse?, w.sign_text, w.mantissa_body, hdigits, w.exponentPart?_exponentText,
    Option.bind_eq_bind, Option.bind_some]
  rfl

/-- The point is put behind the last digit, and the power of ten lowered by the places after it. -/
lemma value_eq :
    w.value = w.sign.apply ((w.numeral.coefficient : ℚ) * 10 ^ w.numeral.exponent) := by
  have hdigits : Text.decimalValue (w.whole.1 ++ w.places) =
      10 ^ w.places.length * Text.decimalValue w.whole.1 + Text.decimalValue w.places := by
    rw [Text.decimalValue, Nat.ofDigitChars_append, Nat.ofDigitChars_eq_ofDigitChars_zero]
    rfl
  have hten : (10 : ℚ) ≠ 0 := by norm_num
  rw [value, numeral, hdigits]
  push_cast
  rw [zpow_sub₀ hten, zpow_natCast]
  congr 1
  field_simp

end Written

end Numeral

/-! ### Whole numbers in 53 binary digits -/

namespace Text

lemma length_ofNat_bounds {n : Nat} (h : 0 < n) :
    10 ^ ((ofNat n).length - 1) ≤ n ∧ n < 10 ^ (ofNat n).length := by
  have hpos : 0 < (ofNat n).length := Nat.length_toDigits_pos
  have hle {k : Nat} (hk : 0 < k) : (ofNat n).length ≤ k ↔ n < 10 ^ k :=
    Nat.length_toDigits_le_iff (by decide) hk
  refine ⟨?_, (hle hpos).mp (Nat.le_refl _)⟩
  rcases Nat.eq_zero_or_pos ((ofNat n).length - 1) with hone | hmore
  · rw [hone]
    exact h
  · exact Nat.not_lt.mp fun hlt => absurd ((hle hmore).mpr hlt) (by omega)

end Text

namespace Binary64

variable {n den : Nat}

lemma roundDiv_mul (a : Nat) (hden : 0 < den) : roundDiv (a * den) den = a := by
  have hrest : 2 * (a * den % den) < den := by
    rw [Nat.mul_mod_left]
    exact hden
  rw [roundDiv, Nat.mul_div_cancel a hden, if_pos]
  rw [decide_eq_true hrest, Bool.true_or]

/-- The first guess is right, or one too great because the rests of both logarithms add up. -/
lemma floorLog2_mul (hn : 0 < n) (hden : 0 < den) : floorLog2 (n * den) den = n.log2 := by
  have hnum : n * den ≠ 0 := Nat.mul_ne_zero hn.ne' hden.ne'
  have hlow : n.log2 + den.log2 ≤ (n * den).log2 := by
    rw [Nat.le_log2 hnum, Nat.pow_add]
    exact Nat.mul_le_mul (Nat.log2_self_le hn.ne') (Nat.log2_self_le hden.ne')
  have hhigh : (n * den).log2 < n.log2 + den.log2 + 2 := by
    rw [Nat.log2_lt hnum, show n.log2 + den.log2 + 2 = n.log2 + 1 + (den.log2 + 1) by omega,
      Nat.pow_add]
    exact Nat.mul_lt_mul'' Nat.lt_log2_self Nat.lt_log2_self
  have htest (k : Nat) : den * 2 ^ k ≤ n * den ↔ k ≤ n.log2 := by
    rw [Nat.mul_comm n den, Nat.mul_le_mul_left_iff hden, Nat.le_log2 hn.ne']
  obtain ⟨k, hk⟩ := Nat.exists_eq_add_of_le hlow
  have hguess : ((n * den).log2 : ℤ) - den.log2 = ((n.log2 + k : Nat) : ℤ) := by
    omega
  simp only [floorLog2, hguess, Nat.pow_eq, Int.toNat_natCast, Int.toNat_neg_natCast,
    Nat.pow_zero, Nat.mul_one, htest]
  split <;> omega

/-- A quotient that is a natural number below `2 ^ 53` is scaled to 53 binary digits, and nothing is
rounded. -/
lemma ofRatio_mul (negative : Bool) (hn : 0 < n) (hlt : n < 2 ^ 53) (hden : 0 < den) :
    ofRatio negative (n * den) den =
      finite negative (n * 2 ^ (52 - n.log2)) (-((52 - n.log2 : Nat) : ℤ)) := by
  have hlog : n.log2 ≤ 52 := Nat.le_of_lt_succ ((Nat.log2_lt hn.ne').mpr hlt)
  have hexponent : max ((n.log2 : ℤ) - 52) (-1074) = -((52 - n.log2 : Nat) : ℤ) := by
    omega
  have hmantissa : roundDiv (n * den * 2 ^ (52 - n.log2)) den = n * 2 ^ (52 - n.log2) := by
    rw [Nat.mul_right_comm]
    exact roundDiv_mul _ hden
  have hfits : n * 2 ^ (52 - n.log2) < 2 ^ 53 := by
    calc n * 2 ^ (52 - n.log2)
        < 2 ^ (n.log2 + 1) * 2 ^ (52 - n.log2) :=
          Nat.mul_lt_mul_of_pos_right Nat.lt_log2_self (Nat.two_pow_pos _)
      _ = 2 ^ 53 := by
          rw [← Nat.pow_add]
          congr 1
          omega
  rw [ofRatio, if_neg (Nat.mul_ne_zero hn.ne' hden.ne')]
  simp only [floorLog2_mul hn hden, hexponent, Int.neg_neg, Int.toNat_natCast,
    Int.toNat_neg_natCast, Nat.pow_eq, Nat.pow_zero, Nat.mul_one, hmantissa, if_neg hfits.ne]
  rw [if_neg (by omega)]

lemma whole?_shifted (n k : Nat) : whole? (n * 2 ^ k) (-(k : ℤ)) = some n := by
  rw [whole?, Int.neg_neg, Int.toNat_natCast, Int.toNat_neg_natCast, Nat.pow_eq, Nat.pow_eq,
    Nat.mul_mod_left, if_pos rfl, Nat.mul_div_cancel n (Nat.two_pow_pos k), Nat.pow_zero,
    Nat.mul_one]

/-- The magnitude of a numeral that stands for a whole number of at most 53 binary digits is not
beyond the bounds outside which it is not computed. -/
lemma magnitude_bounds {c p q : Nat} (hn : 0 < n) (hlt : n < 2 ^ 53) (hc : 0 < c)
    (h : c * 10 ^ p = n * 10 ^ q) :
    q < (Text.ofNat c).length + p ∧ (Text.ofNat c).length + p ≤ 16 + q := by
  obtain ⟨hlow, hhigh⟩ := Text.length_ofNat_bounds hc
  have hpos (k : Nat) : 0 < 10 ^ k := Nat.pow_pos (by decide)
  constructor
  · rw [← Nat.pow_lt_pow_iff_right (a := 10) (by decide), Nat.pow_add]
    calc 10 ^ q ≤ n * 10 ^ q := Nat.le_mul_of_pos_left _ hn
      _ = c * 10 ^ p := h.symm
      _ < 10 ^ (Text.ofNat c).length * 10 ^ p := Nat.mul_lt_mul_of_pos_right hhigh (hpos p)
  · have hpow : 10 ^ ((Text.ofNat c).length - 1 + p) < 10 ^ (16 + q) := by
      rw [Nat.pow_add, Nat.pow_add]
      calc 10 ^ ((Text.ofNat c).length - 1) * 10 ^ p
          ≤ c * 10 ^ p := Nat.mul_le_mul_right _ hlow
        _ = n * 10 ^ q := h
        _ < 10 ^ 16 * 10 ^ q := Nat.mul_lt_mul_of_pos_right (by omega) (hpos q)
    have hlt := (Nat.pow_lt_pow_iff_right (by decide)).mp hpow
    omega

lemma zpow_eq_div (e : ℤ) : (10 : ℚ) ^ e = 10 ^ e.toNat / 10 ^ (-e).toNat := by
  have hten : (10 : ℚ) ≠ 0 := by norm_num
  rw [← zpow_natCast, ← zpow_natCast, ← zpow_sub₀ hten]
  congr 1
  omega

/-- A numeral for a whole number of at most 53 binary digits is read as that number. -/
lemma ofNumeral_whole {numeral : Numeral} (hlt : n < 2 ^ 53)
    (hvalue : (numeral.coefficient : ℚ) * 10 ^ numeral.exponent = n) :
    ∃ mantissa exponent, ofNumeral numeral = finite numeral.negative mantissa exponent ∧
      whole? mantissa exponent = some n := by
  by_cases hzero : numeral.coefficient = 0
  · have hn : n = 0 := by
      rw [hzero, Nat.cast_zero, zero_mul] at hvalue
      exact_mod_cast hvalue.symm
    refine ⟨0, -1074, ?_, ?_⟩
    · simp only [ofNumeral, if_pos hzero]
    · rw [whole?, Nat.zero_mod, if_pos rfl, Nat.zero_div, Nat.zero_mul, hn]
  · have hscaled : numeral.coefficient * 10 ^ numeral.exponent.toNat =
        n * 10 ^ (-numeral.exponent).toNat := by
      have hpow : (10 : ℚ) ^ (-numeral.exponent).toNat ≠ 0 := by positivity
      rw [zpow_eq_div, ← mul_div_assoc, div_eq_iff hpow] at hvalue
      exact_mod_cast hvalue
    have hpos : 0 < n := by
      refine Nat.pos_of_ne_zero fun hn => ?_
      rw [hn, Nat.zero_mul] at hscaled
      exact absurd hscaled (Nat.mul_ne_zero hzero (Nat.pow_pos (by decide)).ne')
    obtain ⟨hlow, hhigh⟩ := magnitude_bounds hpos hlt (Nat.pos_of_ne_zero hzero) hscaled
    refine ⟨_, _, ?_, whole?_shifted n (52 - n.log2)⟩
    simp only [ofNumeral, if_neg hzero, Nat.pow_eq, hscaled]
    rw [if_neg (by omega), if_neg (by omega),
      ofRatio_mul numeral.negative hpos hlt (Nat.pow_pos (by decide))]

lemma parse?_text (w : Numeral.Written) : parse? w.text = some (ofNumeral w.numeral) := by
  obtain ⟨c, rest, hbody, hc⟩ := w.exists_head
  have hlower : c.toLower ≠ 'i' ∧ c.toLower ≠ 'n' := by
    rcases hc with hc | rfl
    · have hrange := isDigit_iff.mp hc
      exact forall_ascii (P := fun c => c.isDigit = true → c.toLower ≠ 'i' ∧ c.toLower ≠ 'n')
        (by decide +kernel) c (by omega) hc
    · decide
  have hword {d : Char} (word : Text) (h : c.toLower ≠ d) :
      Text.lower (c :: rest) ≠ d :: word := fun heq => h (List.cons.inj heq).1
  simp only [parse?, w.sign_text, hbody]
  rw [if_neg, if_neg, w.parse?_text, Option.map_some]
  · exact hword _ hlower.2
  · rw [Bool.or_eq_true, decide_eq_true_eq, decide_eq_true_eq]
    rintro (h | h)
    · exact hword _ hlower.1 h
    · exact hword _ hlower.1 h

end Binary64

/-! ### The canonical text of an integer -/

/-- The canonical texts of an integer: a minus sign below zero and no sign else, and then the digits
of its magnitude, of which the first is a zero only when it is the only one. -/
def IsCanonical (n : ℤ) (s : Text) : Prop :=
  ∃ digits : Numeral.Digits, s = (if n < 0 then ['-'] else []) ++ digits.1 ∧ digits.1 ≠ [] ∧
    Text.decimalValue digits.1 = n.natAbs ∧ (digits.1.head? = some '0' → digits.1 = ['0'])

lemma ofInt_eq (n : ℤ) :
    Text.ofInt n = (if n < 0 then ['-'] else []) ++ Text.ofNat n.natAbs := by
  cases n with
  | ofNat k =>
    rw [if_neg (by simp)]
    rfl
  | negSucc k =>
    rw [if_pos (Int.negSucc_lt_zero k)]
    rfl

/-- Digits that do not begin with a zero they could do without are printed from their number. -/
lemma ofNat_decimalValue {digits : Numeral.Digits} (hne : digits.1 ≠ [])
    (hzero : digits.1.head? = some '0' → digits.1 = ['0']) :
    Text.ofNat (Text.decimalValue digits.1) = digits.1 := by
  obtain ⟨s, hs⟩ := digits
  obtain ⟨c, rest, rfl⟩ := List.exists_cons_of_ne_nil hne
  by_cases hc : c = '0'
  · rw [hzero (congrArg some hc)]
    rfl
  · have hdrop := Text.dropWhile_zero hs
    rw [List.dropWhile_cons, if_neg (by simpa using hc)] at hdrop
    split at hdrop
    · cases hdrop
    · exact hdrop.symm

lemma isCanonical_iff {n : ℤ} {s : Text} : IsCanonical n s ↔ s = Text.ofInt n := by
  rw [ofInt_eq]
  constructor
  · rintro ⟨digits, rfl, hne, hvalue, hzero⟩
    rw [← hvalue, ofNat_decimalValue hne hzero]
  · rintro rfl
    refine ⟨⟨Text.ofNat n.natAbs, fun _ => Text.isDigit_of_mem_ofNat⟩, rfl, Text.ofNat_ne_nil _,
      Text.decimalValue_ofNat _, fun hhead => ?_⟩
    rcases Nat.eq_zero_or_pos n.natAbs with hn | hn
    · simp only [hn]
      rfl
    · exact absurd hhead (Json.head?_ofNat hn)

/-! ### Shown numbers -/

/-- A numeral for an integer of magnitude below `10 ^ 15` is shown as the canonical text of the
integer, of which there is only one. -/
theorem displayNumber_whole (w : Numeral.Written) {n : ℤ} (hvalue : w.value = n)
    (hn : |n| < 10 ^ 15) :
    IsCanonical n (displayNumber w.text) ∧ ∀ s, IsCanonical n s → s = displayNumber w.text := by
  rw [w.value_eq] at hvalue
  obtain ⟨hmagnitude, hsign⟩ := Numeral.Sign.eq_of_apply_eq (by positivity) hvalue
  have hlt : n.natAbs < wholeLimit := by
    rw [Int.abs_eq_natAbs] at hn
    exact_mod_cast hn
  obtain ⟨mantissa, exponent, hread, hwhole⟩ :=
    Binary64.ofNumeral_whole (hlt.trans (by decide)) hmagnitude
  have hdisplay : displayNumber w.text = Text.ofInt n := by
    simp only [displayNumber, Binary64.parse?_text, hread, Binary64.display, hwhole, if_pos hlt]
    exact congrArg Text.ofInt hsign
  rw [hdisplay]
  exact ⟨isCanonical_iff.mpr rfl, fun s => isCanonical_iff.mp⟩

/-- Zeros at both ends, a point and an exponent that lowers the number by two places. -/
theorem displayNumber_whole_zeros :
    ∃ w : Numeral.Written, w.text = Text.lit "-0012300.00e-2" ∧ w.value = (-123 : ℤ) ∧
      |(-123 : ℤ)| < 10 ^ 15 ∧ displayNumber w.text = Text.lit "-123" := by
  let w : Numeral.Written :=
    { sign := .minus
      whole := ⟨Text.lit "0012300", List.all_eq_true.mp (by decide)⟩
      fraction := some ⟨Text.lit "00", List.all_eq_true.mp (by decide)⟩
      exponent := some ⟨false, .minus, ⟨Text.lit "2", List.all_eq_true.mp (by decide)⟩, by decide⟩
      ne_nil := by decide }
  have hvalue : w.value = (-123 : ℤ) := by
    have hwhole : Text.decimalValue w.whole.1 = 12300 := by decide +kernel
    have hplaces : Text.decimalValue w.places = 0 := by decide +kernel
    have hpower : w.power = -2 := by decide +kernel
    have hsign : w.sign.negative = true := rfl
    rw [Numeral.Written.value, Numeral.Sign.apply, hwhole, hplaces, hpower, if_pos hsign]
    norm_num
  have hn : |(-123 : ℤ)| < 10 ^ 15 := by norm_num
  have hcanonical : IsCanonical (-123) (Text.lit "-123") := isCanonical_iff.mpr (by decide +kernel)
  have hdisplay := (displayNumber_whole w hvalue hn).2 _ hcanonical
  exact ⟨w, by decide +kernel, hvalue, hn, hdisplay.symm⟩

example : displayNumber (Text.lit "-.00E+99999999") = Text.lit "0" := by decide +kernel

end SheetGloss
