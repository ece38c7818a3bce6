import Mathlib.Data.List.TakeWhile
import Mathlib.Tactic.Lemma
import SheetGloss.Cell.Address
import SheetGloss.Formula.Call
import SheetGloss.Formula.Fill

/-!
# Names and blanks

The character classes of addresses, names and calls by code point, and what trimming does to a text
that stands between blanks.
-/

namespace SheetGloss

/-- What holds of every ASCII code holds of every ASCII character. -/
lemma forall_ascii {P : Char → Prop} (h : ∀ code < 128, P (Char.ofNat code)) (c : Char)
    (hc : c.toNat < 128) : P c := by
  rw [← Char.ofNat_toNat c]
  exact h c.toNat hc

lemma isUpper_iff {c : Char} : c.isUpper = true ↔ 65 ≤ c.toNat ∧ c.toNat ≤ 90 := by
  have h : c.isUpper = decide ('A'.val ≤ c.val ∧ c.val ≤ 'Z'.val) := rfl
  rw [h, decide_eq_true_iff]
  exact and_congr UInt32.le_iff_toNat_le UInt32.le_iff_toNat_le

lemma isAlpha_iff {c : Char} :
    c.isAlpha = true ↔ (65 ≤ c.toNat ∧ c.toNat ≤ 90) ∨ (97 ≤ c.toNat ∧ c.toNat ≤ 122) := by
  have h : c.isAlpha = (c.isUpper || (decide ('a'.val ≤ c.val) && decide (c.val ≤ 'z'.val))) := rfl
  rw [h, Bool.or_eq_true, Bool.and_eq_true, isUpper_iff, decide_eq_true_iff, decide_eq_true_iff]
  exact or_congr Iff.rfl (and_congr UInt32.le_iff_toNat_le UInt32.le_iff_toNat_le)

lemma forall_isAlpha {P : Char → Prop}
    (h : ∀ code < 128, (Char.ofNat code).isAlpha = true → P (Char.ofNat code)) {c : Char}
    (hc : c.isAlpha = true) : P c := by
  have hrange := isAlpha_iff.mp hc
  exact forall_ascii (P := fun c => c.isAlpha = true → P c) h c (by omega) hc

lemma isDigit_iff {c : Char} : c.isDigit = true ↔ 48 ≤ c.toNat ∧ c.toNat ≤ 57 := by
  simp [Char.isDigit, UInt32.le_iff_toNat_le]

lemma isNameChar_iff {c : Char} : Formula.isNameChar c = true ↔
    (65 ≤ c.toNat ∧ c.toNat ≤ 90) ∨ (97 ≤ c.toNat ∧ c.toNat ≤ 122) ∨
      (48 ≤ c.toNat ∧ c.toNat ≤ 57) ∨ c.toNat = 95 ∨ c.toNat = 46 ∨ c.toNat = 36 := by
  simp only [Formula.isNameChar, Char.isAlphanum, Bool.or_eq_true, isAlpha_iff, isDigit_iff,
    beq_iff_eq, ← Char.toNat_inj, or_assoc]
  rfl

lemma isNameChar_of_isAlpha {c : Char} (h : c.isAlpha = true) : Formula.isNameChar c = true := by
  rw [isAlpha_iff] at h
  rw [isNameChar_iff]
  omega

lemma isNameChar_of_isDigit {c : Char} (h : c.isDigit = true) : Formula.isNameChar c = true := by
  rw [isDigit_iff] at h
  rw [isNameChar_iff]
  omega

lemma isNameChar_of_isCallChar {c : Char} (h : Aggregate.isCallChar c = true) :
    Formula.isNameChar c = true := by
  simp only [Aggregate.isCallChar, Bool.or_eq_true, isUpper_iff, isDigit_iff, beq_iff_eq] at h
  rw [isNameChar_iff]
  rcases h with (h | h) | rfl
  · omega
  · omega
  · decide

lemma isCallChar_of_isUpper {c : Char} (h : c.isUpper = true) : Aggregate.isCallChar c = true := by
  simp [Aggregate.isCallChar, h]

/-- A text of name characters that is not empty. -/
structure Formula.IsRun (s : Text) : Prop where
  ne_nil : s ≠ []
  all : ∀ c ∈ s, Formula.isNameChar c = true

lemma isBlank_of_isNameChar {c : Char} (h : Formula.isNameChar c = true) :
    Text.isBlank c = false := by
  rw [isNameChar_iff] at h
  simp [Text.isBlank, Text.blankRanges]
  omega

lemma isQuote_of_isNameChar {c : Char} (h : Formula.isNameChar c = true) :
    Formula.isQuote c = false := by
  rw [isNameChar_iff] at h
  simp [Formula.isQuote, ← Char.toNat_inj]
  omega

lemma isNameChar_of_isBlank {c : Char} (h : Text.isBlank c = true) :
    Formula.isNameChar c = false := by
  rw [← Bool.not_eq_true]
  intro hn
  rw [isBlank_of_isNameChar hn] at h
  cases h

lemma isQuote_of_isBlank {c : Char} (h : Text.isBlank c = true) : Formula.isQuote c = false := by
  rw [← Bool.not_eq_true]
  intro hq
  simp only [Formula.isQuote, Bool.or_eq_true, beq_iff_eq] at hq
  rcases hq with rfl | rfl <;> cases h

lemma isPlain_of_isNameChar {c : Char} (h : Formula.isNameChar c = true) :
    Aggregate.isPlain c = true := by
  rw [isNameChar_iff] at h
  simp [Aggregate.isPlain, ← Char.toNat_inj]
  omega

lemma isDigit_of_isAlpha {c : Char} (h : c.isAlpha = true) : c.isDigit = false := by
  rw [isAlpha_iff] at h
  rw [← Bool.not_eq_true, isDigit_iff]
  omega

namespace Text

variable {α : Type} {p : α → Bool} {body rest : List α}

lemma forall_head?_cons {P : α → Prop} {a : α} : (∀ c ∈ (a :: rest).head?, P c) ↔ P a := by
  simp

/-- A run that satisfies `p`, followed by nothing that does, is what `takeWhile` takes. -/
lemma takeWhile_run (hb : ∀ c ∈ body, p c = true) (hr : ∀ c ∈ rest.head?, p c = false) :
    (body ++ rest).takeWhile p = body := by
  rw [List.takeWhile_append_of_pos hb]
  cases rest with
  | nil => simp
  | cons c rest => simp [hr c rfl]

lemma dropWhile_run (hb : ∀ c ∈ body, p c = true) (hr : ∀ c ∈ rest.head?, p c = false) :
    (body ++ rest).dropWhile p = rest := by
  rw [List.dropWhile_append_of_pos hb]
  cases rest with
  | nil => rfl
  | cons c rest => simp [hr c rfl]

lemma head?_dropWhile (p : Char → Bool) (s : Text) : ∀ c ∈ (s.dropWhile p).head?, p c = false := by
  intro c hc
  induction s with
  | nil => cases hc
  | cons d rest ih =>
    rw [List.dropWhile_cons] at hc
    split at hc
    · exact ih hc
    · next hd =>
      cases hc
      simpa using hd

/-- What trimming leaves, with the blanks behind it. -/
lemma trim_append (s : Text) :
    trim s ++ ((s.dropWhile isBlank).reverse.takeWhile isBlank).reverse = s.dropWhile isBlank := by
  rw [trim, ← List.reverse_append, List.takeWhile_append_dropWhile, List.reverse_reverse]

lemma head?_trim (s : Text) : ∀ c ∈ (trim s).head?, isBlank c = false := by
  intro c hc
  apply head?_dropWhile isBlank s c
  rw [← trim_append, List.head?_append, Option.mem_def.mp hc]
  rfl

lemma getLast?_trim (s : Text) : ∀ c ∈ (trim s).getLast?, isBlank c = false := by
  intro c hc
  rw [trim, List.getLast?_reverse] at hc
  exact head?_dropWhile isBlank _ c hc

/-- A text is what trimming leaves of it, between blanks. -/
lemma exists_trim (s : Text) : ∃ before after : Text, s = before ++ (trim s ++ after) ∧
    (∀ c ∈ before, isBlank c = true) ∧ ∀ c ∈ after, isBlank c = true := by
  refine ⟨s.takeWhile isBlank, ((s.dropWhile isBlank).reverse.takeWhile isBlank).reverse,
    ?_, ?_, ?_⟩
  · rw [trim_append, List.takeWhile_append_dropWhile]
  · intro c hc
    exact List.all_eq_true.mp List.all_takeWhile c hc
  · intro c hc
    exact List.all_eq_true.mp List.all_takeWhile c (List.mem_reverse.mp hc)

lemma trim_eq_nil_iff {s : Text} : trim s = [] ↔ ∀ c ∈ s, isBlank c = true := by
  obtain ⟨before, after, hs, hbefore, hafter⟩ := exists_trim s
  constructor
  · intro htrim c hc
    rw [hs, htrim, List.nil_append, List.mem_append] at hc
    exact hc.elim (hbefore c) (hafter c)
  · intro hall
    cases htrim : trim s with
    | nil => rfl
    | cons c rest =>
      have hmem : c ∈ s := by
        rw [hs, htrim]
        simp
      have hhead := head?_trim s c (by rw [htrim]; rfl)
      rw [hall c hmem] at hhead
      cases hhead

/-- Trimming gives back a text whose ends are no blanks from between blanks. -/
lemma trim_between {before s after : Text} (hb : ∀ c ∈ before, isBlank c = true)
    (hf : ∀ c ∈ s.head?, isBlank c = false) (hl : ∀ c ∈ s.getLast?, isBlank c = false)
    (ha : ∀ c ∈ after, isBlank c = true) : trim (before ++ (s ++ after)) = s := by
  unfold trim
  rw [List.dropWhile_append_of_pos hb]
  cases s with
  | nil =>
    have h : after.dropWhile isBlank = [] := List.dropWhile_eq_nil_iff.mpr ha
    simp [h]
  | cons c s =>
    have hstop : ((c :: s) ++ after).dropWhile isBlank = (c :: s) ++ after := by
      simp [hf c rfl]
    rw [hstop, List.reverse_append, dropWhile_run, List.reverse_reverse]
    · intro d hd
      exact ha d (List.mem_reverse.mp hd)
    · rw [List.head?_reverse]
      exact hl

lemma trim_trim (s : Text) : trim (trim s) = trim s := by
  have h := @trim_between [] (trim s) [] (by simp) (head?_trim s) (getLast?_trim s) (by simp)
  simpa using h

lemma trim_between_of_all {before s after : Text} (hb : ∀ c ∈ before, isBlank c = true)
    (hs : ∀ c ∈ s, isBlank c = false) (ha : ∀ c ∈ after, isBlank c = true) :
    trim (before ++ (s ++ after)) = s :=
  trim_between hb (fun c hc => hs c (List.mem_of_mem_head? hc))
    (fun c hc => hs c (List.mem_of_mem_getLast? hc)) ha

lemma trim_eq_self {s : Text} (hs : ∀ c ∈ s, isBlank c = false) : trim s = s := by
  have h := @trim_between_of_all [] s [] (by simp) hs (by simp)
  simpa using h

lemma ofNat_ne_nil (n : Nat) : ofNat n ≠ [] := Nat.toDigits_ne_nil

lemma isDigit_of_mem_ofNat {n : Nat} {c : Char} (h : c ∈ ofNat n) : c.isDigit = true :=
  Nat.isDigit_of_mem_toDigits (by decide) (by decide) h

lemma decimalValue_ofNat (n : Nat) : decimalValue (ofNat n) = n := Nat.ofDigitChars_ten_toDigits

lemma index?_of_digits {s : Text} (hne : s ≠ []) (hdigit : ∀ c ∈ s, c.isDigit = true)
    (h : decimalValue s < UInt64.size) : index? s = some (decimalValue s) := by
  unfold index?
  split
  · next rest =>
    exact absurd (hdigit '+' List.mem_cons_self) (by decide)
  · rw [if_neg (by simpa [hne] using hdigit)]
    exact if_pos h

lemma index?_ofNat {index : Nat} (h : index < UInt64.size) :
    index? (trim (ofNat index)) = some index := by
  have hdigit : ∀ c ∈ ofNat index, c.isDigit = true := fun c hc =>
    isDigit_of_mem_ofNat hc
  have htrim : trim (ofNat index) = ofNat index :=
    trim_eq_self fun c hc => isBlank_of_isNameChar (isNameChar_of_isDigit (hdigit c hc))
  have hlt : decimalValue (ofNat index) < UInt64.size := by
    rw [decimalValue_ofNat]
    exact h
  rw [htrim, index?_of_digits (ofNat_ne_nil index) hdigit hlt, decimalValue_ofNat]

end Text

end SheetGloss
