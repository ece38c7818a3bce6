import Mathlib.Data.List.Induction
import Mathlib.Data.Nat.Digits.Defs
import SheetGloss.Proofs.AddressText

/-!
# The grammar of addresses

An address in A1 notation is letters that name a column and digits that name a row, each with a
dollar sign before it or not. The letters count in bijective base 26, up to the last column, and the
digits in base 10, from one to the last row. Reading accepts the texts of this grammar, between
blanks, and no others.
-/

namespace SheetGloss

/-- The number that a text stands for in a base, its last character counting ones. -/
def positional (base : Nat) (digit : Char → Nat) (s : Text) : Nat :=
  Nat.ofDigits base (s.reverse.map digit)

lemma positional_concat (base : Nat) (digit : Char → Nat) (s : Text) (c : Char) :
    positional base digit (s ++ [c]) = positional base digit s * base + digit c := by
  rw [positional, positional, List.reverse_append, List.reverse_singleton, List.singleton_append,
    List.map_cons, Nat.ofDigits_cons]
  ring

namespace Column

def alphabet : Text := Text.lit "ABCDEFGHIJKLMNOPQRSTUVWXYZ"

/-- The place of a letter in the alphabet, in either case: `A` is 1 and `Z` is 26. -/
def place (c : Char) : Nat := alphabet.idxOf c.toUpper + 1

/-- The number of a column name in bijective base 26: `A` is 1, `Z` is 26 and `AA` is 27. -/
def ordinal (letters : Text) : Nat := positional 26 place letters

/-- Letters name a column of the sheet. -/
structure IsName (letters : Text) : Prop where
  ne_nil : letters ≠ []
  alpha : ∀ c ∈ letters, c.isAlpha = true
  ordinal_le : ordinal letters ≤ maxColumns

lemma place_eq_letterValue {c : Char} (h : c.isAlpha = true) : place c = letterValue c :=
  forall_isAlpha (P := fun c => place c = letterValue c) (by decide +kernel) h

lemma ordinal_eq_value {letters : Text} (h : ∀ c ∈ letters, c.isAlpha = true) :
    ordinal letters = value 0 letters := by
  induction letters using List.reverseRecOn with
  | nil => rfl
  | append_singleton letters c ih =>
    rw [ordinal, positional_concat, value_append, value_cons, value_nil,
      place_eq_letterValue (h c (by simp)), ← ordinal, ih fun d hd => h d (by simp [hd])]

lemma ordinal_pos {letters : Text} (h : letters ≠ []) : 0 < ordinal letters := by
  obtain ⟨init, c, rfl⟩ := (List.eq_nil_or_concat letters).resolve_left h
  rw [List.concat_eq_append, ordinal, positional_concat, place]
  omega

lemma spelling_iff {column : UInt16} {letters : Text} :
    Spelling column letters ↔ IsName letters ∧ column.toNat + 1 = ordinal letters := by
  constructor
  · intro h
    have hordinal := ordinal_eq_value h.alpha
    rw [h.value_eq] at hordinal
    exact ⟨⟨h.ne_nil, h.alpha, hordinal ▸ h.lt⟩, hordinal.symm⟩
  · rintro ⟨h, hordinal⟩
    have hle := h.ordinal_le
    exact ⟨h.ne_nil, h.alpha, (ordinal_eq_value h.alpha).symm.trans hordinal.symm, by omega⟩

end Column

namespace Text

/-- The code points with the Unicode property White_Space. -/
def whiteSpace : List Nat :=
  [0x9, 0xA, 0xB, 0xC, 0xD, 0x20, 0x85, 0xA0, 0x1680, 0x2000, 0x2001, 0x2002, 0x2003, 0x2004,
    0x2005, 0x2006, 0x2007, 0x2008, 0x2009, 0x200A, 0x2028, 0x2029, 0x202F, 0x205F, 0x3000]

lemma isBlank_iff {c : Char} : isBlank c = true ↔ c.toNat ∈ whiteSpace := by
  simp [isBlank, blankRanges, whiteSpace]
  omega

lemma decimalValue_concat (digits : Text) (c : Char) :
    decimalValue (digits ++ [c]) = 10 * decimalValue digits + (c.toNat - '0'.toNat) := by
  rw [decimalValue, Nat.ofDigitChars_append, Nat.ofDigitChars_cons, Nat.ofDigitChars_nil,
    decimalValue]

lemma decimalValue_eq_positional (digits : Text) :
    decimalValue digits = positional 10 (fun c => c.toNat - '0'.toNat) digits := by
  induction digits using List.reverseRecOn with
  | nil => rfl
  | append_singleton digits c ih =>
    rw [positional_concat, ← ih, decimalValue_concat, Nat.mul_comm]

/-! ### Numbers as they are printed -/

lemma digit_lt_ten {c : Char} (h : c.isDigit = true) : c.toNat - '0'.toNat < 10 := by
  have hrange := isDigit_iff.mp h
  have hzero : '0'.toNat = 48 := rfl
  omega

lemma digitChar_of_isDigit {c : Char} (h : c.isDigit = true) :
    Nat.digitChar (c.toNat - '0'.toNat) = c := by
  have hrange := isDigit_iff.mp h
  exact forall_ascii (P := fun c => c.isDigit = true → Nat.digitChar (c.toNat - '0'.toNat) = c)
    (by decide +kernel) c (by omega) h

lemma ofNat_digit {c : Char} (h : c.isDigit = true) : ofNat (c.toNat - '0'.toNat) = [c] := by
  rw [ofNat, Nat.toDigits_of_lt_base (digit_lt_ten h), digitChar_of_isDigit h]

lemma ofNat_concat {n : Nat} {c : Char} (hn : 0 < n) (h : c.isDigit = true) :
    ofNat (10 * n + (c.toNat - '0'.toNat)) = ofNat n ++ [c] := by
  have hlt := digit_lt_ten h
  rw [ofNat, Nat.toDigits_of_base_le (by decide) (by omega), Nat.mul_add_div (by decide),
    Nat.div_eq_of_lt hlt, Nat.add_zero, Nat.mul_add_mod, Nat.mod_eq_of_lt hlt,
    digitChar_of_isDigit h, ofNat]

/-- Digits without the zeros at their front are the text of their number, or nothing for zero. -/
lemma dropWhile_zero {digits : Text} (h : ∀ c ∈ digits, c.isDigit = true) :
    digits.dropWhile (· == '0') =
      if decimalValue digits = 0 then [] else ofNat (decimalValue digits) := by
  induction digits using List.reverseRecOn with
  | nil => rfl
  | append_singleton digits c ih =>
    have hc : c.isDigit = true := h c (by simp)
    have hrest := ih fun d hd => h d (by simp [hd])
    rw [List.dropWhile_append, hrest, decimalValue_concat]
    by_cases hzero : decimalValue digits = 0
    · -- All digits before the last are zeros, so that the last is alone or a zero too.
      rw [if_pos hzero, if_pos List.isEmpty_nil, hzero, Nat.mul_zero, Nat.zero_add, ofNat_digit hc]
      by_cases hlast : c = '0'
      · rw [hlast]
        rfl
      · have hne : c.toNat - '0'.toNat ≠ 0 := by
          intro heq
          have hchar := digitChar_of_isDigit hc
          rw [heq] at hchar
          exact hlast hchar.symm
        rw [if_neg hne, List.dropWhile_cons, if_neg (by simpa using hlast)]
    · have hne : ¬(ofNat (decimalValue digits)).isEmpty = true := by
        simpa using ofNat_ne_nil _
      rw [if_neg hzero, if_neg hne, if_neg (by omega), ofNat_concat (by omega) hc]

end Text

namespace Column

lemma letter_letterValue {c : Char} (h : c.isAlpha = true) :
    letterValue c ≤ 26 ∧ letter (letterValue c - 1) = c.toUpper :=
  forall_isAlpha (P := fun c => letterValue c ≤ 26 ∧ letter (letterValue c - 1) = c.toUpper)
    (by decide +kernel) h

lemma toUpper_of_isUpper {c : Char} (h : c.isUpper = true) : c.toUpper = c := by
  have hrange := isUpper_iff.mp h
  exact forall_ascii (P := fun c => c.isUpper = true → c.toUpper = c) (by decide +kernel) c
    (by omega) h

/-- The letters of a column are its only name, up to the case. -/
lemma letters_of_value {s : Text} (hne : s ≠ []) (h : ∀ c ∈ s, c.isAlpha = true) :
    letters (value 0 s - 1) = s.map Char.toUpper := by
  induction s using List.reverseRecOn with
  | nil => exact absurd rfl hne
  | append_singleton s c ih =>
    have hc : c.isAlpha = true := h c (by simp)
    have hs : ∀ d ∈ s, d.isAlpha = true := fun d hd => h d (by simp [hd])
    obtain ⟨hle, hletter⟩ := letter_letterValue hc
    have hpos := letterValue_pos hc
    rw [value_append, value_cons, value_nil, List.map_append, List.map_singleton]
    by_cases hnil : s = []
    · rw [hnil, value_nil, Nat.zero_mul, Nat.zero_add, letters, if_pos (by omega), hletter]
      rfl
    · have hvalue : 0 < value 0 s := ordinal_eq_value hs ▸ ordinal_pos hnil
      have hdiv : (value 0 s * 26 + letterValue c - 1) / 26 - 1 = value 0 s - 1 := by omega
      have hmod : (value 0 s * 26 + letterValue c - 1) % 26 = letterValue c - 1 := by omega
      rw [letters, if_neg (by omega), hdiv, hmod, ih hnil hs, hletter]

end Column

/-! ### Parts of an address -/

/-- The parts of an address in A1 notation: letters and digits, and for each whether a dollar sign
stands before it. -/
structure A1 where
  columnFixed : Bool
  letters : Text
  rowFixed : Bool
  digits : Text

namespace A1

def text (parts : A1) : Text :=
  (if parts.columnFixed then ['$'] else []) ++ parts.letters ++
    ((if parts.rowFixed then ['$'] else []) ++ parts.digits)

/-- A text is the parts in their order, with nothing but white space before and after them. -/
def StandsIn (parts : A1) (s : Text) : Prop :=
  ∃ before after : Text, s = before ++ (parts.text ++ after) ∧
    (∀ c ∈ before, c.toNat ∈ Text.whiteSpace) ∧ ∀ c ∈ after, c.toNat ∈ Text.whiteSpace

-- Both numbers count from one.
def column (parts : A1) : Nat := Column.ordinal parts.letters

def row (parts : A1) : Nat := positional 10 (fun c => c.toNat - '0'.toNat) parts.digits

/-- The letters name a column of the sheet, and the digits a row. -/
structure Valid (parts : A1) : Prop where
  letters : Column.IsName parts.letters
  digits_ne_nil : parts.digits ≠ []
  digit : ∀ c ∈ parts.digits, c.isDigit = true
  one_le_row : 1 ≤ parts.row
  row_le : parts.row ≤ maxRows

/-- An address counts from zero what its text counts from one, and is fixed where a dollar sign
stands. -/
structure Denotes (parts : A1) (a : Address) : Prop where
  column : a.column.toNat = parts.column - 1
  row : a.row.toNat = parts.row - 1
  columnFixed : a.columnFixed = parts.columnFixed
  rowFixed : a.rowFixed = parts.rowFixed

variable {parts : A1} {a : Address}

lemma Valid.exists_denotes (h : parts.Valid) : ∃ a, parts.Denotes a := by
  have hcolumn : parts.column ≤ maxColumns := h.letters.ordinal_le
  have hrow := h.row_le
  have hm : maxColumns = 16384 := rfl
  have hr : maxRows = 1048576 := rfl
  refine ⟨⟨UInt32.ofNat (parts.row - 1), UInt16.ofNat (parts.column - 1), parts.rowFixed,
    parts.columnFixed⟩, ?_, ?_, rfl, rfl⟩
  · exact UInt16.toNat_ofNat_of_lt' (show _ < 65536 by omega)
  · exact UInt32.toNat_ofNat_of_lt' (show _ < 4294967296 by omega)

lemma Valid.one_le (h : parts.Valid) : 1 ≤ parts.row ∧ 1 ≤ parts.column :=
  ⟨h.one_le_row, Column.ordinal_pos h.letters.ne_nil⟩

lemma Denotes.inSheet (hdenotes : parts.Denotes a) (h : parts.Valid) :
    a.row.toNat < maxRows ∧ a.column.toNat < maxColumns := by
  obtain ⟨hrow, hcolumn⟩ := h.one_le
  have hrowLe := h.row_le
  have hcolumnLe : parts.column ≤ maxColumns := h.letters.ordinal_le
  have hr := hdenotes.row
  have hc := hdenotes.column
  omega

/-- The letters and digits that spell an address are those of the valid parts that denote it. -/
lemma spelling_iff {letters digits : Text} : a.Spelling letters digits ↔
    Valid ⟨a.columnFixed, letters, a.rowFixed, digits⟩ ∧
      Denotes ⟨a.columnFixed, letters, a.rowFixed, digits⟩ a := by
  have hrow : row ⟨a.columnFixed, letters, a.rowFixed, digits⟩ = Text.decimalValue digits :=
    (Text.decimalValue_eq_positional digits).symm
  constructor
  · intro h
    obtain ⟨hname, hordinal⟩ := Column.spelling_iff.mp h.column
    have hlt := h.lt
    rw [h.value_eq] at hrow
    exact ⟨⟨hname, h.ne_nil, h.digit, by omega, by omega⟩,
      ⟨Nat.eq_sub_of_add_eq hordinal, Nat.eq_sub_of_add_eq hrow.symm, rfl, rfl⟩⟩
  · rintro ⟨h, hdenotes⟩
    have hpos : 1 ≤ Column.ordinal letters := Column.ordinal_pos h.letters.ne_nil
    have hcolumn : a.column.toNat = Column.ordinal letters - 1 := hdenotes.column
    have hvalue := hdenotes.row
    have hone := h.one_le_row
    have hle := h.row_le
    rw [hrow] at hvalue hone hle
    refine ⟨Column.spelling_iff.mpr ⟨h.letters, by omega⟩, h.digits_ne_nil, h.digit, ?_, ?_⟩
    · omega
    · omega

lemma spelled_eq_text {letters digits : Text} : a.spelled letters digits =
    text ⟨a.columnFixed, letters, a.rowFixed, digits⟩ := by
  simp only [text, Address.spelled, Address.mark, List.append_assoc]

/-- Valid parts stand in a text when trimming the text leaves them. -/
lemma Valid.standsIn_iff (h : parts.Valid) {s : Text} :
    parts.StandsIn s ↔ Text.trim s = parts.text := by
  simp only [StandsIn, ← Text.isBlank_iff]
  constructor
  · rintro ⟨before, after, rfl, hbefore, hafter⟩
    obtain ⟨a, ha⟩ := h.exists_denotes
    obtain ⟨columnFixed, letters, rowFixed, digits⟩ := parts
    obtain rfl : a.columnFixed = columnFixed := ha.columnFixed
    obtain rfl : a.rowFixed = rowFixed := ha.rowFixed
    have hrun := Address.isRun_spelled (spelling_iff.mpr ⟨h, ha⟩)
    rw [spelled_eq_text] at hrun
    exact Text.trim_between_of_all hbefore (fun c hc => isBlank_of_isNameChar (hrun.all c hc))
      hafter
  · intro htrim
    rw [← htrim]
    exact Text.exists_trim s

/-! ### Parts as they are printed -/

/-- Valid parts in capital letters whose row does not begin with zero. -/
structure Canonical (parts : A1) : Prop where
  valid : parts.Valid
  capital : ∀ c ∈ parts.letters, c.isUpper = true
  no_zero : parts.digits.head? ≠ some '0'

/-- The parts that an address is printed in. -/
def ofAddress (a : Address) : A1 :=
  ⟨a.columnFixed, Column.letters a.column.toNat, a.rowFixed, Text.ofNat (a.row.toNat + 1)⟩

lemma text_ofAddress (a : Address) : (ofAddress a).text = a.toText := rfl

lemma canonical_ofAddress (hr : a.row.toNat < maxRows) (hc : a.column.toNat < maxColumns) :
    (ofAddress a).Canonical ∧ (ofAddress a).Denotes a := by
  obtain ⟨hvalid, hdenotes⟩ := spelling_iff.mp (Address.spelling_toText hr hc)
  refine ⟨⟨hvalid, fun c hm => Column.isUpper_of_mem_letters _ c hm, ?_⟩, hdenotes⟩
  have hdrop := Text.dropWhile_zero hvalid.digit
  rw [Text.decimalValue_ofNat, if_neg (Nat.succ_ne_zero _)] at hdrop
  intro hzero
  have hhead := Text.head?_dropWhile (· == '0') (Text.ofNat (a.row.toNat + 1)) '0'
  rw [hdrop] at hhead
  exact absurd (hhead hzero) (by decide)

/-- The parts that an address is printed in are the only canonical ones that denote it. -/
lemma Canonical.eq_ofAddress (h : parts.Canonical) (hdenotes : parts.Denotes a) :
    parts = ofAddress a := by
  obtain ⟨columnFixed, letters, rowFixed, digits⟩ := parts
  obtain rfl : a.columnFixed = columnFixed := hdenotes.columnFixed
  obtain rfl : a.rowFixed = rowFixed := hdenotes.rowFixed
  have hspelling := spelling_iff.mpr ⟨h.valid, hdenotes⟩
  have hletters := Column.letters_of_value hspelling.column.ne_nil hspelling.column.alpha
  have hupper : letters.map Char.toUpper = letters :=
    (List.map_congr_left fun c hc => Column.toUpper_of_isUpper (h.capital c hc)).trans
      (List.map_id letters)
  have hdigits := Text.dropWhile_zero hspelling.digit
  rw [hspelling.column.value_eq, Nat.add_sub_cancel, hupper] at hletters
  rw [hspelling.value_eq, if_neg (Nat.succ_ne_zero _)] at hdigits
  have hzero : digits.dropWhile (· == '0') = digits := by
    cases digits with
    | nil => rfl
    | cons c rest => exact List.dropWhile_cons_of_neg (by simpa using h.no_zero)
  rw [ofAddress, hletters, ← hdigits, hzero]

end A1

namespace Address

lemma parse_eq_ok_iff_denotes {s : Text} {a : Address} : parse s = .ok a ↔
    ∃ parts : A1, parts.Valid ∧ Text.trim s = parts.text ∧ parts.Denotes a := by
  rw [parse_eq_ok_iff]
  constructor
  · rintro ⟨letters, digits, h, htext⟩
    obtain ⟨hvalid, hdenotes⟩ := A1.spelling_iff.mp h
    exact ⟨_, hvalid, htext.trans A1.spelled_eq_text, hdenotes⟩
  · rintro ⟨⟨columnFixed, letters, rowFixed, digits⟩, hvalid, htext, hdenotes⟩
    obtain rfl : a.columnFixed = columnFixed := hdenotes.columnFixed
    obtain rfl : a.rowFixed = rowFixed := hdenotes.rowFixed
    exact ⟨letters, digits, A1.spelling_iff.mpr ⟨hvalid, hdenotes⟩,
      htext.trans A1.spelled_eq_text.symm⟩

lemma exists_parse_iff {s : Text} : (∃ a, parse s = .ok a) ↔
    ∃ parts : A1, parts.Valid ∧ Text.trim s = parts.text := by
  constructor
  · rintro ⟨a, ha⟩
    obtain ⟨parts, hvalid, htext, -⟩ := parse_eq_ok_iff_denotes.mp ha
    exact ⟨parts, hvalid, htext⟩
  · rintro ⟨parts, hvalid, htext⟩
    obtain ⟨a, ha⟩ := hvalid.exists_denotes
    exact ⟨a, parse_eq_ok_iff_denotes.mpr ⟨parts, hvalid, htext, ha⟩⟩

lemma exists_parse_error_iff {s : Text} : (∃ e, parse s = .error e) ↔
    ¬∃ parts : A1, parts.Valid ∧ Text.trim s = parts.text := by
  rw [← exists_parse_iff]
  cases parse s <;> simp

/-- Reading accepts a text exactly when it is valid parts in their order, between white space, and
gives the address that they denote; it refuses every other text. -/
theorem parse_follows_grammar (s : Text) :
    (∀ a, parse s = .ok a ↔
      ∃ parts : A1, parts.Valid ∧ parts.StandsIn s ∧ parts.Denotes a) ∧
    ((∃ e, parse s = .error e) ↔ ¬∃ parts : A1, parts.Valid ∧ parts.StandsIn s) := by
  have hstands (parts : A1) :
      parts.Valid ∧ parts.StandsIn s ↔ parts.Valid ∧ Text.trim s = parts.text :=
    and_congr_right fun h => h.standsIn_iff
  constructor
  · intro a
    rw [parse_eq_ok_iff_denotes]
    simp only [← and_assoc, hstands]
  · rw [exists_parse_error_iff]
    simp only [hstands]

/-- The last cell of a sheet, between two kinds of blank, and a cell one column further. -/
example : parse (Text.lit "\u00A0$xFd$001048576\t") = .ok ⟨1048575, 16383, true, true⟩ ∧
    (parse (Text.lit "XFE1")).toOption = none := by
  decide +kernel

end Address

end SheetGloss
