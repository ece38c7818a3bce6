import SheetGloss.Cell.Span
import SheetGloss.Proofs.NameText

/-!
# The text of an address

An address is spelled by column letters and row digits, each with a dollar sign before it when the
part is fixed. Reading accepts exactly the spellings, between blanks, and the A1 text of an address
inside the sheet is one of its spellings.
-/

namespace SheetGloss

namespace Column

/-- The number of digits in bijective base 26, after some whose number is `before`. -/
def number (before : Nat) : List Nat → Nat
  | [] => before
  | digit :: rest => number (before * 26 + digit) rest

/-- The number that letters stand for, after some whose number is `before`. -/
def value (before : Nat) (s : Text) : Nat := number before (s.map letterValue)

lemma value_nil (before : Nat) : value before [] = before := rfl

lemma value_cons (before : Nat) (c : Char) (s : Text) :
    value before (c :: s) = value (before * 26 + letterValue c) s := by
  rw [value, List.map_cons, number, value]

lemma value_append (before : Nat) (s t : Text) :
    value before (s ++ t) = value (value before s) t := by
  induction s generalizing before with
  | nil => rfl
  | cons c s ih => rw [List.cons_append, value_cons, value_cons, ih]

lemma le_value (before : Nat) (s : Text) : before ≤ value before s := by
  induction s generalizing before with
  | nil => exact Nat.le_refl before
  | cons c s ih =>
    have h := ih (before * 26 + letterValue c)
    rw [value_cons]
    omega

lemma letterValue_pos {c : Char} (h : c.isAlpha = true) : 0 < letterValue c :=
  forall_isAlpha (P := fun c => 0 < letterValue c) (by decide) h

lemma letterValue_letter {digit : Nat} (h : digit < 26) :
    letterValue (letter digit) = digit + 1 := by
  have hall : ∀ n < 26, letterValue (letter n) = n + 1 := by decide
  exact hall digit h

lemma isUpper_letter {digit : Nat} (h : digit < 26) : (letter digit).isUpper = true := by
  have hall : ∀ n < 26, (letter n).isUpper = true := by decide
  exact hall digit h

lemma isUpper_of_mem_letters (column : Nat) : ∀ c ∈ letters column, c.isUpper = true := by
  fun_induction letters column with
  | case1 column h =>
    intro c hc
    rw [List.mem_singleton.mp hc]
    exact isUpper_letter h
  | case2 column h ih =>
    intro c hc
    rcases List.mem_append.mp hc with hc | hc
    · exact ih c hc
    · rw [List.mem_singleton.mp hc]
      exact isUpper_letter (Nat.mod_lt _ (by decide))

lemma value_letters (column : Nat) : value 0 (letters column) = column + 1 := by
  fun_induction letters column with
  | case1 column h =>
    rw [value_cons, value_nil, letterValue_letter h]
    omega
  | case2 column h ih =>
    rw [value_append, ih, value_cons, value_nil, letterValue_letter (Nat.mod_lt _ (by decide))]
    omega

lemma letters_ne_nil (column : Nat) : letters column ≠ [] := by
  rw [letters]
  split <;> simp

/-- Letters spell a column of the sheet. -/
structure Spelling (column : UInt16) (letters : Text) : Prop where
  ne_nil : letters ≠ []
  alpha : ∀ c ∈ letters, c.isAlpha = true
  value_eq : value 0 letters = column.toNat + 1
  lt : column.toNat < maxColumns

lemma readFrom_eq_ok {before : Nat} {s : Text} (hs : ∀ c ∈ s, c.isAlpha = true)
    (hv : value before s ≤ maxColumns) :
    readFrom before s = .ok (UInt16.ofNat (value before s - 1)) := by
  induction s generalizing before with
  | nil => rfl
  | cons c s ih =>
    rw [value_cons] at hv
    have hle := le_value (before * 26 + letterValue c) s
    rw [readFrom, if_pos (hs c List.mem_cons_self), if_neg (by omega), value_cons]
    exact ih (fun d hd => hs d (List.mem_cons_of_mem c hd)) hv

lemma readFrom_ok {before : Nat} {s : Text} {column : UInt16} (hb : before ≤ maxColumns)
    (h : readFrom before s = .ok column) : (∀ c ∈ s, c.isAlpha = true) ∧
      value before s ≤ maxColumns ∧ column = UInt16.ofNat (value before s - 1) := by
  induction s generalizing before with
  | nil =>
    cases h
    exact ⟨by simp, hb, rfl⟩
  | cons c s ih =>
    rw [readFrom] at h
    split at h
    · next hc =>
      dsimp only at h
      split at h
      · cases h
      · next hle =>
        obtain ⟨hs, hv, he⟩ := ih (by omega) h
        rw [value_cons]
        refine ⟨?_, hv, he⟩
        intro d hd
        rcases List.mem_cons.mp hd with rfl | hd
        · exact hc
        · exact hs d hd
    · cases h

lemma ofLetters_eq_ok_iff {s : Text} {column : UInt16} :
    ofLetters s = .ok column ↔ Spelling column s := by
  unfold ofLetters
  constructor
  · intro h
    split at h
    · cases h
    · next hne =>
      obtain ⟨hs, hv, rfl⟩ := readFrom_ok (Nat.zero_le _) h
      obtain ⟨c, rest, rfl⟩ := List.exists_cons_of_ne_nil (l := s) (fun he => hne (by rw [he]; rfl))
      have hpos := letterValue_pos (hs c List.mem_cons_self)
      have hle := le_value (0 * 26 + letterValue c) rest
      rw [← value_cons] at hle
      have hm : maxColumns = 16384 := rfl
      have hn : (UInt16.ofNat (value 0 (c :: rest) - 1)).toNat = value 0 (c :: rest) - 1 := by
        rw [UInt16.toNat_ofNat', Nat.mod_eq_of_lt (by omega)]
      exact ⟨by simp, hs, by omega, by omega⟩
  · intro h
    have hm := h.value_eq
    have hlt := h.lt
    rw [if_neg (by simpa using h.ne_nil), readFrom_eq_ok h.alpha (by omega), h.value_eq,
      Nat.add_sub_cancel, UInt16.ofNat_toNat]

lemma spelling_letters {column : UInt16} (h : column.toNat < maxColumns) :
    Spelling column (letters column.toNat) := by
  refine ⟨letters_ne_nil _, ?_, value_letters _, h⟩
  intro c hc
  exact isAlpha_iff.mpr (Or.inl (isUpper_iff.mp (isUpper_of_mem_letters _ c hc)))

end Column

namespace Address

lemma mark_dollar (s : Text) : mark (dollar s).1 ++ (dollar s).2 = s := by
  unfold dollar
  split <;> rfl

lemma dollar_mark (fixed : Bool) {s : Text} (h : ∀ c ∈ s.head?, c ≠ '$') :
    dollar (mark fixed ++ s) = (fixed, s) := by
  cases fixed with
  | true => rfl
  | false =>
    change dollar s = (false, s)
    unfold dollar
    split
    · exact absurd rfl (h '$' rfl)
    · rfl

lemma head?_append_of_ne_nil {s : Text} (t : Text) (h : s ≠ []) : (s ++ t).head? = s.head? := by
  cases s with
  | nil => exact absurd rfl h
  | cons c s => rfl

lemma splitColumn_eq_ok_iff {s rest : Text} {column : UInt16} {fixed : Bool} :
    splitColumn s = .ok (column, fixed, rest) ↔ ∃ letters, Column.Spelling column letters ∧
      s = mark fixed ++ (letters ++ rest) ∧ ∀ c ∈ rest.head?, c.isAlpha = false := by
  constructor
  · intro h
    simp only [splitColumn] at h
    split at h
    · cases h
    · cases hl : Column.ofLetters ((dollar s).2.takeWhile Char.isAlpha) with
      | error e => simp [hl, bind, Except.bind] at h
      | ok c =>
        simp only [hl, bind, Except.bind, pure, Except.pure, Except.ok.injEq, Prod.mk.injEq] at h
        obtain ⟨rfl, rfl, rfl⟩ := h
        refine ⟨_, Column.ofLetters_eq_ok_iff.mp hl, ?_, Text.head?_dropWhile _ _⟩
        rw [List.takeWhile_append_dropWhile, mark_dollar]
  · rintro ⟨letters, hl, rfl, hr⟩
    have hhead : ∀ c ∈ (letters ++ rest).head?, c ≠ '$' := by
      intro c hc hd
      rw [head?_append_of_ne_nil rest hl.ne_nil] at hc
      have halpha := hl.alpha c (List.mem_of_mem_head? hc)
      rw [hd] at halpha
      exact absurd halpha (by decide)
    simp only [splitColumn, dollar_mark fixed hhead, Text.takeWhile_run hl.alpha hr,
      Text.dropWhile_run hl.alpha hr, Column.ofLetters_eq_ok_iff.mpr hl]
    rw [if_neg (by simpa using hl.ne_nil)]
    rfl

lemma readRow_eq_ok_iff {source digits : Text} {row : UInt32} :
    readRow source digits = .ok row ↔ digits ≠ [] ∧ (∀ c ∈ digits, c.isDigit = true) ∧
      Text.decimalValue digits = row.toNat + 1 ∧ row.toNat < maxRows := by
  have hm : maxRows = 1048576 := rfl
  have hsize : UInt32.size = 4294967296 := rfl
  unfold readRow
  constructor
  · intro h
    split at h
    · cases h
    split at h
    · cases h
    dsimp only at h
    split at h
    · cases h
    split at h
    · cases h
    split at h
    · cases h
    next hne hdigits _ hzero hlt =>
    cases h
    have hn : (UInt32.ofNat (Text.decimalValue digits - 1)).toNat =
        Text.decimalValue digits - 1 := by
      rw [UInt32.toNat_ofNat', Nat.mod_eq_of_lt (by omega)]
    exact ⟨by simpa using hne, by simpa using hdigits, by omega, by omega⟩
  · rintro ⟨hne, hdigits, hv, hlt⟩
    rw [if_neg (by simpa using hne), if_neg (by simpa using hdigits)]
    simp only [hv, Nat.add_sub_cancel, UInt32.ofNat_toNat]
    rw [if_neg (by omega), if_neg (by omega), if_neg (by omega)]

/-- Letters and digits spell the column and the row of an address inside the sheet. -/
structure Spelling (a : Address) (letters digits : Text) : Prop where
  column : Column.Spelling a.column letters
  ne_nil : digits ≠ []
  digit : ∀ c ∈ digits, c.isDigit = true
  value_eq : Text.decimalValue digits = a.row.toNat + 1
  lt : a.row.toNat < maxRows

/-- Letters and digits with the dollar signs of an address. -/
def spelled (a : Address) (letters digits : Text) : Text :=
  mark a.columnFixed ++ (letters ++ (mark a.rowFixed ++ digits))

lemma head?_row {a : Address} {letters digits : Text} (h : Spelling a letters digits) :
    ∀ c ∈ (mark a.rowFixed ++ digits).head?, c.isAlpha = false := by
  intro c hc
  cases hf : a.rowFixed with
  | true =>
    rw [hf] at hc
    cases hc
    decide
  | false =>
    rw [hf] at hc
    have hd := h.digit c (List.mem_of_mem_head? hc)
    rw [← Bool.not_eq_true]
    intro ha
    rw [isDigit_of_isAlpha ha] at hd
    cases hd

/-- Reading accepts exactly the spellings of addresses inside the sheet, between blanks. -/
theorem parse_eq_ok_iff {s : Text} {a : Address} :
    parse s = .ok a ↔
      ∃ letters digits, Spelling a letters digits ∧ Text.trim s = a.spelled letters digits := by
  simp only [parse]
  constructor
  · intro h
    split at h
    · cases h
    cases hs : splitColumn (Text.trim s) with
    | error e => simp [hs, bind, Except.bind] at h
    | ok split =>
      obtain ⟨column, fixed, rest⟩ := split
      cases hr : readRow (Text.trim s) (dollar rest).2 with
      | error e => simp [hs, hr, bind, Except.bind] at h
      | ok row =>
        simp only [hs, hr, bind, Except.bind, pure, Except.pure, Except.ok.injEq] at h
        obtain ⟨letters, hl, ht, -⟩ := splitColumn_eq_ok_iff.mp hs
        obtain ⟨hne, hd, hv, hlt⟩ := readRow_eq_ok_iff.mp hr
        subst h
        refine ⟨letters, (dollar rest).2, ⟨hl, hne, hd, hv, hlt⟩, ?_⟩
        rw [spelled, mark_dollar, ht]
  · rintro ⟨letters, digits, h, ht⟩
    have hs : splitColumn (Text.trim s) =
        .ok (a.column, a.columnFixed, mark a.rowFixed ++ digits) :=
      splitColumn_eq_ok_iff.mpr ⟨letters, h.column, ht, head?_row h⟩
    have hd : dollar (mark a.rowFixed ++ digits) = (a.rowFixed, digits) := by
      apply dollar_mark
      intro c hc hc'
      have hdigit := h.digit c (List.mem_of_mem_head? hc)
      rw [hc'] at hdigit
      exact absurd hdigit (by decide)
    have hr : readRow (Text.trim s) digits = .ok a.row :=
      readRow_eq_ok_iff.mpr ⟨h.ne_nil, h.digit, h.value_eq, h.lt⟩
    have hne : Text.trim s ≠ [] := by
      rw [ht, spelled]
      simp [h.column.ne_nil]
    rw [if_neg (by simpa using hne), hs]
    simp only [bind, Except.bind, hd, hr]
    rfl

lemma isNameChar_of_mem_mark {fixed : Bool} {c : Char} (h : c ∈ mark fixed) :
    Formula.isNameChar c = true := by
  cases fixed with
  | true =>
    rw [List.mem_singleton.mp h]
    decide
  | false => cases h

lemma isRun_spelled {a : Address} {letters digits : Text} (h : Spelling a letters digits) :
    Formula.IsRun (a.spelled letters digits) := by
  refine ⟨by simp [spelled, h.ne_nil], ?_⟩
  intro c hc
  simp only [spelled, List.mem_append] at hc
  rcases hc with hc | hc | hc | hc
  · exact isNameChar_of_mem_mark hc
  · exact isNameChar_of_isAlpha (h.column.alpha c hc)
  · exact isNameChar_of_mem_mark hc
  · exact isNameChar_of_isDigit (h.digit c hc)

lemma row_lt_of_parse {s : Text} {a : Address} (h : parse s = .ok a) : a.row.toNat < maxRows := by
  obtain ⟨_, _, hs, -⟩ := parse_eq_ok_iff.mp h
  exact hs.lt

lemma column_lt_of_parse {s : Text} {a : Address} (h : parse s = .ok a) :
    a.column.toNat < maxColumns := by
  obtain ⟨_, _, hs, -⟩ := parse_eq_ok_iff.mp h
  exact hs.column.lt

/-- The letters and digits that A1 notation uses. -/
lemma spelling_toText {a : Address} (hr : a.row.toNat < maxRows)
    (hc : a.column.toNat < maxColumns) :
    Spelling a (Column.letters a.column.toNat) (Text.ofNat (a.row.toNat + 1)) := by
  refine ⟨Column.spelling_letters hc, Nat.toDigits_ne_nil, ?_, Nat.ofDigitChars_ten_toDigits, hr⟩
  intro c hd
  exact Nat.isDigit_of_mem_toDigits (by decide) (by decide) hd

lemma toText_eq_spelled (a : Address) : a.toText =
    a.spelled (Column.letters a.column.toNat) (Text.ofNat (a.row.toNat + 1)) := by
  rw [toText, spelled, List.append_assoc]

lemma isRun_toText {a : Address} (hr : a.row.toNat < maxRows) (hc : a.column.toNat < maxColumns) :
    Formula.IsRun a.toText := by
  rw [toText_eq_spelled]
  exact isRun_spelled (spelling_toText hr hc)

/-- Reading gives back an address inside the sheet from its A1 text. -/
lemma parse_toText {a : Address} (hr : a.row.toNat < maxRows) (hc : a.column.toNat < maxColumns) :
    parse a.toText = .ok a := by
  refine parse_eq_ok_iff.mpr ⟨_, _, spelling_toText hr hc, ?_⟩
  rw [← toText_eq_spelled]
  apply Text.trim_eq_self
  intro c hm
  exact isBlank_of_isNameChar ((isRun_toText hr hc).all c hm)

end Address

end SheetGloss
