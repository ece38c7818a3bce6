import Mathlib.Algebra.Group.Int.Even
import SheetGloss.Proofs.FormulaPieces
import SheetGloss.Proofs.SpanText
import SheetGloss.Sheet.Position

/-!
# Addresses in words of fixed width

Addresses and spans are read, moved and printed in words of 8 to 64 bits. Here each step is taken in
its word, and a step whose exact result the word cannot hold gives nothing. For no text does reading
come to such a step, nor does moving or printing what was read: all of them find what they find
with numbers that have no bound.
-/

namespace SheetGloss

/-! ### Steps in a word -/

namespace Word

variable {w : Nat}

/-- The sum, nothing when it is too great for the word. -/
def add? (a b : BitVec w) : Option (BitVec w) := if a.uaddOverflow b then none else some (a + b)

/-- The difference, nothing when it lies below zero. -/
def sub? (a b : BitVec w) : Option (BitVec w) := if a.usubOverflow b then none else some (a - b)

/-- The product, nothing when it is too great for the word. -/
def mul? (a b : BitVec w) : Option (BitVec w) := if a.umulOverflow b then none else some (a * b)

/-- The number in a word of another width, nothing when it is too great for that one. -/
def resize? (v : Nat) (a : BitVec w) : Option (BitVec v) :=
  if a.toNat < 2 ^ v then some (a.setWidth v) else none

/-- The sum of signed numbers, nothing when the word cannot hold it. -/
def addSigned? (a b : BitVec w) : Option (BitVec w) :=
  if a.saddOverflow b then none else some (a + b)

/-- The difference of signed numbers, nothing when the word cannot hold it. -/
def subSigned? (a b : BitVec w) : Option (BitVec w) :=
  if a.ssubOverflow b then none else some (a - b)

/-- A signed number in a word without signs, nothing when it is negative or too great. -/
def unsigned? (v : Nat) (a : BitVec w) : Option (BitVec v) :=
  if a.toInt < 0 then none else resize? v a

variable {a b : Nat}

lemma toNat_ofNat_of_lt (h : a < 2 ^ w) : (BitVec.ofNat w a).toNat = a := by
  rw [BitVec.toNat_ofNat, Nat.mod_eq_of_lt h]

lemma add?_ofNat (h : a + b < 2 ^ w) :
    add? (BitVec.ofNat w a) (BitVec.ofNat w b) = some (BitVec.ofNat w (a + b)) := by
  have ha : (BitVec.ofNat w a).toNat = a := toNat_ofNat_of_lt (by omega)
  have hb : (BitVec.ofNat w b).toNat = b := toNat_ofNat_of_lt (by omega)
  have hfits : ¬(BitVec.ofNat w a).uaddOverflow (BitVec.ofNat w b) = true := by
    rw [BitVec.uaddOverflow, ha, hb, decide_eq_true_eq]
    omega
  rw [add?, if_neg hfits, BitVec.ofNat_add]

lemma sub?_ofNat (ha : a < 2 ^ w) (h : b ≤ a) :
    sub? (BitVec.ofNat w a) (BitVec.ofNat w b) = some (BitVec.ofNat w (a - b)) := by
  have hb : (BitVec.ofNat w b).toNat = b := toNat_ofNat_of_lt (by omega)
  have hfits : ¬(BitVec.ofNat w a).usubOverflow (BitVec.ofNat w b) = true := by
    rw [BitVec.usubOverflow, toNat_ofNat_of_lt ha, hb, decide_eq_true_eq]
    omega
  rw [sub?, if_neg hfits, BitVec.ofNat_sub_ofNat_of_le _ _ (by omega) h]

lemma mul?_ofNat (ha : a < 2 ^ w) (hb : b < 2 ^ w) (h : a * b < 2 ^ w) :
    mul? (BitVec.ofNat w a) (BitVec.ofNat w b) = some (BitVec.ofNat w (a * b)) := by
  have hfits : ¬(BitVec.ofNat w a).umulOverflow (BitVec.ofNat w b) = true := by
    rw [BitVec.umulOverflow, toNat_ofNat_of_lt ha, toNat_ofNat_of_lt hb, decide_eq_true_eq]
    omega
  rw [mul?, if_neg hfits, BitVec.ofNat_mul]

lemma resize?_ofNat {v : Nat} (hw : a < 2 ^ w) (hv : a < 2 ^ v) :
    resize? v (BitVec.ofNat w a) = some (BitVec.ofNat v a) := by
  rw [resize?, ← BitVec.ofNat_toNat, toNat_ofNat_of_lt hw, if_pos hv]

lemma toNat_of_sub? {a b c : BitVec w} (h : sub? a b = some c) : c.toNat + b.toNat = a.toNat := by
  unfold sub? at h
  split at h
  · cases h
  · next hfits =>
    cases h
    rw [BitVec.usubOverflow, decide_eq_true_eq, Nat.not_lt] at hfits
    rw [BitVec.toNat_sub_of_le (BitVec.le_def.mpr hfits), Nat.sub_add_cancel hfits]

/-- A signed word of 64 bits holds a number. -/
def Holds (n : Int) : Prop := -2 ^ 63 ≤ n ∧ n < 2 ^ 63

variable {m n : Int}

lemma Holds.toInt_ofInt (h : Holds n) : (BitVec.ofInt 64 n).toInt = n :=
  BitVec.toInt_ofInt_eq_self (by decide) h.1 h.2

lemma addSigned?_ofInt (hm : Holds m) (hn : Holds n) (h : Holds (m + n)) :
    addSigned? (BitVec.ofInt 64 m) (BitVec.ofInt 64 n) = some (BitVec.ofInt 64 (m + n)) := by
  have hfits : ¬(BitVec.ofInt 64 m).saddOverflow (BitVec.ofInt 64 n) = true := by
    rw [BitVec.saddOverflow, hm.toInt_ofInt, hn.toInt_ofInt, Bool.or_eq_true, decide_eq_true_eq,
      decide_eq_true_eq]
    unfold Holds at h
    omega
  rw [addSigned?, if_neg hfits, BitVec.ofInt_add]

lemma subSigned?_ofInt (hm : Holds m) (hn : Holds n) (h : Holds (m - n)) :
    subSigned? (BitVec.ofInt 64 m) (BitVec.ofInt 64 n) = some (BitVec.ofInt 64 (m - n)) := by
  have hfits : ¬(BitVec.ofInt 64 m).ssubOverflow (BitVec.ofInt 64 n) = true := by
    rw [BitVec.ssubOverflow, hm.toInt_ofInt, hn.toInt_ofInt, Bool.or_eq_true, decide_eq_true_eq,
      decide_eq_true_eq]
    unfold Holds at h
    omega
  rw [subSigned?, if_neg hfits, BitVec.sub_eq_add_neg, ← BitVec.ofInt_neg, ← BitVec.ofInt_add,
    Int.sub_eq_add_neg]

lemma unsigned?_ofInt {v : Nat} (hn : Holds n) (hpos : 0 ≤ n) (hv : n < 2 ^ v) :
    unsigned? v (BitVec.ofInt 64 n) = some (BitVec.ofNat v n.toNat) := by
  obtain ⟨k, rfl⟩ := Int.eq_ofNat_of_zero_le hpos
  have hk : k < 2 ^ 64 := by
    unfold Holds at hn
    omega
  rw [unsigned?, hn.toInt_ofInt, if_neg (by omega), BitVec.ofInt_natCast, Int.toNat_natCast,
    resize?_ofNat hk (by exact_mod_cast hv)]

end Word

/-! ### Addresses and spans, step by step -/

/-- What is found in words: nothing when a step does not fit its word, and else a value or what is
wrong with the text. -/
abbrev Steps (α : Type) := ExceptT SheetError Option α

/-- What is found without a step that does not fit. -/
def Steps.fitting {α : Type} (x : Except SheetError α) : Steps α := ExceptT.mk (some x)

namespace Words

/-- The number of letters with one more letter behind them. -/
def extend? (value : BitVec 32) (c : Char) : Option (BitVec 32) := do
  let shifted ← Word.mul? value 26
  let index ← Word.sub? c.toUpper.val.toBitVec 65
  let place ← Word.add? index 1
  Word.add? shifted place

def readFrom (value : BitVec 32) : Text → Steps UInt16
  | [] => do
    let index ← Word.sub? value 1
    let column ← Word.resize? 16 index
    return UInt16.ofBitVec column
  | c :: rest =>
    if c.isAlpha then do
      let value ← extend? value c
      if maxColumns < value.toNat then do
        let index ← Word.sub? value 1
        throw (.columnOutOfBounds index.toNat (maxColumns - 1))
      else readFrom value rest
    else throw (.address (.notLetter c))

def ofLetters (s : Text) : Steps UInt16 :=
  if s.isEmpty then throw (.address .emptyLetters) else readFrom 0 s

def splitColumn (s : Text) : Steps (UInt16 × Bool × Text) :=
  let (columnFixed, body) := Address.dollar s
  let letters := body.takeWhile Char.isAlpha
  if letters.isEmpty then throw (.address (.noLetters s))
  else do
    let column ← ofLetters letters
    return (column, columnFixed, body.dropWhile Char.isAlpha)

/-- Digits are read as a word of 32 bits, or refused when their number is too great. -/
def readRow (source digits : Text) : Steps UInt32 :=
  if digits.isEmpty then throw (.address (.noRow source))
  else if !digits.all Char.isDigit then throw (.address (.badRow source))
  else if UInt32.size ≤ Text.decimalValue digits then throw (.address (.badRow source))
  else
    let number := BitVec.ofNat 32 (Text.decimalValue digits)
    if number = 0 then throw (.address (.rowZero source))
    else do
      let row ← Word.sub? number 1
      if maxRows ≤ row.toNat then throw (.rowOutOfBounds row.toNat (maxRows - 1))
      else return UInt32.ofBitVec row

def parse (s : Text) : Steps Address :=
  let source := Text.trim s
  if source.isEmpty then throw (.address .empty)
  else do
    let (column, columnFixed, rest) ← splitColumn source
    let (rowFixed, digits) := Address.dollar rest
    let row ← readRow source digits
    return ⟨row, column, rowFixed, columnFixed⟩

def parseColumn (s : Text) : Steps UInt16 := do
  let source := Text.trim s
  let (column, _, rest) ← splitColumn source
  if rest.isEmpty then return column
  else return (← parse source).column

def parseSpan (s : Text) : Steps ColumnSpan :=
  match Text.splitAll ':' s with
  | [left, right] => do
    let first ← parseColumn left
    let last ← parseColumn right
    match ColumnSpan.ofEnds? first last with
    | some span => return span
    | none => throw (.span (.reversed s))
  | _ => throw (.span (.notTwoEndpoints s))

def size (span : ColumnSpan) : Option Nat := do
  let distance ← Word.sub? span.last.toBitVec span.first.toBitVec
  let size ← Word.add? (distance.setWidth 64) 1
  return size.toNat

/-- The size of the span that a text names. -/
def spanSize (s : Text) : Steps Nat := do
  let span ← parseSpan s
  size span

/-- The letter of a column in its last place. -/
def letter? (index : BitVec 32) : Option Char := do
  let digit ← Word.resize? 8 (index % 26)
  let code ← Word.add? digit 65
  return Char.ofNat code.toNat

/-- The letters of a column counted from one, in front of those that are known. Each turn takes one
off and divides by 26. -/
def lettersBefore (n : BitVec 32) (known : Text) : Option Text :=
  if n = 0 then some known
  else
    match h : Word.sub? n 1 with
    | none => none
    | some index => do
      let c ← letter? index
      have : (index / 26).toNat < n.toNat := by
        have hnumber : index.toNat + 1 = n.toNat := Word.toNat_of_sub? h
        rw [BitVec.toNat_udiv]
        exact Nat.lt_of_le_of_lt (Nat.div_le_self _ _) (by omega)
      lettersBefore (index / 26) (c :: known)
termination_by n.toNat

def letters (column : UInt16) : Option Text := do
  let n ← Word.add? (column.toBitVec.setWidth 32) 1
  lettersBefore n []

def toText (a : Address) : Option Text := do
  let letters ← letters a.column
  let row ← Word.add? a.row.toBitVec 1
  return Address.mark a.columnFixed ++ letters ++
    (Address.mark a.rowFixed ++ Text.ofNat row.toNat)

/-- An index after a move, in signed words of 64 bits. -/
def moved? (fixed : Bool) (index distance : BitVec 64) : Option (BitVec 64) :=
  if fixed then some index else Word.addSigned? index distance

def offset (a : Address) (rows columns : BitVec 64) : Option (Option Address) := do
  let row ← moved? a.rowFixed (a.row.toBitVec.setWidth 64) rows
  let column ← moved? a.columnFixed (a.column.toBitVec.setWidth 64) columns
  if 0 ≤ row.toInt && row.toInt < maxRows && 0 ≤ column.toInt && column.toInt < maxColumns then do
    let row ← Word.unsigned? 32 row
    let column ← Word.unsigned? 16 column
    return some ⟨UInt32.ofBitVec row, UInt16.ofBitVec column, a.rowFixed, a.columnFixed⟩
  else return none

/-- The address in a formula that is filled from an anchor into another cell. -/
def follow (a : Address) (anchor cell : Position) : Option (Option Address) := do
  let rows ← Word.subSigned? (cell.row.toBitVec.setWidth 64) (anchor.row.toBitVec.setWidth 64)
  let columns ←
    Word.subSigned? (cell.column.toBitVec.setWidth 64) (anchor.column.toBitVec.setWidth 64)
  offset a rows columns

/-! ### No step that does not fit -/

lemma bind_fitting {α β : Type} {x : Steps α} {y : Except SheetError α} {f : α → Steps β}
    {g : α → Except SheetError β} (hx : x = .fitting y)
    (hf : ∀ a, y = .ok a → f a = .fitting (g a)) : x >>= f = .fitting (y >>= g) := by
  subst hx
  cases y with
  | error e => rfl
  | ok a => exact hf a rfl

lemma lift_bind {α β : Type} (a : α) (f : α → Steps β) :
    (liftM (some a) : Steps α) >>= f = f a := rfl

section Letters

variable {value : Nat} {c : Char} {s : Text}

lemma toNat_toUpper (hc : c.isAlpha = true) : c.toUpper.toNat = Column.letterValue c + 64 ∧
    0 < Column.letterValue c ∧ Column.letterValue c ≤ 26 :=
  forall_isAlpha (P := fun c => c.toUpper.toNat = Column.letterValue c + 64 ∧
    0 < Column.letterValue c ∧ Column.letterValue c ≤ 26) (by decide +kernel) hc

lemma extend?_eq (hvalue : value ≤ maxColumns) (hc : c.isAlpha = true) :
    extend? (BitVec.ofNat 32 value) c =
      some (BitVec.ofNat 32 (value * 26 + Column.letterValue c)) := by
  have hm : maxColumns = 16384 := rfl
  obtain ⟨hupper, hpos, hle⟩ := toNat_toUpper hc
  have hcode : c.toUpper.val.toBitVec = BitVec.ofNat 32 (Column.letterValue c + 64) :=
    hupper ▸ (BitVec.ofNat_toNat 32 c.toUpper.val.toBitVec).symm
  have hshifted : Word.mul? (BitVec.ofNat 32 value) 26 = some (BitVec.ofNat 32 (value * 26)) :=
    Word.mul?_ofNat (b := 26) (by omega) (by decide) (by omega)
  have hindex : Word.sub? (BitVec.ofNat 32 (Column.letterValue c + 64)) 65 =
      some (BitVec.ofNat 32 (Column.letterValue c + 64 - 65)) :=
    Word.sub?_ofNat (b := 65) (by omega) (by omega)
  have hplace : Word.add? (BitVec.ofNat 32 (Column.letterValue c + 64 - 65)) 1 =
      some (BitVec.ofNat 32 (Column.letterValue c)) := by
    rw [show Column.letterValue c = Column.letterValue c + 64 - 65 + 1 by omega]
    exact Word.add?_ofNat (b := 1) (by omega)
  simp only [extend?, hcode, hshifted, hindex, hplace, Option.bind_eq_bind, Option.bind_some]
  exact Word.add?_ofNat (by omega)

/-- No step of the loop fails while the letters before name no column behind the last one, and the
turn after which they do is the last one. -/
lemma readFrom_eq (hvalue : value ≤ maxColumns) (hpos : 0 < value ∨ s ≠ []) :
    readFrom (BitVec.ofNat 32 value) s = .fitting (Column.readFrom value s) := by
  have hm : maxColumns = 16384 := rfl
  have hindex {n : Nat} (hn : 0 < n) (hlt : n < 2 ^ 32) :
      Word.sub? (BitVec.ofNat 32 n) 1 = some (BitVec.ofNat 32 (n - 1)) :=
    Word.sub?_ofNat (b := 1) hlt hn
  induction s generalizing value with
  | nil =>
    have hone : 0 < value := hpos.resolve_right (by simp)
    have hcolumn : Word.resize? 16 (BitVec.ofNat 32 (value - 1)) =
        some (BitVec.ofNat 16 (value - 1)) := Word.resize?_ofNat (by omega) (by omega)
    simp only [readFrom, hindex hone (by omega), lift_bind, hcolumn]
    rfl
  | cons c rest ih =>
    rw [readFrom, Column.readFrom]
    by_cases hc : c.isAlpha = true
    · obtain ⟨-, hpos, hle⟩ := toNat_toUpper hc
      have hnumber : (BitVec.ofNat 32 (value * 26 + Column.letterValue c)).toNat =
          value * 26 + Column.letterValue c := Word.toNat_ofNat_of_lt (by omega)
      simp only [if_pos hc, extend?_eq hvalue hc, lift_bind, hnumber]
      by_cases hlast : maxColumns < value * 26 + Column.letterValue c
      · have hnext : (BitVec.ofNat 32 (value * 26 + Column.letterValue c - 1)).toNat =
            value * 26 + Column.letterValue c - 1 := Word.toNat_ofNat_of_lt (by omega)
        have hlt : value * 26 + Column.letterValue c < 2 ^ 32 := by omega
        simp only [if_pos hlast, hindex (Nat.lt_of_le_of_lt (Nat.zero_le _) hlast) hlt, lift_bind,
          hnext]
        rfl
      · simp only [if_neg hlast]
        exact ih (by omega) (Or.inl (by omega))
    · rw [if_neg hc, if_neg hc]
      rfl

lemma ofLetters_eq (s : Text) : ofLetters s = .fitting (Column.ofLetters s) := by
  unfold ofLetters Column.ofLetters
  cases s with
  | nil => rfl
  | cons c rest => exact readFrom_eq (Nat.zero_le _) (Or.inr (List.cons_ne_nil c rest))

end Letters

section Reading

lemma splitColumn_eq (s : Text) : splitColumn s = .fitting (Address.splitColumn s) := by
  unfold splitColumn Address.splitColumn
  dsimp only
  split
  · rfl
  · exact bind_fitting (ofLetters_eq _) fun _ _ => rfl

lemma readRow_eq (source digits : Text) :
    readRow source digits = .fitting (Address.readRow source digits) := by
  unfold readRow Address.readRow
  split
  · rfl
  split
  · rfl
  dsimp only
  split
  · rfl
  · next hsize =>
    have hlt : Text.decimalValue digits < 2 ^ 32 := Nat.not_le.mp hsize
    have hzero : BitVec.ofNat 32 (Text.decimalValue digits) = 0 ↔
        Text.decimalValue digits = 0 := by
      rw [← BitVec.toNat_inj, Word.toNat_ofNat_of_lt hlt]
      rfl
    by_cases hnumber : Text.decimalValue digits = 0
    · rw [if_pos (hzero.mpr hnumber), if_pos hnumber]
      rfl
    · have hrow : Word.sub? (BitVec.ofNat 32 (Text.decimalValue digits)) 1 =
          some (BitVec.ofNat 32 (Text.decimalValue digits - 1)) :=
        Word.sub?_ofNat (b := 1) hlt (Nat.one_le_iff_ne_zero.mpr hnumber)
      have htoNat : (BitVec.ofNat 32 (Text.decimalValue digits - 1)).toNat =
          Text.decimalValue digits - 1 := Word.toNat_ofNat_of_lt (by omega)
      simp only [if_neg hnumber, if_neg (mt hzero.mp hnumber), hrow, lift_bind, htoNat]
      split <;> rfl

lemma parse_eq (s : Text) : parse s = .fitting (Address.parse s) := by
  unfold parse Address.parse
  dsimp only
  split
  · rfl
  · refine bind_fitting (splitColumn_eq _) fun a _ => ?_
    exact bind_fitting (readRow_eq _ _) fun _ _ => rfl

lemma parseColumn_eq (s : Text) : parseColumn s = .fitting (Address.parseColumn s) := by
  unfold parseColumn Address.parseColumn
  refine bind_fitting (splitColumn_eq _) fun a _ => ?_
  dsimp only
  split
  · rfl
  · exact bind_fitting (parse_eq _) fun _ _ => rfl

lemma parseSpan_eq (s : Text) : parseSpan s = .fitting (ColumnSpan.parse s) := by
  unfold parseSpan ColumnSpan.parse
  rcases Text.splitAll ':' s with _ | ⟨left, _ | ⟨right, _ | ⟨third, rest⟩⟩⟩
  · rfl
  · rfl
  · refine bind_fitting (parseColumn_eq left) fun first _ => ?_
    refine bind_fitting (parseColumn_eq right) fun last _ => ?_
    cases ColumnSpan.ofEnds? first last <;> rfl
  · rfl

lemma size_eq {span : ColumnSpan} (h : span.first ≤ span.last) : size span = some span.size := by
  have hle : span.first.toNat ≤ span.last.toNat := UInt16.le_iff_toNat_le.mp h
  have hlast := span.last.toNat_lt
  have hword (column : UInt16) : column.toBitVec = BitVec.ofNat 16 column.toNat :=
    (BitVec.ofNat_toNat 16 column.toBitVec).symm
  have hdistance : Word.sub? span.last.toBitVec span.first.toBitVec =
      some (BitVec.ofNat 16 (span.last.toNat - span.first.toNat)) := by
    rw [hword span.last, hword span.first]
    exact Word.sub?_ofNat hlast hle
  have hwide : (BitVec.ofNat 16 (span.last.toNat - span.first.toNat)).setWidth 64 =
      BitVec.ofNat 64 (span.last.toNat - span.first.toNat) :=
    BitVec.setWidth_ofNat_of_le_of_lt (by decide) (by omega)
  have hsize : Word.add? (BitVec.ofNat 64 (span.last.toNat - span.first.toNat)) 1 =
      some (BitVec.ofNat 64 (span.last.toNat - span.first.toNat + 1)) :=
    Word.add?_ofNat (b := 1) (by omega)
  simp only [size, hdistance, hwide, hsize, Option.bind_eq_bind, Option.bind_some]
  rw [ColumnSpan.size_of_le h]
  exact congrArg some (Word.toNat_ofNat_of_lt (by omega))

/-- A span that was read is in order, so that its size is not sought below zero. -/
lemma spanSize_eq (s : Text) :
    spanSize s = .fitting ((ColumnSpan.parse s).map ColumnSpan.size) := by
  have hsize : ∀ span, ColumnSpan.parse s = .ok span →
      (liftM (size span) : Steps Nat) = Steps.fitting (.ok span.size) := by
    intro span h
    rw [size_eq (ColumnSpan.first_le_last_of_parse h)]
    rfl
  have hbind : (ColumnSpan.parse s).map ColumnSpan.size =
      ColumnSpan.parse s >>= fun span => .ok span.size := by
    cases ColumnSpan.parse s <;> rfl
  rw [hbind]
  exact bind_fitting (parseSpan_eq s) hsize

end Reading

section Printing

lemma letter?_eq {index : Nat} (h : index < 2 ^ 32) :
    letter? (BitVec.ofNat 32 index) = some (Column.letter (index % 26)) := by
  have hlt : index % 26 < 26 := Nat.mod_lt _ (by decide)
  have hmod : BitVec.ofNat 32 index % 26 = BitVec.ofNat 32 (index % 26) := by
    apply BitVec.eq_of_toNat_eq
    rw [BitVec.toNat_umod, Word.toNat_ofNat_of_lt h,
      Word.toNat_ofNat_of_lt (by omega : index % 26 < 2 ^ 32)]
    rfl
  have hdigit : Word.resize? 8 (BitVec.ofNat 32 (index % 26)) =
      some (BitVec.ofNat 8 (index % 26)) := Word.resize?_ofNat (by omega) (by omega)
  have hcode : Word.add? (BitVec.ofNat 8 (index % 26)) 65 =
      some (BitVec.ofNat 8 (index % 26 + 65)) := Word.add?_ofNat (b := 65) (by omega)
  simp only [letter?, hmod, hdigit, hcode, Option.bind_eq_bind, Option.bind_some]
  rw [Word.toNat_ofNat_of_lt (by omega), Nat.add_comm]
  rfl

/-- One turn of the loop prints the last letter of the column. -/
lemma lettersBefore_succ {column : Nat} (known : Text) (h : column + 1 < 2 ^ 32) :
    lettersBefore (BitVec.ofNat 32 (column + 1)) known =
      lettersBefore (BitVec.ofNat 32 (column / 26)) (Column.letter (column % 26) :: known) := by
  have hne : BitVec.ofNat 32 (column + 1) ≠ 0 := by
    intro hzero
    have hnumber := congrArg BitVec.toNat hzero
    rw [Word.toNat_ofNat_of_lt h] at hnumber
    cases hnumber
  have hindex : Word.sub? (BitVec.ofNat 32 (column + 1)) 1 = some (BitVec.ofNat 32 column) :=
    Word.sub?_ofNat (b := 1) h (by omega)
  have hdiv : BitVec.ofNat 32 column / 26 = BitVec.ofNat 32 (column / 26) := by
    apply BitVec.eq_of_toNat_eq
    rw [BitVec.toNat_udiv, Word.toNat_ofNat_of_lt (by omega : column < 2 ^ 32),
      Word.toNat_ofNat_of_lt (by omega : column / 26 < 2 ^ 32)]
    rfl
  rw [lettersBefore, if_neg hne]
  split
  · next heq =>
    rw [hindex] at heq
    cases heq
  · next index heq =>
    rw [hindex] at heq
    cases heq
    rw [letter?_eq (by omega), ← hdiv]
    rfl

lemma lettersBefore_zero (known : Text) : lettersBefore 0 known = some known := by
  rw [lettersBefore, if_pos rfl]

lemma lettersBefore_eq (column : Nat) (known : Text) (h : column + 1 < 2 ^ 32) :
    lettersBefore (BitVec.ofNat 32 (column + 1)) known = some (Column.letters column ++ known) := by
  fun_induction Column.letters column generalizing known with
  | case1 column hlast =>
    rw [lettersBefore_succ known h, Nat.div_eq_of_lt hlast, Nat.mod_eq_of_lt hlast]
    exact lettersBefore_zero _
  | case2 column hmore ih =>
    have hnext : column / 26 = column / 26 - 1 + 1 := by omega
    rw [lettersBefore_succ known h, hnext, ih _ (by omega), List.append_assoc]
    rfl

lemma letters_eq (column : UInt16) : letters column = some (Column.letters column.toNat) := by
  have hcolumn := column.toNat_lt
  have hwide : column.toBitVec.setWidth 32 = BitVec.ofNat 32 column.toNat :=
    (BitVec.ofNat_toNat 32 column.toBitVec).symm
  have hnumber : Word.add? (BitVec.ofNat 32 column.toNat) 1 =
      some (BitVec.ofNat 32 (column.toNat + 1)) := Word.add?_ofNat (b := 1) (by omega)
  simp only [letters, hwide, hnumber, Option.bind_eq_bind, Option.bind_some]
  rw [lettersBefore_eq _ _ (by omega), List.append_nil]

lemma toText_eq {a : Address} (h : a.row.toNat < maxRows) : toText a = some a.toText := by
  have hm : maxRows = 1048576 := rfl
  have hword : a.row.toBitVec = BitVec.ofNat 32 a.row.toNat :=
    (BitVec.ofNat_toNat 32 a.row.toBitVec).symm
  have hnumber : Word.add? (BitVec.ofNat 32 a.row.toNat) 1 =
      some (BitVec.ofNat 32 (a.row.toNat + 1)) := Word.add?_ofNat (b := 1) (by omega)
  simp only [toText, letters_eq, hword, hnumber, Option.bind_eq_bind, Option.bind_some]
  rw [Word.toNat_ofNat_of_lt (by omega)]
  rfl

end Printing

section Moving

lemma moved?_eq (fixed : Bool) {index : Nat} {distance : Int} (hindex : index < 2 ^ 32)
    (hdistance : -2 ^ 32 < distance ∧ distance < 2 ^ 32) :
    moved? fixed (BitVec.ofNat 64 index) (BitVec.ofInt 64 distance) =
      some (BitVec.ofInt 64 (if fixed then (index : Int) else index + distance)) := by
  rw [← BitVec.ofInt_natCast, moved?]
  cases fixed with
  | true => rfl
  | false =>
    simp only [Bool.false_eq_true, if_false]
    refine Word.addSigned?_ofInt ?_ ?_ ?_
    all_goals
      unfold Word.Holds
      omega

lemma offset_eq (a : Address) {rows columns : Int} (hrows : -2 ^ 32 < rows ∧ rows < 2 ^ 32)
    (hcolumns : -2 ^ 32 < columns ∧ columns < 2 ^ 32) :
    offset a (BitVec.ofInt 64 rows) (BitVec.ofInt 64 columns) = some (a.offset rows columns) := by
  have hr : maxRows = 1048576 := rfl
  have hc : maxColumns = 16384 := rfl
  have hlastRow := a.row.toNat_lt
  have hlastColumn := a.column.toNat_lt
  have hrow : a.row.toBitVec.setWidth 64 = BitVec.ofNat 64 a.row.toNat :=
    (BitVec.ofNat_toNat 64 a.row.toBitVec).symm
  have hcolumn : a.column.toBitVec.setWidth 64 = BitVec.ofNat 64 a.column.toNat :=
    (BitVec.ofNat_toNat 64 a.column.toBitVec).symm
  simp only [offset, Address.offset, hrow, hcolumn, moved?_eq a.rowFixed hlastRow hrows,
    moved?_eq a.columnFixed (by omega : a.column.toNat < 2 ^ 32) hcolumns, Option.bind_eq_bind,
    Option.bind_some]
  have hrowHolds : Word.Holds (if a.rowFixed then (a.row.toNat : Int) else a.row.toNat + rows) := by
    unfold Word.Holds
    split <;> omega
  have hcolumnHolds : Word.Holds
      (if a.columnFixed then (a.column.toNat : Int) else a.column.toNat + columns) := by
    unfold Word.Holds
    split <;> omega
  generalize (if a.rowFixed then (a.row.toNat : Int) else a.row.toNat + rows) = row at *
  generalize (if a.columnFixed then (a.column.toNat : Int) else a.column.toNat + columns) = column
    at *
  rw [hrowHolds.toInt_ofInt, hcolumnHolds.toInt_ofInt]
  split
  · next hin =>
    simp only [Bool.and_eq_true, decide_eq_true_eq] at hin
    obtain ⟨⟨⟨hrowPos, hrowLt⟩, hcolumnPos⟩, hcolumnLt⟩ := hin
    rw [Word.unsigned?_ofInt hrowHolds hrowPos (by omega),
      Word.unsigned?_ofInt hcolumnHolds hcolumnPos (by omega)]
    rfl
  · rfl

/-- The distance of two cells is small, whatever their rows and columns. -/
lemma follow_eq (a : Address) (anchor cell : Position) :
    follow a anchor cell = some (a.offset (cell.row.toNat - anchor.row.toNat)
      (cell.column.toNat - anchor.column.toNat)) := by
  have hword32 (row : UInt32) : row.toBitVec.setWidth 64 = BitVec.ofInt 64 row.toNat := by
    rw [BitVec.ofInt_natCast]
    exact (BitVec.ofNat_toNat 64 row.toBitVec).symm
  have hword16 (column : UInt16) : column.toBitVec.setWidth 64 = BitVec.ofInt 64 column.toNat := by
    rw [BitVec.ofInt_natCast]
    exact (BitVec.ofNat_toNat 64 column.toBitVec).symm
  have hcellRow := cell.row.toNat_lt
  have hcellColumn := cell.column.toNat_lt
  have hanchorRow := anchor.row.toNat_lt
  have hanchorColumn := anchor.column.toNat_lt
  have hsub {m n : Nat} (hm : m < 2 ^ 32) (hn : n < 2 ^ 32) :
      Word.subSigned? (BitVec.ofInt 64 m) (BitVec.ofInt 64 n) = some (BitVec.ofInt 64 (m - n)) := by
    refine Word.subSigned?_ofInt ?_ ?_ ?_
    all_goals
      unfold Word.Holds
      omega
  simp only [follow, hword32, hword16, hsub hcellRow hanchorRow,
    hsub (by omega : cell.column.toNat < 2 ^ 32) (by omega : anchor.column.toNat < 2 ^ 32),
    Option.bind_eq_bind, Option.bind_some]
  exact offset_eq a (by omega) (by omega)

end Moving

/-- No text leads to a step that does not fit its word: the letters of a column, an address and the
size of a span are read as with numbers that have no bound. Neither does moving an address by the
distance of two cells, nor printing where it ends, which is inside the sheet. The letters that are
printed for a column are capitals, whichever column it is. -/
theorem steps_fit :
    (∀ s, ofLetters s = .fitting (Column.ofLetters s)) ∧
    (∀ s, parse s = .fitting (Address.parse s)) ∧
    (∀ s, spanSize s = .fitting ((ColumnSpan.parse s).map ColumnSpan.size)) ∧
    (∀ (a : Address) (anchor cell : Position), follow a anchor cell =
      some (a.offset (cell.row.toNat - anchor.row.toNat)
        (cell.column.toNat - anchor.column.toNat))) ∧
    (∀ (a : Address) (rows columns : Int), ∀ moved ∈ a.offset rows columns,
      moved.row.toNat < maxRows ∧ moved.column.toNat < maxColumns ∧
        toText moved = some moved.toText) ∧
    ∀ column : UInt16, letters column = some (Column.letters column.toNat) ∧
      ∀ c ∈ Column.letters column.toNat, 'A' ≤ c ∧ c ≤ 'Z' := by
  refine ⟨ofLetters_eq, parse_eq, spanSize_eq, follow_eq, fun a rows columns moved h => ?_,
    fun column => ⟨letters_eq column, fun c hc => ?_⟩⟩
  · obtain ⟨-, -, -, -, hrow, hcolumn⟩ := Address.offset_eq_some_iff.mp h
    exact ⟨hrow, hcolumn, toText_eq hrow⟩
  · have hupper := Column.isUpper_of_mem_letters column.toNat c hc
    exact isUpper_iff.mp hupper

/-- The last row stays while the column moves out of column B into column A. -/
theorem steps_fit_last_row :
    let a : Address := ⟨1048575, 1, true, false⟩
    let moved : Address := ⟨1048575, 0, true, false⟩
    follow a ⟨2, 7⟩ ⟨9, 6⟩ = some (some moved) ∧ moved ∈ a.offset 7 (-1) ∧
      toText moved = some (Text.lit "A$1048576") ∧
      'A' ∈ Column.letters 0 ∧ 'A' ≤ 'A' ∧ 'A' ≤ 'Z' := by
  have hfollow := steps_fit.2.2.2.1 ⟨1048575, 1, true, false⟩ ⟨2, 7⟩ ⟨9, 6⟩
  have hmoved : (⟨1048575, 0, true, false⟩ : Address) ∈
      (⟨1048575, 1, true, false⟩ : Address).offset 7 (-1) := by decide
  have hletter : 'A' ∈ Column.letters (0 : UInt16).toNat := by decide +kernel
  have htext := (steps_fit.2.2.2.2.1 _ _ _ _ hmoved).2.2
  have hcapital := (steps_fit.2.2.2.2.2 0).2 'A' hletter
  exact ⟨hfollow.trans (congrArg some hmoved), hmoved, htext.trans (by decide +kernel), hletter,
    hcapital⟩

end Words

end SheetGloss
