import SheetGloss.Proofs.AddressText

/-!
# The pieces of a formula

A formula is cut into quoted spans, longest runs of name characters, and single other characters.
Filling replaces the runs that are references and keeps every other piece.
-/

namespace SheetGloss

namespace Address

/-- A move adds to the parts that are not fixed, and ends inside the sheet. -/
lemma offset_eq_some_iff {a moved : Address} {rows columns : Int} :
    a.offset rows columns = some moved ↔
      (moved.row.toNat : Int) = (if a.rowFixed then (a.row.toNat : Int) else a.row.toNat + rows) ∧
      (moved.column.toNat : Int) =
        (if a.columnFixed then (a.column.toNat : Int) else a.column.toNat + columns) ∧
      moved.rowFixed = a.rowFixed ∧ moved.columnFixed = a.columnFixed ∧
      moved.row.toNat < maxRows ∧ moved.column.toNat < maxColumns := by
  have hr : maxRows = 1048576 := rfl
  have hc : maxColumns = 16384 := rfl
  simp only [offset, hr, hc, Bool.and_eq_true, decide_eq_true_eq]
  generalize (if a.rowFixed then (a.row.toNat : Int) else a.row.toNat + rows) = row
  generalize (if a.columnFixed then (a.column.toNat : Int) else a.column.toNat + columns) = column
  constructor
  · intro h
    split at h
    · next hin =>
      cases h
      have hrow : (UInt32.ofNat row.toNat).toNat = row.toNat :=
        UInt32.toNat_ofNat_of_lt (by change row.toNat < 2 ^ 32; omega)
      have hcolumn : (UInt16.ofNat column.toNat).toNat = column.toNat :=
        UInt16.toNat_ofNat_of_lt (by change column.toNat < 2 ^ 16; omega)
      rw [hrow, hcolumn]
      exact ⟨by omega, by omega, rfl, rfl, by omega, by omega⟩
    · cases h
  · obtain ⟨r, c, rf, cf⟩ := moved
    rintro ⟨rfl, rfl, rfl, rfl, hrow, hcolumn⟩
    rw [if_pos (by dsimp only at *; omega)]
    simp

end Address

namespace Formula

/-- A part of a formula. -/
inductive Piece where
  /-- A quoted span with its quotes. -/
  | quoted (span : Text)
  /-- A longest run of name characters, with the character behind it. -/
  | run (name : Text) (next : Option Char)
  /-- Any other character. -/
  | mark (c : Char)
  deriving DecidableEq, Repr

/-- The pieces of a formula, in order. -/
def pieces : Text → List Piece
  | [] => []
  | c :: rest =>
    if isQuote c then
      have := length_quotedSpan_le c rest
      .quoted (c :: (quotedSpan c rest).1) :: pieces (quotedSpan c rest).2
    else if isNameChar c then
      have := length_dropWhile_le isNameChar rest
      .run (c :: rest.takeWhile isNameChar) (rest.dropWhile isNameChar).head? ::
        pieces (rest.dropWhile isNameChar)
    else .mark c :: pieces rest
termination_by s => s.length
decreasing_by all_goals (simp only [List.length_cons]; omega)

def Piece.text : Piece → Text
  | quoted span => span
  | run name _ => name
  | mark c => [c]

/-- The reference that a piece is: a run that is an address, unless it names a function or a
sheet. -/
def Piece.reference? : Piece → Option Address
  | run name next =>
    if next = some '(' || next = some '!' then none else (Address.parse name).toOption
  | _ => none

def references (formula : Text) : List Address := (pieces formula).filterMap Piece.reference?

/-- The text of a reference after a move. -/
def movedText (rows columns : Int) (a : Address) : Text :=
  match a.offset rows columns with
  | some moved => moved.toText
  | none => Text.lit "#REF!"

def Piece.filled (rows columns : Int) (piece : Piece) : Text :=
  match piece.reference? with
  | some a => movedText rows columns a
  | none => piece.text

lemma pieces_mark {c : Char} (hq : isQuote c = false) (hn : isNameChar c = false) (s : Text) :
    pieces (c :: s) = .mark c :: pieces s := by
  rw [pieces, if_neg (Bool.eq_false_iff.mp hq), if_neg (Bool.eq_false_iff.mp hn)]

lemma pieces_marks_append {w : Text}
    (hw : ∀ c ∈ w, isQuote c = false ∧ isNameChar c = false) (s : Text) :
    pieces (w ++ s) = w.map Piece.mark ++ pieces s := by
  induction w with
  | nil => rfl
  | cons c w ih =>
    obtain ⟨hq, hn⟩ := hw c List.mem_cons_self
    rw [List.cons_append, pieces_mark hq hn, ih fun d hd => hw d (List.mem_cons_of_mem c hd),
      List.map_cons, List.cons_append]

lemma pieces_run_append {run s : Text} (hrun : IsRun run)
    (hs : ∀ c ∈ s.head?, isNameChar c = false) :
    pieces (run ++ s) = .run run s.head? :: pieces s := by
  obtain ⟨c, run, rfl⟩ := List.exists_cons_of_ne_nil hrun.ne_nil
  have hc := hrun.all c List.mem_cons_self
  have hall : ∀ d ∈ run, isNameChar d = true := fun d hd => hrun.all d (List.mem_cons_of_mem c hd)
  rw [List.cons_append, pieces, if_neg (by simp [isQuote_of_isNameChar hc]), if_pos hc,
    Text.takeWhile_run hall hs, Text.dropWhile_run hall hs]

lemma pieces_run {c : Char} (hn : isNameChar c = true) (rest : Text) : pieces (c :: rest) =
    .run (c :: rest.takeWhile isNameChar) (rest.dropWhile isNameChar).head? ::
      pieces (rest.dropWhile isNameChar) := by
  rw [pieces, if_neg (by simp [isQuote_of_isNameChar hn]), if_pos hn]

lemma isRun_takeWhile {c : Char} (hn : isNameChar c = true) (rest : Text) :
    IsRun (c :: rest.takeWhile isNameChar) := by
  refine ⟨by simp, List.forall_mem_cons.mpr ⟨hn, ?_⟩⟩
  exact fun d hd => List.all_eq_true.mp List.all_takeWhile d hd

lemma movedText_of_offset {a moved : Address} {rows columns : Int}
    (h : a.offset rows columns = some moved) : movedText rows columns a = moved.toText := by
  rw [movedText, h]

lemma reference?_run_eq_some_iff {name : Text} {next : Option Char} {a : Address} :
    (Piece.run name next).reference? = some a ↔
      Address.parse name = .ok a ∧ next ≠ some '(' ∧ next ≠ some '!' := by
  rw [Piece.reference?]
  split
  · next hnext =>
    rw [Bool.or_eq_true, decide_eq_true_eq, decide_eq_true_eq] at hnext
    refine iff_of_false (by simp) ?_
    rintro ⟨-, hfunction, hsheet⟩
    exact hnext.elim hfunction hsheet
  · next hnext =>
    rw [Bool.or_eq_true, decide_eq_true_eq, decide_eq_true_eq, not_or] at hnext
    cases Address.parse name with
    | error e => simp [Except.toOption]
    | ok b => simp [Except.toOption, hnext]

lemma parse_of_reference? {piece : Piece} {a : Address} (h : piece.reference? = some a) :
    Address.parse piece.text = .ok a := by
  cases piece with
  | quoted => cases h
  | mark => cases h
  | run name next => exact (reference?_run_eq_some_iff.mp h).1

theorem flatMap_text_pieces (formula : Text) : (pieces formula).flatMap Piece.text = formula := by
  fun_induction pieces formula with
  | case1 => rfl
  | case2 c rest hq _ ih =>
    rw [List.flatMap_cons, ih, Piece.text, List.cons_append, quotedSpan_append]
  | case3 c rest hq hn _ ih =>
    rw [List.flatMap_cons, ih, Piece.text, List.cons_append, List.takeWhile_append_dropWhile]
  | case4 c rest hq hn ih => rw [List.flatMap_cons, ih, Piece.text, List.singleton_append]

lemma begins_of_parse {run : Text} {a : Address} (hrun : ∀ c ∈ run, isNameChar c = true)
    (h : Address.parse run = .ok a) : ∀ c ∈ run.head?, c = '$' ∨ c.isAlpha = true := by
  obtain ⟨letters, digits, hs, ht⟩ := Address.parse_eq_ok_iff.mp h
  have htrim : Text.trim run = run :=
    Text.trim_eq_self fun c hc => isBlank_of_isNameChar (hrun c hc)
  intro c hc
  rw [← htrim, ht, Address.spelled] at hc
  cases hf : a.columnFixed with
  | true =>
    rw [hf] at hc
    cases hc
    exact Or.inl rfl
  | false =>
    rw [hf, Address.mark, if_neg (by decide), List.nil_append,
      Address.head?_append_of_ne_nil _ hs.column.ne_nil] at hc
    exact Or.inr (hs.column.alpha c (List.mem_of_mem_head? hc))

lemma moveRun_eq_filled (rows columns : Int) (run : Text) (next : Option Char) :
    moveRun rows columns run next = (Piece.run run next).filled rows columns := by
  rw [moveRun, Piece.filled, Piece.reference?]
  by_cases hnext : (decide (next = some '(') || decide (next = some '!')) = true
  · rw [if_pos hnext, if_pos hnext]
    rfl
  · rw [if_neg hnext, if_neg hnext]
    cases Address.parse run <;> rfl

/-- A run that begins neither with `$` nor with a letter is no address, and is kept. -/
lemma filled_run_of_head {c : Char} {run : Text} (rows columns : Int) (next : Option Char)
    (hrun : ∀ d ∈ c :: run, isNameChar d = true) (hc : ¬(c = '$' ∨ c.isAlpha = true)) :
    (Piece.run (c :: run) next).filled rows columns = c :: run := by
  rw [← moveRun_eq_filled, moveRun]
  cases h : Address.parse (c :: run) with
  | error e => exact ite_self _
  | ok a => exact absurd (begins_of_parse hrun h c rfl) hc

lemma fillFrom_append_of_inName {run : Text} (rows columns : Int)
    (hrun : ∀ c ∈ run, isNameChar c = true) (s : Text) :
    fillFrom rows columns true (run ++ s) = run ++ fillFrom rows columns true s := by
  induction run with
  | nil => rfl
  | cons c run ih =>
    have hc := hrun c List.mem_cons_self
    rw [List.cons_append, fillFrom, if_neg (by simp [isQuote_of_isNameChar hc]),
      if_neg (by simp), hc, ih fun d hd => hrun d (List.mem_cons_of_mem c hd), List.cons_append]

/-- In front of any other character it does not matter whether a name goes before. -/
lemma fillFrom_of_head {s : Text} (rows columns : Int) (h : ∀ c ∈ s.head?, isNameChar c = false)
    (inName : Bool) : fillFrom rows columns inName s = fillFrom rows columns false s := by
  cases s with
  | nil => rw [fillFrom, fillFrom]
  | cons c s =>
    have hc := h c rfl
    have hstart : (c == '$' || c.isAlpha) = false := by
      rw [← Bool.not_eq_true]
      intro hs
      rw [Bool.or_eq_true, beq_iff_eq] at hs
      rcases hs with rfl | hs
      · exact absurd hc (by decide)
      · rw [isNameChar_of_isAlpha hs] at hc
        cases hc
    simp only [fillFrom, hstart, Bool.and_false, Bool.false_eq_true, if_false]

/-- Filling fills piece by piece. -/
theorem fill_eq_flatMap (formula : Text) (rows columns : Int) :
    fill formula rows columns = (pieces formula).flatMap (Piece.filled rows columns) := by
  unfold fill
  fun_induction pieces formula with
  | case1 => rw [fillFrom, List.flatMap_nil]
  | case2 c rest hq _ ih =>
    rw [fillFrom, if_pos hq, ih, List.flatMap_cons]
    rfl
  | case3 c rest hq hn _ ih =>
    have hrun := (isRun_takeWhile hn rest).all
    have hafter : fillFrom rows columns true (rest.dropWhile isNameChar) =
        fillFrom rows columns false (rest.dropWhile isNameChar) :=
      fillFrom_of_head rows columns (Text.head?_dropWhile isNameChar rest) true
    rw [fillFrom, if_neg hq, List.flatMap_cons, ← ih, ← hafter]
    by_cases hs : c = '$' ∨ c.isAlpha = true
    · rw [if_pos (by simpa using hs), ← moveRun_eq_filled]
    · rw [if_neg (by simpa using hs), hn, filled_run_of_head rows columns _ hrun hs,
        List.cons_append, ← fillFrom_append_of_inName rows columns
        (fun d hd => hrun d (List.mem_cons_of_mem c hd)), List.takeWhile_append_dropWhile]
  | case4 c rest hq hn ih =>
    have hstart : (c == '$' || c.isAlpha) = false := by
      rw [← Bool.not_eq_true]
      intro hs
      apply hn
      rw [Bool.or_eq_true, beq_iff_eq] at hs
      rcases hs with rfl | hs
      · decide
      · exact isNameChar_of_isAlpha hs
    rw [fillFrom, if_neg hq, if_neg (by simp [hstart]), List.flatMap_cons, ← ih,
      Bool.eq_false_iff.mpr hn]
    rfl

end Formula

end SheetGloss
