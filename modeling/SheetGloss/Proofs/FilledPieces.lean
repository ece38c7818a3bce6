import Mathlib.Data.List.Basic
import SheetGloss.Proofs.FormulaPieces

/-!
# The pieces of a filled formula

As long as every reference stays in the sheet, filling a formula keeps its cuts: the pieces of the
filled formula are the pieces of the formula, each moved on its own. A formula that is filled twice
has therefore moved by the sum of both moves.
-/

namespace SheetGloss

namespace Address

/-- Two moves are one by their sum, when the first stays in the sheet. -/
lemma offset_of_offset {a moved : Address} {rows columns : Int}
    (h : a.offset rows columns = some moved) (rows' columns' : Int) :
    moved.offset rows' columns' = a.offset (rows + rows') (columns + columns') := by
  obtain ⟨hrow, hcolumn, hrowFixed, hcolumnFixed, -, -⟩ := offset_eq_some_iff.mp h
  apply Option.ext
  intro b
  rw [offset_eq_some_iff, offset_eq_some_iff, hrowFixed, hcolumnFixed, hrow, hcolumn]
  cases a.rowFixed <;> cases a.columnFixed <;>
    simp only [Bool.false_eq_true, if_true, if_false, Int.add_assoc]

lemma offset_zero {a : Address} (hr : a.row.toNat < maxRows) (hc : a.column.toNat < maxColumns) :
    a.offset 0 0 = some a :=
  offset_eq_some_iff.mpr ⟨by simp, by simp, rfl, rfl, hr, hc⟩

end Address

namespace Formula

/-- The piece after a move; the character behind a run is not part of it. -/
def Piece.moved (rows columns : Int) : Piece → Piece
  | run name next => run ((run name next).filled rows columns) next
  | piece => piece

/-- Whether a move keeps a reference in the sheet; any other piece stays where it is. -/
def Piece.Stays (rows columns : Int) (piece : Piece) : Prop :=
  ∀ a, piece.reference? = some a → (a.offset rows columns).isSome

/-! ### One piece -/

section Piece

variable {rows columns : Int} {run : Text} {next : Option Char} {piece : Piece}

lemma stays_of_references {formula : Text}
    (h : ∀ a ∈ references formula, (a.offset rows columns).isSome) :
    ∀ piece ∈ pieces formula, piece.Stays rows columns :=
  fun piece hp a ha => h a (List.mem_filterMap.mpr ⟨piece, hp, ha⟩)

lemma stays_zero (piece : Piece) : piece.Stays 0 0 := by
  intro a ha
  have hparse := parse_of_reference? ha
  rw [Address.offset_zero (Address.row_lt_of_parse hparse) (Address.column_lt_of_parse hparse)]
  rfl

lemma Piece.Stays.exists_moved {a : Address} (h : piece.Stays rows columns)
    (ha : piece.reference? = some a) : ∃ moved, a.offset rows columns = some moved ∧
      IsRun moved.toText ∧ Address.parse moved.toText = .ok moved := by
  obtain ⟨moved, hmoved⟩ := Option.isSome_iff_exists.mp (h a ha)
  obtain ⟨-, -, -, -, hr, hc⟩ := Address.offset_eq_some_iff.mp hmoved
  exact ⟨moved, hmoved, Address.isRun_toText hr hc, Address.parse_toText hr hc⟩

/-- What takes the place of a run is a run, so the cuts around it stay. -/
lemma isRun_filled (hrun : IsRun run) (h : (Piece.run run next).Stays rows columns) :
    IsRun ((Piece.run run next).filled rows columns) := by
  rw [Piece.filled]
  cases href : (Piece.run run next).reference? with
  | none => exact hrun
  | some a =>
    obtain ⟨moved, hmoved, himage, -⟩ := h.exists_moved href
    dsimp only
    rw [movedText_of_offset hmoved]
    exact himage

lemma filled_moved (h : piece.Stays rows columns) (rows' columns' : Int) :
    (piece.moved rows columns).filled rows' columns' =
      piece.filled (rows + rows') (columns + columns') := by
  cases piece with
  | quoted => rfl
  | mark => rfl
  | run name next =>
    rw [Piece.moved]
    cases href : (Piece.run name next).reference? with
    | none => simp only [Piece.filled, Piece.text, href]
    | some a =>
      obtain ⟨moved, hmoved, -, hparse⟩ := h.exists_moved href
      have hagain : (Piece.run moved.toText next).reference? = some moved := by
        rw [Piece.reference?] at href ⊢
        split at href
        · cases href
        · next hnext =>
          rw [if_neg hnext, hparse]
          rfl
      simp only [Piece.filled, href, movedText_of_offset hmoved, hagain]
      rw [movedText, movedText, Address.offset_of_offset hmoved]

end Piece

/-! ### Quoted spans -/

section Quoted

variable {quote : Char}

lemma quotedSpan_cons_of_ne {c : Char} (h : c ≠ quote) (s : Text) :
    quotedSpan quote (c :: s) = (c :: (quotedSpan quote s).1, (quotedSpan quote s).2) := by
  cases s with
  | nil => rfl
  | cons d s => rw [quotedSpan, if_neg h]

lemma head?_quotedSpan (quote : Char) (s : Text) :
    ∀ c ∈ (quotedSpan quote s).2.head?, c ≠ quote := by
  fun_induction quotedSpan quote s with
  | case1 => simp
  | case2 => simp
  | case3 rest inside after heq ih => rwa [heq] at ih
  | case4 d rest hd =>
    intro c hc
    cases hc
    exact hd
  | case5 c d rest hc inside after heq ih => rwa [heq] at ih

/-- A span ends where it did, whatever stands behind it now, unless that makes its closing quote a
doubled one. -/
lemma quotedSpan_replace {s t : Text} (hnil : (quotedSpan quote s).2 = [] → t = [])
    (ht : ∀ c ∈ t.head?, c ≠ quote) :
    quotedSpan quote ((quotedSpan quote s).1 ++ t) = ((quotedSpan quote s).1, t) := by
  fun_induction quotedSpan quote s with
  | case1 =>
    rw [hnil rfl]
    rfl
  | case2 c =>
    rw [hnil rfl]
    rfl
  | case3 rest inside after heq ih =>
    rw [heq] at ih
    rw [List.cons_append, List.cons_append, quotedSpan, if_pos rfl, if_pos rfl, ih hnil]
  | case4 d rest hd =>
    cases t with
    | nil => rfl
    | cons e t => rw [List.singleton_append, quotedSpan, if_pos rfl, if_neg (ht e rfl)]
  | case5 c d rest hc inside after heq ih =>
    rw [heq] at ih
    rw [List.cons_append, quotedSpan_cons_of_ne hc, ih hnil]

end Quoted

/-! ### All pieces -/

section Fill

variable {rows columns : Int} {c : Char} {rest : Text}

lemma fill_nil (rows columns : Int) : fill [] rows columns = [] := by
  rw [fill, fillFrom]

lemma fill_quoted (hq : isQuote c = true) (rest : Text) (rows columns : Int) :
    fill (c :: rest) rows columns =
      c :: ((quotedSpan c rest).1 ++ fill (quotedSpan c rest).2 rows columns) := by
  rw [fill_eq_flatMap, pieces, if_pos hq, List.flatMap_cons, ← fill_eq_flatMap]
  rfl

lemma fill_run (hn : isNameChar c = true) (rest : Text) (rows columns : Int) :
    fill (c :: rest) rows columns =
      (Piece.run (c :: rest.takeWhile isNameChar) (rest.dropWhile isNameChar).head?).filled rows
        columns ++ fill (rest.dropWhile isNameChar) rows columns := by
  rw [fill_eq_flatMap, pieces_run hn, List.flatMap_cons, ← fill_eq_flatMap]

lemma fill_mark (hq : ¬isQuote c = true) (hn : ¬isNameChar c = true) (rest : Text)
    (rows columns : Int) : fill (c :: rest) rows columns = c :: fill rest rows columns := by
  rw [fill_eq_flatMap, pieces, if_neg hq, if_neg hn, List.flatMap_cons, ← fill_eq_flatMap]
  rfl

/-- A character that is no name character stays at the front of a formula. -/
lemma head?_fill_of_mark {s : Text} (hs : ∀ c ∈ s.head?, isNameChar c = false)
    (rows columns : Int) : (fill s rows columns).head? = s.head? := by
  cases s with
  | nil => rw [fill_nil]
  | cons c rest =>
    have hn : ¬isNameChar c = true := Bool.eq_false_iff.mp (hs c rfl)
    by_cases hq : isQuote c = true
    · rw [fill_quoted hq]
      rfl
    · rw [fill_mark hq hn]
      rfl

lemma head?_fill_ne {s : Text} {quote : Char} (hq : isQuote quote = true)
    (h : ∀ piece ∈ pieces s, piece.Stays rows columns) (hs : ∀ c ∈ s.head?, c ≠ quote) :
    ∀ c ∈ (fill s rows columns).head?, c ≠ quote := by
  by_cases hmark : ∀ c ∈ s.head?, isNameChar c = false
  · rw [head?_fill_of_mark hmark]
    exact hs
  · cases s with
    | nil => exact absurd (by simp) hmark
    | cons c rest =>
      have hn : isNameChar c = true := by simpa using hmark
      rw [pieces_run hn] at h
      have himage := isRun_filled (isRun_takeWhile hn rest) (h _ List.mem_cons_self)
      rw [fill_run hn, Address.head?_append_of_ne_nil _ himage.ne_nil]
      rintro d hd rfl
      have hname := himage.all d (List.mem_of_mem_head? hd)
      rw [isQuote_of_isNameChar hname] at hq
      cases hq

/-- The pieces of a filled formula are the moved pieces of the formula. -/
theorem pieces_fill {formula : Text} (h : ∀ piece ∈ pieces formula, piece.Stays rows columns) :
    pieces (fill formula rows columns) = (pieces formula).map (Piece.moved rows columns) := by
  fun_induction pieces formula with
  | case1 =>
    rw [fill_nil, pieces]
    rfl
  | case2 c rest hq _ ih =>
    obtain ⟨-, hrest⟩ := List.forall_mem_cons.mp h
    -- No quote comes to stand behind the closing one, which would make the span longer.
    have hspan := quotedSpan_replace (fun hnil => by rw [hnil, fill_nil])
      (head?_fill_ne hq hrest (head?_quotedSpan c rest))
    rw [fill_quoted hq, pieces, if_pos hq, hspan, ih hrest]
    rfl
  | case3 c rest hq hn _ ih =>
    obtain ⟨hstays, hrest⟩ := List.forall_mem_cons.mp h
    have hhead := Text.head?_dropWhile isNameChar rest
    have hkeep := head?_fill_of_mark hhead rows columns
    rw [fill_run hn, pieces_run_append (isRun_filled (isRun_takeWhile hn rest) hstays)
      (by rw [hkeep]; exact hhead), hkeep, ih hrest]
    rfl
  | case4 c rest hq hn ih =>
    obtain ⟨-, hrest⟩ := List.forall_mem_cons.mp h
    rw [fill_mark hq hn, pieces, if_neg hq, if_neg hn, ih hrest]
    rfl

lemma fill_fill_of_stays {formula : Text} (h : ∀ piece ∈ pieces formula, piece.Stays rows columns)
    (rows' columns' : Int) : fill (fill formula rows columns) rows' columns' =
      fill formula (rows + rows') (columns + columns') := by
  rw [fill_eq_flatMap (fill formula rows columns), pieces_fill h, List.flatMap_map,
    fill_eq_flatMap formula]
  exact List.flatMap_congr fun piece hp => filled_moved (h piece hp) rows' columns'

/-- Filling a formula again adds the two moves, also when a reference leaves the sheet at the second
one. Hence filling by nothing twice is filling by nothing once, and moving there and back is filling
by nothing. -/
theorem fill_fill (formula : Text) :
    (∀ rows columns : Int, (∀ a ∈ references formula, (a.offset rows columns).isSome) →
      (∀ rows' columns' : Int, fill (fill formula rows columns) rows' columns' =
        fill formula (rows + rows') (columns + columns')) ∧
      fill (fill formula rows columns) (-rows) (-columns) = fill formula 0 0) ∧
    fill (fill formula 0 0) 0 0 = fill formula 0 0 := by
  refine ⟨?_, fill_fill_of_stays (fun piece _ => stays_zero piece) 0 0⟩
  intro rows columns h
  have hagain := fill_fill_of_stays (stays_of_references h)
  refine ⟨hagain, ?_⟩
  rw [hagain, Int.add_right_neg, Int.add_right_neg]

/-- A move by a row and a column past doubled quotes, and one by which a reference then leaves the
sheet. -/
theorem fill_fill_off_sheet :
    let formula := Text.lit "LOG10(a01)+$B2&\"C1\"\"\"&éA1&x!D3&'A1"
    (∀ a ∈ references formula, (a.offset 1 1).isSome) ∧
      fill (fill formula 1 1) (-2) 0 = Text.lit "LOG10(#REF!)+$B1&\"C1\"\"\"&é#REF!&x!E2&'A1" ∧
      fill (fill formula 1 1) (-1) (-1) = fill formula 0 0 := by
  intro formula
  have h : ∀ a ∈ references formula, (a.offset 1 1).isSome := by decide +kernel
  obtain ⟨hagain, hback⟩ := (fill_fill formula).1 1 1 h
  refine ⟨h, ?_, hback⟩
  rw [hagain]
  decide +kernel

end Fill

end Formula

end SheetGloss
