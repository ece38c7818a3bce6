import Mathlib.Data.List.Forall2
import SheetGloss.Proofs.AddressGrammar
import SheetGloss.Proofs.FilledPieces

/-!
# Cutting a formula

The rule by which a formula falls into pieces, and the rule by which a move replaces a piece, stated
as relations. Exactly one cut and exactly one list of images satisfy them, and filling puts these
images together.
-/

namespace SheetGloss.Formula

/-- The text of a quoted span between its quotes: its own quote stands there only doubled. -/
inductive SpanText (quote : Char) : Text → Prop where
  | nil : SpanText quote []
  | char {c : Char} {s : Text} (hc : c ≠ quote) (h : SpanText quote s) : SpanText quote (c :: s)
  | doubled {s : Text} (h : SpanText quote s) : SpanText quote (quote :: quote :: s)

/-- A formula is cut into pieces. A quoted span ends at the first quote that is not doubled, or with
the formula when there is none; a run of name characters is as long as it can be. -/
inductive Cuts : Text → List Piece → Prop where
  | nil : Cuts [] []
  | closed {quote : Char} {inside rest : Text} {ps : List Piece} (hq : quote = '"' ∨ quote = '\'')
      (hinside : SpanText quote inside) (hrest : rest.head? ≠ some quote) (h : Cuts rest ps) :
      Cuts (quote :: (inside ++ quote :: rest)) (.quoted (quote :: (inside ++ [quote])) :: ps)
  | unclosed {quote : Char} {inside : Text} (hq : quote = '"' ∨ quote = '\'')
      (hinside : SpanText quote inside) : Cuts (quote :: inside) [.quoted (quote :: inside)]
  | run {name rest : Text} {ps : List Piece} (hname : IsRun name)
      (hrest : ∀ c ∈ rest.head?, isNameChar c = false) (h : Cuts rest ps) :
      Cuts (name ++ rest) (.run name rest.head? :: ps)
  | mark {c : Char} {rest : Text} {ps : List Piece} (hq : ¬(c = '"' ∨ c = '\''))
      (hc : isNameChar c = false) (h : Cuts rest ps) : Cuts (c :: rest) (.mark c :: ps)

/-- A run refers to a cell: it begins with a letter or a dollar sign, is an address as a whole, and
names neither a function nor a sheet. -/
structure RefersTo (name : Text) (next : Option Char) (a : Address) : Prop where
  begins : ∀ c ∈ name.head?, c = '$' ∨ c.isAlpha = true
  address : Address.parse name = .ok a
  no_function : next ≠ some '('
  no_sheet : next ≠ some '!'

def movedIndex (fixed : Bool) (index : Nat) (distance : Int) : Int :=
  if fixed then index else index + distance

structure InSheet (row column : Int) : Prop where
  row_nonneg : 0 ≤ row
  row_lt : row < maxRows
  column_nonneg : 0 ≤ column
  column_lt : column < maxColumns

/-- What stands for a piece after a move. A reference that stays in the sheet becomes the text, in
capital letters and with no zero at the front of its row, of the row and the column it is moved
to. -/
inductive Image (rows columns : Int) : Piece → Text → Prop where
  | quoted (span : Text) : Image rows columns (.quoted span) span
  | mark (c : Char) : Image rows columns (.mark c) [c]
  | kept {name : Text} {next : Option Char} (h : ∀ a, ¬RefersTo name next a) :
      Image rows columns (.run name next) name
  | moved {name : Text} {next : Option Char} {a : Address} {parts : A1}
      (h : RefersTo name next a) (hparts : parts.Canonical)
      (hrow : (parts.row : Int) = movedIndex a.rowFixed a.row.toNat rows + 1)
      (hcolumn : (parts.column : Int) = movedIndex a.columnFixed a.column.toNat columns + 1)
      (hrowFixed : parts.rowFixed = a.rowFixed)
      (hcolumnFixed : parts.columnFixed = a.columnFixed) :
      Image rows columns (.run name next) parts.text
  | lost {name : Text} {next : Option Char} {a : Address} (h : RefersTo name next a)
      (hout : ¬InSheet (movedIndex a.rowFixed a.row.toNat rows)
        (movedIndex a.columnFixed a.column.toNat columns)) :
      Image rows columns (.run name next) (Text.lit "#REF!")

/-! ### The cut -/

section Cut

variable {quote : Char} {inside rest : Text}

lemma isQuote_iff {c : Char} : isQuote c = true ↔ c = '"' ∨ c = '\'' := by
  simp [isQuote]

lemma SpanText.quotedSpan_closed (h : SpanText quote inside) (hrest : rest.head? ≠ some quote) :
    quotedSpan quote (inside ++ quote :: rest) = (inside ++ [quote], rest) := by
  induction h with
  | nil =>
    cases rest with
    | nil => rfl
    | cons d rest =>
      rw [List.nil_append, quotedSpan, if_pos rfl, if_neg fun hd => hrest (congrArg some hd)]
      rfl
  | char hc h ih => rw [List.cons_append, quotedSpan_cons_of_ne hc, ih, List.cons_append]
  | doubled h ih =>
    rw [List.cons_append, List.cons_append, quotedSpan, if_pos rfl, if_pos rfl, ih]
    rfl

lemma SpanText.quotedSpan_unclosed (h : SpanText quote inside) :
    quotedSpan quote inside = (inside, []) := by
  induction h with
  | nil => rfl
  | char hc h ih => rw [quotedSpan_cons_of_ne hc, ih]
  | doubled h ih => rw [quotedSpan, if_pos rfl, if_pos rfl, ih]

/-- The computed span is closed by a quote that is not doubled, or is never closed. -/
lemma quotedSpan_cases (quote : Char) (s : Text) :
    (∃ inside, SpanText quote inside ∧ (quotedSpan quote s).1 = inside ++ [quote]) ∨
      (SpanText quote (quotedSpan quote s).1 ∧ (quotedSpan quote s).2 = []) := by
  fun_induction quotedSpan quote s with
  | case1 => exact Or.inr ⟨.nil, rfl⟩
  | case2 c =>
    by_cases hc : c = quote
    · exact Or.inl ⟨[], .nil, by rw [hc]; rfl⟩
    · exact Or.inr ⟨.char hc .nil, rfl⟩
  | case3 rest inside after heq ih =>
    rw [heq] at ih
    rcases ih with ⟨body, hbody, he⟩ | ⟨hbody, hnil⟩
    · exact Or.inl ⟨_, .doubled hbody, congrArg (quote :: quote :: ·) he⟩
    · exact Or.inr ⟨.doubled hbody, hnil⟩
  | case4 d rest hd => exact Or.inl ⟨[], .nil, rfl⟩
  | case5 c d rest hc inside after heq ih =>
    rw [heq] at ih
    rcases ih with ⟨body, hbody, he⟩ | ⟨hbody, hnil⟩
    · exact Or.inl ⟨_, .char hc hbody, congrArg (c :: ·) he⟩
    · exact Or.inr ⟨.char hc hbody, hnil⟩

lemma cuts_pieces (formula : Text) : Cuts formula (pieces formula) := by
  fun_induction pieces formula with
  | case1 => exact .nil
  | case2 c rest hq _ ih =>
    have hsplit : c :: rest = c :: ((quotedSpan c rest).1 ++ (quotedSpan c rest).2) := by
      rw [quotedSpan_append]
    rw [hsplit]
    rcases quotedSpan_cases c rest with ⟨inside, hinside, he⟩ | ⟨hinside, hnil⟩
    · rw [he, List.append_assoc]
      exact .closed (isQuote_iff.mp hq) hinside (fun h => head?_quotedSpan c rest c h rfl) ih
    · rw [hnil, List.append_nil, pieces]
      exact .unclosed (isQuote_iff.mp hq) hinside
  | case3 c rest hq hn _ ih =>
    have hcut := Cuts.run (isRun_takeWhile hn rest) (Text.head?_dropWhile isNameChar rest) ih
    rwa [List.cons_append, List.takeWhile_append_dropWhile] at hcut
  | case4 c rest hq hn ih =>
    exact .mark (mt isQuote_iff.mpr hq) (Bool.eq_false_iff.mpr hn) ih

lemma Cuts.pieces_eq {formula : Text} {ps : List Piece} (h : Cuts formula ps) :
    pieces formula = ps := by
  induction h with
  | nil => rw [pieces]
  | closed hq hinside hrest h ih =>
    rw [pieces, if_pos (isQuote_iff.mpr hq), hinside.quotedSpan_closed hrest, ih]
  | unclosed hq hinside =>
    rw [pieces, if_pos (isQuote_iff.mpr hq), hinside.quotedSpan_unclosed, pieces]
  | run hname hrest h ih => rw [pieces_run_append hname hrest, ih]
  | mark hq hc h ih =>
    rw [pieces_mark (Bool.eq_false_iff.mpr (mt isQuote_iff.mp hq)) hc, ih]

theorem cuts_iff {formula : Text} {ps : List Piece} : Cuts formula ps ↔ ps = pieces formula := by
  constructor
  · intro h
    exact h.pieces_eq.symm
  · rintro rfl
    exact cuts_pieces formula

end Cut

/-! ### The images -/

section Image

variable {rows columns : Int} {name : Text} {next : Option Char} {a : Address}

lemma refersTo_iff (hname : IsRun name) :
    RefersTo name next a ↔ (Piece.run name next).reference? = some a := by
  rw [reference?_run_eq_some_iff]
  constructor
  · intro h
    exact ⟨h.address, h.no_function, h.no_sheet⟩
  · rintro ⟨hp, hfunction, hsheet⟩
    exact ⟨begins_of_parse hname.all hp, hp, hfunction, hsheet⟩

lemma offset_eq_none_iff : a.offset rows columns = none ↔
    ¬InSheet (movedIndex a.rowFixed a.row.toNat rows)
      (movedIndex a.columnFixed a.column.toNat columns) := by
  simp only [Address.offset, movedIndex]
  generalize (if a.rowFixed then (a.row.toNat : Int) else a.row.toNat + rows) = row
  generalize (if a.columnFixed then (a.column.toNat : Int) else a.column.toNat + columns) = column
  split
  · next hin =>
    simp only [Bool.and_eq_true, decide_eq_true_eq] at hin
    obtain ⟨⟨⟨hr, hr'⟩, hc⟩, hc'⟩ := hin
    exact iff_of_false (by simp) (not_not_intro ⟨hr, hr', hc, hc'⟩)
  · next hout =>
    simp only [Bool.and_eq_true, decide_eq_true_eq] at hout
    refine iff_of_true rfl ?_
    rintro ⟨hr, hr', hc, hc'⟩
    exact hout ⟨⟨⟨hr, hr'⟩, hc⟩, hc'⟩

lemma image_filled (piece : Piece) (hrun : ∀ name next, piece = .run name next → IsRun name) :
    Image rows columns piece (piece.filled rows columns) := by
  cases piece with
  | quoted span => exact .quoted span
  | mark c => exact .mark c
  | run name next =>
    have hname := hrun name next rfl
    rw [Piece.filled]
    cases href : (Piece.run name next).reference? with
    | none =>
      refine .kept fun a ha => ?_
      rw [(refersTo_iff hname).mp ha] at href
      cases href
    | some a =>
      have ha := (refersTo_iff hname).mpr href
      cases hmove : a.offset rows columns with
      | none =>
        simp only [movedText, hmove]
        exact .lost ha (offset_eq_none_iff.mp hmove)
      | some b =>
        obtain ⟨hrow, hcolumn, hrowFixed, hcolumnFixed, hr, hc⟩ :=
          Address.offset_eq_some_iff.mp hmove
        obtain ⟨hparts, hdenotes⟩ := A1.canonical_ofAddress hr hc
        obtain ⟨hone, hone'⟩ := hparts.valid.one_le
        have hrow' := hdenotes.row
        have hcolumn' := hdenotes.column
        simp only [movedText, hmove]
        rw [← A1.text_ofAddress]
        refine .moved ha hparts ?_ ?_ hrowFixed hcolumnFixed
        · rw [movedIndex, ← hrow]
          omega
        · rw [movedIndex, ← hcolumn]
          omega

lemma Image.eq_filled {piece : Piece} {image : Text} (h : Image rows columns piece image)
    (hrun : ∀ name next, piece = .run name next → IsRun name) :
    image = piece.filled rows columns := by
  cases h with
  | quoted => rfl
  | mark => rfl
  | @kept name next h =>
    have hnone : (Piece.run image next).reference? = none :=
      Option.eq_none_iff_forall_ne_some.mpr fun a ha =>
        h a ((refersTo_iff (hrun image next rfl)).mpr ha)
    rw [Piece.filled, hnone]
    rfl
  | @moved name next a parts h hparts hrow hcolumn hrowFixed hcolumnFixed =>
    obtain ⟨b, hb⟩ := hparts.valid.exists_denotes
    obtain ⟨hr, hc⟩ := hb.inSheet hparts.valid
    obtain ⟨hone, hone'⟩ := hparts.valid.one_le
    have hrow' := hb.row
    have hcolumn' := hb.column
    rw [movedIndex] at hrow hcolumn
    have hmove : a.offset rows columns = some b := Address.offset_eq_some_iff.mpr
      ⟨by omega, by omega, hb.rowFixed.trans hrowFixed, hb.columnFixed.trans hcolumnFixed, hr, hc⟩
    rw [Piece.filled, (refersTo_iff (hrun name next rfl)).mp h, hparts.eq_ofAddress hb,
      A1.text_ofAddress]
    exact (movedText_of_offset hmove).symm
  | @lost name next a h hout =>
    rw [Piece.filled, (refersTo_iff (hrun name next rfl)).mp h]
    simp only [movedText, offset_eq_none_iff.mpr hout]

lemma Cuts.isRun {formula : Text} {ps : List Piece} (h : Cuts formula ps) :
    ∀ piece ∈ ps, ∀ name next, piece = .run name next → IsRun name := by
  induction h with
  | nil => simp
  | closed hq hinside hrest h ih => simpa using ih
  | unclosed hq hinside => simp
  | run hname hrest h ih =>
    refine List.forall_mem_cons.mpr ⟨?_, ih⟩
    rintro name next he
    cases he
    exact hname
  | mark hq hc h ih => simpa using ih

lemma forall₂_image_iff {ps : List Piece} {images : List Text}
    (hrun : ∀ piece ∈ ps, ∀ name next, piece = .run name next → IsRun name) :
    List.Forall₂ (Image rows columns) ps images ↔ images = ps.map (Piece.filled rows columns) := by
  constructor
  · intro h
    induction h with
    | nil => rfl
    | cons himage h ih =>
      obtain ⟨hpiece, hrest⟩ := List.forall_mem_cons.mp hrun
      rw [List.map_cons, ← himage.eq_filled hpiece, ← ih hrest]
  · rintro rfl
    rw [List.forall₂_map_right_iff, List.forall₂_same]
    exact fun piece hp => image_filled piece (hrun piece hp)

end Image

/-- A formula has exactly one cut, its pieces have exactly one list of images, and filling the
formula puts these images together. -/
theorem fill_eq_flatten_images (formula : Text) :
    ∃ ps, (∀ other, Cuts formula other ↔ other = ps) ∧ ps.flatMap Piece.text = formula ∧
      ∀ rows columns : Int, ∃ images,
        (∀ other, List.Forall₂ (Image rows columns) ps other ↔ other = images) ∧
          fill formula rows columns = images.flatten := by
  refine ⟨pieces formula, fun other => cuts_iff, flatMap_text_pieces formula, ?_⟩
  intro rows columns
  have hrun := (cuts_pieces formula).isRun
  refine ⟨(pieces formula).map (Piece.filled rows columns), fun other => forall₂_image_iff hrun, ?_⟩
  rw [fill_eq_flatMap, List.flatMap_def]

/-- Doubled quotes and one that is never closed, a number that looks like a name, a run that begins
with a digit, a function, a sheet, and a reference that leaves the sheet. -/
example : fill (Text.lit "A2+LOG10($B3)&\"A\"\"1\"&Q1!XFD4+1E5+_C1&'A1") 1 1 =
    Text.lit "B3+LOG10($B4)&\"A\"\"1\"&Q1!#REF!+1E5+_C1&'A1" := by
  decide +kernel

end SheetGloss.Formula
