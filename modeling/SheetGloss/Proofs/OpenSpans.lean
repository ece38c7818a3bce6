import SheetGloss.Proofs.FillAcross
import SheetGloss.Proofs.FilledPieces

/-!
# Open spans

How far a fill has come in a formula is told by one thing: the quote of the span that is open there,
if any. A formula can so be filled in parts, each from the span that the parts before it leave open.
-/

namespace SheetGloss.Formula

/-- The quote of the open span behind a character. A doubled quote closes its span and opens it
again. -/
def spanBehind (span : Option Char) (c : Char) : Option Char :=
  match span with
  | none => if isQuote c then some c else none
  | some quote => if c = quote then none else some quote

/-- The quote of the span that a text leaves open. -/
def openAfter (span : Option Char) (s : Text) : Option Char := s.foldl spanBehind span

/-- A formula with its references moved, when its beginning may stand inside a span. -/
def fillWithin (span : Option Char) (s : Text) (rows columns : Int) : Text :=
  match span with
  | none => fill s rows columns
  | some quote => (quotedSpan quote s).1 ++ fill (quotedSpan quote s).2 rows columns

/-- The steps in which a fill goes through a text: a character at a time, but outside spans a
longest run of name characters at once. -/
inductive Read : Option Char → Text → Prop where
  | nil (span : Option Char) : Read span []
  | char {span : Option Char} {c : Char} {s : Text} (hspan : ∀ quote ∈ span, isQuote quote = true)
      (hc : span = none → isNameChar c = false) (h : Read (spanBehind span c) s) :
      Read span (c :: s)
  | last {run : Text} (hrun : IsRun run) : Read none run
  | run {run : Text} {d : Char} {s : Text} (hrun : IsRun run) (hd : isNameChar d = false)
      (h : Read (spanBehind none d) s) : Read none (run ++ d :: s)

/-- The piece in which place `k` lies, in the text of a list of pieces. -/
def pieceAt : List Piece → Nat → Option Piece
  | [], _ => none
  | piece :: ps, k =>
    if k < piece.text.length then some piece else pieceAt ps (k - piece.text.length)

def Piece.isSpan : Piece → Bool
  | quoted _ => true
  | _ => false

/-- Whether place `k` of a formula lies in a quoted span. -/
def inSpan (formula : Text) (k : Nat) : Bool := (pieceAt (pieces formula) k).any Piece.isSpan

/-- The quote of a quoted span. -/
def Piece.quote? : Piece → Option Char
  | quoted span => span.head?
  | _ => none

/-- The quote of the quoted span in which place `k` of a formula lies. -/
def spanAt (formula : Text) (k : Nat) : Option Char :=
  (pieceAt (pieces formula) k).bind Piece.quote?

variable {rows columns : Int} {span : Option Char} {quote c : Char} {s w : Text} {k : Nat}

/-! ### Steps -/

lemma openAfter_append (span : Option Char) (w s : Text) :
    openAfter span (w ++ s) = openAfter (openAfter span w) s := List.foldl_append

lemma isQuote_spanBehind (hspan : ∀ quote ∈ span, isQuote quote = true) (c : Char) :
    ∀ quote ∈ spanBehind span c, isQuote quote = true := by
  intro quote hquote
  cases span with
  | none =>
    rw [spanBehind] at hquote
    split at hquote
    · next hc =>
      cases hquote
      exact hc
    · cases hquote
  | some q =>
    rw [spanBehind] at hquote
    split at hquote
    · cases hquote
    · cases hquote
      exact hspan quote rfl

lemma isQuote_openAfter (hspan : ∀ quote ∈ span, isQuote quote = true) (s : Text) :
    ∀ quote ∈ openAfter span s, isQuote quote = true := by
  induction s generalizing span with
  | nil => exact hspan
  | cons c s ih => exact ih (isQuote_spanBehind hspan c)

lemma spanBehind_of_isQuote (hq : isQuote c = false) : spanBehind none c = none := by
  rw [spanBehind, if_neg (Bool.eq_false_iff.mp hq)]

lemma openAfter_of_not_quote (hspan : ∀ quote ∈ span, isQuote quote = true)
    (hs : ∀ c ∈ s, isQuote c = false) : openAfter span s = span := by
  induction s with
  | nil => rfl
  | cons c s ih =>
    obtain ⟨hc, hs⟩ := List.forall_mem_cons.mp hs
    have hstep : spanBehind span c = span := by
      cases span with
      | none => exact spanBehind_of_isQuote hc
      | some quote =>
        rw [spanBehind, if_neg]
        rintro rfl
        rw [hspan c rfl] at hc
        cases hc
    rw [openAfter, List.foldl_cons, hstep]
    exact ih hs

lemma openAfter_run (hrun : ∀ c ∈ s, isNameChar c = true) : openAfter none s = none :=
  openAfter_of_not_quote (by simp) fun c hc => isQuote_of_isNameChar (hrun c hc)

theorem read_text {span : Option Char} (hspan : ∀ quote ∈ span, isQuote quote = true) (s : Text) :
    Read span s := by
  cases s with
  | nil => exact .nil span
  | cons c rest =>
    by_cases hc : span = none → isNameChar c = false
    · exact .char hspan hc (read_text (isQuote_spanBehind hspan c) rest)
    · obtain ⟨rfl, hn⟩ := Classical.not_imp.mp hc
      have hrun := isRun_takeWhile (by simpa using hn) rest
      have hsplit : c :: rest = c :: rest.takeWhile isNameChar ++ rest.dropWhile isNameChar := by
        rw [List.cons_append, List.takeWhile_append_dropWhile]
      have hhead := Text.head?_dropWhile isNameChar rest
      have hlength := length_dropWhile_le isNameChar rest
      rw [hsplit]
      generalize rest.dropWhile isNameChar = tail at hhead hlength ⊢
      cases tail with
      | nil =>
        rw [List.append_nil]
        exact .last hrun
      | cons d tail =>
        have hd := hhead d rfl
        exact .run hrun hd (read_text (isQuote_spanBehind (by simp) d) tail)
termination_by s.length
decreasing_by all_goals (subst_vars; simp only [List.length_cons] at *; omega)

lemma fillWithin_nil (span : Option Char) : fillWithin span [] rows columns = [] := by
  cases span with
  | none => exact fill_nil rows columns
  | some quote => simp [fillWithin, quotedSpan, fill_nil]

lemma fillWithin_char (hspan : ∀ quote ∈ span, isQuote quote = true)
    (hc : span = none → isNameChar c = false) (s : Text) :
    fillWithin span (c :: s) rows columns = c :: fillWithin (spanBehind span c) s rows columns := by
  cases span with
  | none =>
    have hn := Bool.eq_false_iff.mp (hc rfl)
    rw [spanBehind]
    split
    · next hq => exact fill_quoted hq s rows columns
    · next hq => exact fill_mark hq hn s rows columns
  | some quote =>
    rw [spanBehind]
    split
    · next hquote =>
      subst hquote
      cases s with
      | nil => simp [fillWithin, quotedSpan, fill_nil]
      | cons d s =>
        by_cases hd : d = c
        · -- A doubled quote: the span goes on as if it were opened again.
          subst hd
          have hopen := fill_quoted (hspan d rfl) s rows columns
          simp [fillWithin, quotedSpan, hopen]
        · simp [fillWithin, quotedSpan, hd]
    · next hquote =>
      simp only [fillWithin, quotedSpan_cons_of_ne hquote, List.cons_append]

lemma fillWithin_run {run : Text} (hrun : IsRun run) (hs : ∀ c ∈ s.head?, isNameChar c = false) :
    fillWithin none (run ++ s) rows columns =
      (Piece.run run s.head?).filled rows columns ++ fillWithin none s rows columns := by
  rw [fillWithin, fill_eq_flatMap, pieces_run_append hrun hs, List.flatMap_cons, ← fill_eq_flatMap]
  rfl

lemma fillWithin_last {run : Text} (hrun : IsRun run) :
    fillWithin none run rows columns = (Piece.run run none).filled rows columns := by
  have hnil : ∀ c ∈ ([] : Text).head?, isNameChar c = false := by simp
  rw [← List.append_nil run, fillWithin_run hrun hnil, fillWithin_nil, List.append_nil,
    List.append_nil, List.head?_nil]

/-- Two parts of a formula fill on their own, from the span that the first leaves open, when no name
goes on from one to the other and the first is not called or followed by the mark of a sheet. -/
theorem fillWithin_append (hspan : ∀ quote ∈ span, isQuote quote = true)
    (hcut : (∀ c ∈ s.head?, isNameChar c = false ∧ c ≠ '(' ∧ c ≠ '!') ∨
      ∀ c ∈ w.getLast?, isNameChar c = false) :
    fillWithin span (w ++ s) rows columns =
      fillWithin span w rows columns ++ fillWithin (openAfter span w) s rows columns := by
  induction read_text hspan w with
  | nil => rw [List.nil_append, fillWithin_nil, openAfter, List.foldl_nil, List.nil_append]
  | @char span c w hspan hc h ih =>
    have hlast : (∀ d ∈ (c :: w).getLast?, isNameChar d = false) →
        ∀ d ∈ w.getLast?, isNameChar d = false := by
      intro hall d hd
      apply hall
      rw [List.getLast?_cons, Option.mem_def.mp hd]
      rfl
    rw [List.cons_append, fillWithin_char hspan hc, fillWithin_char hspan hc,
      ih (isQuote_spanBehind hspan c) (hcut.imp_right hlast), List.cons_append]
    rfl
  | @last run hrun =>
    rcases hcut with hs | hlast
    · rw [fillWithin_run hrun fun c hc => (hs c hc).1, fillWithin_last hrun,
        openAfter_run hrun.all, filled_run rows columns fun c hc => (hs c hc).2,
        filled_run rows columns (by simp)]
    · obtain ⟨c, hc⟩ := Option.isSome_iff_exists.mp (List.getLast?_isSome.mpr hrun.ne_nil)
      have hname := hrun.all c (List.mem_of_getLast? hc)
      rw [hlast c hc] at hname
      cases hname
  | @run run d w hrun hd h ih =>
    have hhead {u : Text} : ∀ c ∈ (d :: u).head?, isNameChar c = false :=
      Text.forall_head?_cons.mpr hd
    have hlast : (∀ c ∈ (run ++ d :: w).getLast?, isNameChar c = false) →
        ∀ c ∈ w.getLast?, isNameChar c = false := by
      intro hall c hc
      apply hall
      rw [List.getLast?_append, List.getLast?_cons, Option.mem_def.mp hc]
      rfl
    have hopen : openAfter none (run ++ d :: w) = openAfter (spanBehind none d) w := by
      rw [openAfter_append, openAfter_run hrun.all]
      rfl
    rw [List.append_assoc, List.cons_append, fillWithin_run hrun hhead, fillWithin_run hrun hhead,
      fillWithin_char (by simp) fun _ => hd, fillWithin_char (by simp) fun _ => hd,
      ih (isQuote_spanBehind (by simp) d) (hcut.imp_right hlast), hopen, List.append_assoc,
      List.cons_append]
    rfl

/-- What stands for a run is a run again, unless the reference is lost. -/
lemma filled_cases {run : Text} (hrun : IsRun run) (next : Option Char) (rows columns : Int) :
    IsRun ((Piece.run run next).filled rows columns) ∨
      (Piece.run run next).filled rows columns = Text.lit "#REF!" := by
  rw [Piece.filled]
  cases (Piece.run run next).reference? with
  | none => exact Or.inl hrun
  | some a =>
    dsimp only
    rw [movedText]
    cases hmove : a.offset rows columns with
    | none => exact Or.inr rfl
    | some b =>
      obtain ⟨-, -, -, -, hr, hc⟩ := Address.offset_eq_some_iff.mp hmove
      exact Or.inl (Address.isRun_toText hr hc)

/-! ### Places in spans -/

lemma openAfter_quotedSpan {quote : Char} (hq : isQuote quote = true) (s : Text) :
    (quotedSpan quote s).2 = [] ∨ openAfter (some quote) (quotedSpan quote s).1 = none := by
  fun_induction quotedSpan quote s with
  | case1 => exact Or.inl rfl
  | case2 => exact Or.inl rfl
  | case3 rest inside after heq ih =>
    rw [heq] at ih
    refine ih.imp_right fun h => ?_
    simpa [openAfter, spanBehind, hq] using h
  | case4 d rest hd => exact Or.inr (by simp [openAfter, spanBehind])
  | case5 c d rest hc inside after heq ih =>
    rw [heq] at ih
    refine ih.imp_right fun h => ?_
    rw [openAfter, List.foldl_cons, spanBehind, if_neg hc]
    exact h

lemma openAfter_take {u v : Text} {k : Nat} (hu : openAfter none u = none) (hk : u.length ≤ k) :
    openAfter none ((u ++ v).take k) = openAfter none (v.take (k - u.length)) := by
  rw [List.take_append, List.take_of_length_le hk, openAfter_append, hu]

/-- Inside a span it is open in front of every character but its quote. -/
lemma openAfter_quotedSpan_take (hq : isQuote quote = true) (hc : c ≠ quote)
    (hk : (quotedSpan quote s).1[k]? = some c) :
    openAfter (some quote) ((quotedSpan quote s).1.take k) = some quote := by
  fun_induction quotedSpan quote s generalizing k with
  | case1 => cases hk
  | case2 d =>
    cases k with
    | zero => rfl
    | succ k => cases hk
  | case3 rest inside after heq ih =>
    rw [heq] at ih
    rcases k with _ | _ | k
    · exact absurd (Option.some.inj hk).symm hc
    · exact absurd (Option.some.inj hk).symm hc
    · have hinside := ih hk
      simpa [openAfter, spanBehind, hq] using hinside
  | case4 d rest hd =>
    cases k with
    | zero => exact absurd (Option.some.inj hk).symm hc
    | succ k => cases hk
  | case5 d e rest hd inside after heq ih =>
    rw [heq] at ih
    cases k with
    | zero => rfl
    | succ k =>
      rw [List.take_succ_cons, openAfter, List.foldl_cons, spanBehind, if_neg hd]
      exact ih hk

/-- What is open in front of a character that is no quote is the span in which it lies. -/
theorem spanAt_eq_openAfter {formula : Text} (hk : formula[k]? = some c)
    (hc : isQuote c = false) : spanAt formula k = openAfter none (formula.take k) := by
  rw [spanAt]
  fun_induction pieces formula generalizing k with
  | case1 => cases hk
  | case2 quote rest hq _ ih =>
    have hsplit : quote :: rest =
        quote :: (quotedSpan quote rest).1 ++ (quotedSpan quote rest).2 := by
      rw [List.cons_append, quotedSpan_append]
    rw [hsplit] at hk ⊢
    rw [pieceAt, Piece.text]
    split
    · next hshort =>
      rw [List.getElem?_append_left hshort] at hk
      rw [List.take_append_of_le_length (Nat.le_of_lt hshort)]
      have hne : c ≠ quote := by
        rintro rfl
        rw [hq] at hc
        cases hc
      cases k with
      | zero => exact absurd (Option.some.inj hk).symm hne
      | succ k =>
        rw [List.take_succ_cons, openAfter, List.foldl_cons, spanBehind, if_pos hq]
        exact (openAfter_quotedSpan_take hq hne hk).symm
    · next hlong =>
      have hle := Nat.not_lt.mp hlong
      rw [List.getElem?_append_right hle] at hk
      have hclosed : openAfter none (quote :: (quotedSpan quote rest).1) = none := by
        rcases openAfter_quotedSpan hq rest with hnil | hclosed
        · rw [hnil] at hk
          cases hk
        · rw [openAfter, List.foldl_cons, spanBehind, if_pos hq]
          exact hclosed
      rw [openAfter_take hclosed hle]
      exact ih hk
  | case3 d rest hq hn _ ih =>
    have hrun := (isRun_takeWhile hn rest).all
    have hsplit : d :: rest = d :: rest.takeWhile isNameChar ++ rest.dropWhile isNameChar := by
      rw [List.cons_append, List.takeWhile_append_dropWhile]
    rw [hsplit] at hk ⊢
    rw [pieceAt, Piece.text]
    split
    · next hshort =>
      rw [List.take_append_of_le_length (Nat.le_of_lt hshort)]
      exact (openAfter_run fun d hd => hrun d (List.mem_of_mem_take hd)).symm
    · next hlong =>
      have hle := Nat.not_lt.mp hlong
      rw [List.getElem?_append_right hle] at hk
      rw [openAfter_take (openAfter_run hrun) hle]
      exact ih hk
  | case4 d rest hq hn ih =>
    cases k with
    | zero => rfl
    | succ k =>
      rw [pieceAt, Piece.text, if_neg (by simp), List.take_succ_cons, openAfter, List.foldl_cons,
        spanBehind_of_isQuote (Bool.eq_false_iff.mpr hq)]
      exact ih hk

/-- No span is open in front of a character outside spans. -/
lemma openAfter_of_not_inSpan {formula : Text} (hk : formula[k]? = some c)
    (hc : isQuote c = false) (h : inSpan formula k = false) :
    openAfter none (formula.take k) = none := by
  rw [← spanAt_eq_openAfter hk hc, spanAt]
  rw [inSpan] at h
  cases hpiece : pieceAt (pieces formula) k with
  | none => rfl
  | some piece =>
    rw [hpiece] at h
    cases piece with
    | quoted span => cases h
    | run name next => rfl
    | mark c => rfl

end SheetGloss.Formula
