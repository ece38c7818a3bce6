import SheetGloss.Proofs.CallPlaces
import SheetGloss.Proofs.OpenSpans

/-!
# Calls in filled formulas

Filling touches neither the parentheses of a formula nor the names before them, whatever becomes of
its references. The search for a call therefore takes the same way through a filled formula, and a
call that stands outside quoted spans has its argument filled on its own.
-/

namespace SheetGloss

namespace Formula

variable {rows columns : Int} {span : Option Char} {w rest : Text}

lemma isPlain_filled {run : Text} (hrun : IsRun run) (next : Option Char) :
    ∀ c ∈ (Piece.run run next).filled rows columns, Aggregate.isPlain c = true := by
  rcases filled_cases hrun next rows columns with himage | hlost
  · exact fun c hc => isPlain_of_isNameChar (himage.all c hc)
  · rw [hlost]
    exact List.all_eq_true.mp (by decide)

lemma isPlain_fillWithin (hspan : ∀ quote ∈ span, isQuote quote = true)
    (hw : ∀ c ∈ w, Aggregate.isPlain c = true) :
    ∀ c ∈ fillWithin span w rows columns, Aggregate.isPlain c = true := by
  induction read_text hspan w with
  | nil => simp [fillWithin_nil]
  | @char span c w hspan hc h ih =>
    obtain ⟨hplain, hrest⟩ := List.forall_mem_cons.mp hw
    rw [fillWithin_char hspan hc]
    exact List.forall_mem_cons.mpr ⟨hplain, ih (isQuote_spanBehind hspan c) hrest⟩
  | @last run hrun =>
    rw [fillWithin_last hrun]
    exact isPlain_filled hrun none
  | @run run d w hrun hd h ih =>
    obtain ⟨-, hplain, hrest⟩ : _ ∧ _ ∧ _ := by
      simpa only [List.forall_mem_append, List.forall_mem_cons] using hw
    rw [fillWithin_run hrun (Text.forall_head?_cons.mpr hd), fillWithin_char (by simp) fun _ => hd]
    exact List.forall_mem_append.mpr ⟨isPlain_filled hrun _,
      List.forall_mem_cons.mpr ⟨hplain, ih (isQuote_spanBehind (by simp) d) hrest⟩⟩

lemma fillWithin_close (hspan : ∀ quote ∈ span, isQuote quote = true) :
    fillWithin span (w ++ ')' :: rest) rows columns = fillWithin span w rows columns ++
      ')' :: fillWithin (openAfter span (w ++ [')'])) rest rows columns := by
  have hhead : ∀ c ∈ (')' :: rest).head?, isNameChar c = false ∧ c ≠ '(' ∧ c ≠ '!' :=
    Text.forall_head?_cons.mpr (by decide)
  rw [fillWithin_append hspan (Or.inl hhead), fillWithin_char (isQuote_openAfter hspan w)
    fun _ => rfl, openAfter_append]
  rfl

/-- In front of an opening parenthesis a fill ends as the text does: either it changes nothing there,
or both texts go on alike behind a character that is no name character. -/
lemma exists_fillWithin_open (hspan : ∀ quote ∈ span, isQuote quote = true) (w rest : Text) :
    ∃ image, fillWithin span (w ++ '(' :: rest) rows columns =
        image ++ '(' :: fillWithin (openAfter span (w ++ ['('])) rest rows columns ∧
      ((∀ c ∈ w, Aggregate.isPlain c = true) → ∀ c ∈ image, Aggregate.isPlain c = true) ∧
      (image = w ∨ ∃ u v tail d, w = u ++ d :: tail ∧ image = v ++ d :: tail ∧
        isNameChar d = false) := by
  induction read_text hspan w with
  | nil span => exact ⟨[], fillWithin_char hspan (fun _ => rfl) rest, by simp, Or.inl rfl⟩
  | @char span c w hspan hc h ih =>
    obtain ⟨image, hfill, hplain, hend⟩ := ih (isQuote_spanBehind hspan c)
    refine ⟨c :: image, ?_, ?_, ?_⟩
    · rw [List.cons_append, fillWithin_char hspan hc, hfill]
      rfl
    · intro hw
      obtain ⟨hc, hw⟩ := List.forall_mem_cons.mp hw
      exact List.forall_mem_cons.mpr ⟨hc, hplain hw⟩
    · rcases hend with rfl | ⟨u, v, tail, d, rfl, rfl, hd⟩
      · exact Or.inl rfl
      · exact Or.inr ⟨c :: u, c :: v, tail, d, rfl, rfl, hd⟩
  | @last run hrun =>
    -- The name of a function: it is kept, whether or not it could be a reference.
    have hopen : ∀ c ∈ ('(' :: rest).head?, isNameChar c = false :=
      Text.forall_head?_cons.mpr rfl
    refine ⟨run, ?_, id, Or.inl rfl⟩
    rw [fillWithin_run hrun hopen, fillWithin_char (by simp) fun _ => rfl, openAfter_append,
      openAfter_run hrun.all]
    rfl
  | @run run d w hrun hd h ih =>
    obtain ⟨image, hfill, hplain, hend⟩ := ih (isQuote_spanBehind (by simp) d)
    have hhead {u : Text} : ∀ c ∈ (d :: u).head?, isNameChar c = false :=
      Text.forall_head?_cons.mpr hd
    refine ⟨(Piece.run run (some d)).filled rows columns ++ d :: image, ?_, ?_, Or.inr ?_⟩
    · have hopen : openAfter none (run ++ d :: w ++ ['(']) =
          openAfter (spanBehind none d) (w ++ ['(']) := by
        rw [List.append_assoc, openAfter_append, openAfter_run hrun.all]
        rfl
      rw [List.append_assoc, List.cons_append, fillWithin_run hrun hhead,
        fillWithin_char (by simp) fun _ => hd, hfill, hopen, List.append_assoc]
      rfl
    · intro hw
      obtain ⟨-, hd, hw⟩ : _ ∧ _ ∧ _ := by
        simpa only [List.forall_mem_append, List.forall_mem_cons] using hw
      exact List.forall_mem_append.mpr ⟨isPlain_filled hrun _,
        List.forall_mem_cons.mpr ⟨hd, hplain hw⟩⟩
    · rcases hend with rfl | ⟨u, v, tail, e, rfl, rfl, he⟩
      · exact ⟨run, _, image, d, rfl, rfl, hd⟩
      · exact ⟨run ++ d :: u, (Piece.run run (some d)).filled rows columns ++ d :: v, tail, e,
          by simp, by simp, he⟩

end Formula

namespace Aggregate

open Formula

variable {rows columns : Int} {span before : Option Char} {s w rest : Text}

/-- Two texts that go on alike behind a character that no name holds end in the same name. -/
lemma nameEnding?_congr {image : Text} (h : image = w ∨ ∃ u v tail d, w = u ++ d :: tail ∧
    image = v ++ d :: tail ∧ isNameChar d = false) (before : Option Char) :
    nameEnding? before image = nameEnding? before w := by
  rcases h with rfl | ⟨u, v, tail, d, rfl, rfl, hd⟩
  · rfl
  · have hcall : isCallChar d = false := by
      rw [← Bool.not_eq_true]
      intro hc
      rw [isNameChar_of_isCallChar hc] at hd
      cases hd
    rw [nameEnding?_append hcall, nameEnding?_append hcall]

/-- What the search finds in a text and in the filled text: nothing in both, or calls of the same
aggregate, the argument of the second being the argument of the first, filled from the span that is
open at its call. -/
def Matches (rows columns : Int) (span before : Option Char) (s : Text) : Prop :=
  (firstCallFrom? before s = none ∧ firstCallFrom? before (fillWithin span s rows columns) = none) ∨
    ∃ k aggregate argument, FirstCallAt before s k aggregate argument ∧
      firstCallFrom? before s = some (aggregate, argument) ∧
      firstCallFrom? before (fillWithin span s rows columns) = some (aggregate,
        fillWithin (openAfter span (s.take (k + 1))) argument rows columns)

/-- A step of the search behind a parenthesis at which no call stands. -/
lemma Matches.behind {d : Char} (hw : ∀ c ∈ w, isPlain c = true) (hd : isPlain d = false)
    (hno : ∀ aggregate argument, ¬CallAt before (w ++ d :: s) w.length aggregate argument)
    (hfirst : firstCallFrom? before (w ++ d :: s) = firstCallFrom? (some d) s)
    (hfilled : firstCallFrom? before (fillWithin span (w ++ d :: s) rows columns) =
      firstCallFrom? (some d) (fillWithin (openAfter span (w ++ [d])) s rows columns))
    (h : Matches rows columns (openAfter span (w ++ [d])) (some d) s) :
    Matches rows columns span before (w ++ d :: s) := by
  unfold Matches
  rw [hfirst, hfilled]
  refine h.imp_right ?_
  rintro ⟨k, aggregate, argument, hcall, hs, ht⟩
  refine ⟨w.length + 1 + k, aggregate, argument, hcall.behind hw hd hno, hs, ?_⟩
  have htake : (w ++ d :: s).take (w.length + 1 + k + 1) = w ++ [d] ++ s.take (k + 1) := by
    rw [show w.length + 1 + k + 1 = w.length + (k + 1 + 1) by omega, List.take_length_add_append,
      List.take_succ_cons, List.append_assoc, List.singleton_append]
  rw [ht, htake, openAfter_append span (w ++ [d])]

/-- The search takes the same way through a text and through the filled text. -/
theorem matches_fillWithin {span : Option Char} (hspan : ∀ quote ∈ span, isQuote quote = true)
    (before : Option Char) (s : Text) : Matches rows columns span before s := by
  rcases plain_or_paren s with hs | ⟨w, d, tail, rfl, hw, rfl | rfl⟩
  · exact Or.inl ⟨firstCallFrom?_of_plain hs before,
      firstCallFrom?_of_plain (isPlain_fillWithin hspan hs) before⟩
  · obtain ⟨image, hfill, hplain, hend⟩ := exists_fillWithin_open hspan w tail
    have himage := hplain hw
    have hopen := isQuote_openAfter hspan (w ++ ['('])
    rcases plain_or_paren tail with ha | ⟨argument, d, rest, rfl, ha, rfl | rfl⟩
    · refine Or.inl ⟨firstCallFrom?_unclosed hw ha before, ?_⟩
      rw [hfill, firstCallFrom?_unclosed himage (isPlain_fillWithin hopen ha)]
    · obtain ⟨inner, hinner, hplain, -⟩ := exists_fillWithin_open hopen argument rest
      refine Matches.behind hw rfl (fun _ _ => not_callAt_reopen ha)
        (firstCallFrom?_reopen hw ha before) ?_
        (matches_fillWithin hopen (some '(') (argument ++ '(' :: rest))
      rw [hfill, hinner, firstCallFrom?_reopen himage (hplain ha)]
    · have hargument : ∀ c ∈ fillWithin (openAfter span (w ++ ['('])) argument rows columns,
          isPlain c = true := isPlain_fillWithin hopen ha
      have hname := nameEnding?_congr hend before
      cases hcall : (nameEnding? before w).bind ofName? with
      | some aggregate =>
        have htake : (w ++ '(' :: (argument ++ ')' :: rest)).take (w.length + 1) = w ++ ['('] :=
          List.take_length_add_append 1
        refine Or.inr ⟨w.length, aggregate, argument, FirstCallAt.here hw rfl
          (callAt_length_iff.mpr ⟨⟨rfl, rest, rfl⟩, ha, hcall⟩), ?_, ?_⟩
        · rw [firstCallFrom?_call hw ha, hcall]
        · rw [hfill, fillWithin_close hopen, firstCallFrom?_call himage hargument, hname, hcall,
            htake]
      | none =>
        refine Matches.behind hw rfl (fun _ _ => not_callAt_of_name hcall) ?_ ?_
          (Matches.behind ha rfl (fun _ _ => not_callAt_close) (firstCallFrom?_close ha _) ?_
            (matches_fillWithin (isQuote_openAfter hopen (argument ++ [')'])) (some ')') rest))
        · rw [firstCallFrom?_call hw ha, hcall, firstCallFrom?_close ha]
        · rw [hfill, fillWithin_close hopen, firstCallFrom?_call himage hargument, hname, hcall,
            firstCallFrom?_close hargument]
        · rw [fillWithin_close hopen, firstCallFrom?_close hargument]
  · refine Matches.behind hw rfl (fun _ _ => not_callAt_close) (firstCallFrom?_close hw before) ?_
      (matches_fillWithin (isQuote_openAfter hspan (w ++ [')'])) (some ')') tail)
    rw [fillWithin_close hspan, firstCallFrom?_close (isPlain_fillWithin hspan hw)]
termination_by s.length
decreasing_by all_goals (subst_vars; simp only [List.length_append, List.length_cons]; omega)

/-- Outside spans an opening parenthesis opens none. -/
lemma openAfter_call {formula argument : Text} {k : Nat} {aggregate : Aggregate}
    (h : CallAt none formula k aggregate argument) (hk : inSpan formula k = false) :
    openAfter none (formula.take (k + 1)) = none := by
  have hget := h.getElem?_paren
  have hopen := openAfter_of_not_inSpan hget rfl hk
  rw [List.take_add_one, hget, openAfter_append, hopen]
  rfl

/-- A filled formula has a call exactly when the formula has one, and it is a call of the same
aggregate. Its argument is the filled argument, when the call stands outside quoted spans. -/
theorem firstCall?_fill (formula : Text) (rows columns : Int) :
    (firstCall? (fill formula rows columns) = none ↔ firstCall? formula = none) ∧
      ∀ aggregate argument, firstCall? formula = some (aggregate, argument) →
        ∃ k image, FirstCallAt none formula k aggregate argument ∧
          firstCall? (fill formula rows columns) = some (aggregate, image) ∧
          (inSpan formula k = false → image = fill argument rows columns) := by
  have hspan : ∀ quote ∈ (none : Option Char), isQuote quote = true := by simp
  have hmatch : Matches rows columns none none formula := matches_fillWithin hspan none formula
  unfold firstCall?
  rcases hmatch with ⟨hs, ht⟩ | ⟨k, aggregate, argument, hcall, hs, ht⟩
  · refine ⟨iff_of_true ht hs, ?_⟩
    intro aggregate argument h
    rw [hs] at h
    cases h
  · refine ⟨iff_of_false (by rw [fillWithin] at ht; simp [ht]) (by simp [hs]), ?_⟩
    intro aggregate' argument' h
    rw [hs] at h
    cases h
    refine ⟨k, _, hcall, ht, fun hk => ?_⟩
    rw [openAfter_call hcall.call hk]
    rfl

/-- A call in a string is none, as no parenthesis closes it, and the call behind the string loses a
reference. -/
theorem firstCall?_fill_lost_reference :
    let formula := Text.lit "\"SUM(\"&AVERAGE(A1:$B2&\"C3\")"
    let argument := Text.lit "A1:$B2&\"C3\""
    firstCall? formula = some (.average, argument) ∧
      firstCall? (fill formula (-1) 0) = some (.average, fill argument (-1) 0) ∧
      fill argument (-1) 0 = Text.lit "#REF!:$B1&\"C3\"" := by
  intro formula argument
  have hcall : firstCall? formula = some (.average, argument) := by decide +kernel
  obtain ⟨k, image, hfirst, hfilled, himage⟩ := (firstCall?_fill formula (-1) 0).2 _ _ hcall
  have hplace : ∀ j < formula.length, (formula.drop j).take 13 = '(' :: (argument ++ [')']) →
      inSpan formula j = false := by decide +kernel
  obtain ⟨rest, hrest⟩ := hfirst.call.parentheses
  have hk : k < formula.length := by
    by_contra hge
    rw [List.drop_of_length_le (Nat.not_lt.mp hge)] at hrest
    cases hrest
  rw [himage (hplace k hk (by rw [hrest]; rfl))] at hfilled
  exact ⟨hcall, hfilled, by decide +kernel⟩

end Aggregate

end SheetGloss
