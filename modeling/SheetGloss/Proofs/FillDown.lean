import SheetGloss.Gloss.Basic
import SheetGloss.Proofs.Refilling
import SheetGloss.Proofs.SpanText

/-!
# Filling down a column

A formula filled into another row has its references moved, each within its column. The search for
a call finds the same aggregate, and the ends of its span stay in their columns, so the gloss stays
the same.
-/

namespace SheetGloss

namespace Formula

/-- Two runs are addresses in one column. -/
def SameColumn (run image : Text) : Prop :=
  ∃ a b, Address.parse run = .ok a ∧ Address.parse image = .ok b ∧ a.column = b.column

lemma SameColumn.symm {run image : Text} : SameColumn run image → SameColumn image run := by
  rintro ⟨a, b, ha, hb, h⟩
  exact ⟨b, a, hb, ha, h.symm⟩

namespace Refilled

variable {next : Option Char} {s t : Text}

/-- One end of a span keeps its column. -/
lemma parseColumn_eq_ok {column : UInt16} (h : Refilled SameColumn next false s t)
    (hs : Address.parseColumn s = .ok column) : Address.parseColumn t = .ok column := by
  have hcore := Address.isRun_of_parseColumn hs
  obtain ⟨before, after, hsplit, hb, ha⟩ := Text.exists_trim s
  have hname : ∀ c ∈ after, isNameChar c = false := fun c hc => isNameChar_of_isBlank (ha c hc)
  rw [hsplit] at h
  obtain ⟨t₁, rfl, h₁⟩ := h.of_marks fun c hc => isNameChar_of_isBlank (hb c hc)
  obtain ⟨image, t₂, rfl, h₂, himage⟩ := h₁.of_run hcore
    fun c hc => hname c (List.mem_of_mem_head? hc)
  rw [h₂.eq_of_marks hname]
  rcases himage with rfl | ⟨hrun, a, b, hpa, hpb, heq⟩
  · rw [← hsplit]
    exact hs
  · have ht : Text.trim (before ++ (image ++ after)) = image :=
      Text.trim_between_of_all hb (fun c hc => isBlank_of_isNameChar (hrun.all c hc)) ha
    rw [Address.parse_trim] at hpa
    rw [Address.parseColumn_of_parse hpa] at hs
    rw [Address.parseColumn_of_parse (show Address.parse (before ++ (image ++ after)) = .ok b by
      rw [← Address.parse_trim, ht, hpb]), ← heq]
    exact hs

/-- The span of an argument stays the same. -/
lemma parse_eq_ok {span : ColumnSpan} (h : Refilled SameColumn next false s t)
    (hs : ColumnSpan.parse s = .ok span) : ColumnSpan.parse t = .ok span := by
  obtain ⟨left, right, rfl, hl, hr, hf, hlast, hle⟩ := ColumnSpan.parse_eq_ok_iff.mp hs
  obtain ⟨left', right', rfl, hleft, hright⟩ := h.cut rfl
  have hcolon {w w' : Text} {next : Option Char} (hw : Refilled SameColumn next false w w')
      (h : ':' ∉ w) : ':' ∉ w' := by
    intro hm
    refine hw.forall_mem (P := (· ≠ ':')) ?_ (fun c hc he => h (he ▸ hc)) ':' hm rfl
    rintro c hc rfl
    cases hc
  exact ColumnSpan.parse_eq_ok_iff.mpr ⟨left', right', rfl, hcolon hleft hl, hcolon hright hr,
    hleft.parseColumn_eq_ok hf, hright.parseColumn_eq_ok hlast, hle⟩

lemma toOption_parse_eq (h : Refilled SameColumn next false s t) :
    (ColumnSpan.parse t).toOption = (ColumnSpan.parse s).toOption := by
  cases hs : ColumnSpan.parse s with
  | ok span => rw [h.parse_eq_ok hs]
  | error e =>
    cases ht : ColumnSpan.parse t with
    | error e => rfl
    | ok span =>
      rw [(h.symm fun _ _ => SameColumn.symm).parse_eq_ok ht] at hs
      cases hs

/-- Formulas that differ in the rows of references have the same gloss. -/
theorem gloss?_eq (h : Refilled SameColumn next false s t) (headers : HeaderRow) :
    gloss? t headers = gloss? s headers := by
  have hcall := h.firstCallFrom? none
  simp only [gloss?, Aggregate.firstCall?]
  generalize Aggregate.firstCallFrom? none s = first at hcall ⊢
  generalize Aggregate.firstCallFrom? none t = second at hcall ⊢
  cases hcall with
  | none => rfl
  | @some p q hpq =>
    obtain ⟨aggregate, argument⟩ := p
    obtain ⟨aggregate', argument'⟩ := q
    obtain ⟨rfl, harg⟩ := hpq
    simp only [Option.bind_eq_bind, Option.bind_some, harg.toOption_parse_eq]

end Refilled

lemma quotedSpan_ends (quote : Char) (s : Text) :
    (quotedSpan quote s).2 = [] ∨ (quotedSpan quote s).1.getLast? = some quote := by
  fun_induction quotedSpan quote s with
  | case1 => exact Or.inl rfl
  | case2 => exact Or.inl rfl
  | case3 rest inside after heq ih =>
    rw [heq] at ih
    refine ih.imp_right fun h => ?_
    rw [List.getLast?_cons, List.getLast?_cons, h]
    rfl
  | case4 d rest h => exact Or.inr rfl
  | case5 c d rest hc inside after heq ih =>
    rw [heq] at ih
    refine ih.imp_right fun h => ?_
    rw [List.getLast?_cons, h]
    rfl

/-- Filling replaces references and nothing else. -/
theorem refilled_fill {R : Text → Text → Prop} {formula : Text} {rows columns : Int}
    (h : ∀ piece ∈ pieces formula, ∀ a, piece.reference? = some a →
      IsRun (movedText rows columns a) ∧ R piece.text (movedText rows columns a)) :
    Refilled R none false formula (fill formula rows columns) := by
  rw [fill_eq_flatMap]
  fun_induction pieces formula with
  | case1 => exact Refilled.nil false
  | case2 c rest hq _ ih =>
    have hrest := ih fun piece hp => h piece (List.mem_cons_of_mem _ hp)
    have hsplit : c :: rest = c :: (quotedSpan c rest).1 ++ (quotedSpan c rest).2 := by
      rw [List.cons_append, quotedSpan_append]
    rw [hsplit, List.flatMap_cons]
    rcases quotedSpan_ends c rest with hnil | hlast
    · rw [hnil, pieces, List.flatMap_nil]
      exact Refilled.refl false _
    · have hc : isNameChar c = false := by
        rw [← Bool.not_eq_true]
        intro hn
        rw [isQuote_of_isNameChar hn] at hq
        cases hq
      refine Refilled.keep_append _ (c := c) ?_ (by rw [hc]; exact hrest)
      rw [List.getLast?_cons, hlast]
      rfl
  | case3 c rest hq hn _ ih =>
    have hrest := ih fun piece hp => h piece (List.mem_cons_of_mem _ hp)
    have hhead := Text.head?_dropWhile isNameChar rest
    have hrun := isRun_takeWhile hn rest
    have hsplit : c :: rest =
        c :: rest.takeWhile isNameChar ++ rest.dropWhile isNameChar := by
      rw [List.cons_append, List.takeWhile_append_dropWhile]
    have hpiece := h _ List.mem_cons_self
    rw [hsplit, List.flatMap_cons]
    generalize c :: rest.takeWhile isNameChar = run at hrun hpiece ⊢
    generalize rest.dropWhile isNameChar = tail at hrest hhead hpiece ⊢
    cases href : (Piece.run run tail.head?).reference? with
    | none =>
      obtain ⟨d, hd⟩ := Option.isSome_iff_exists.mp (List.getLast?_isSome.mpr hrun.ne_nil)
      rw [Piece.filled, href]
      refine Refilled.keep_append run hd ?_
      rw [hrun.all d (List.mem_of_getLast? hd)]
      exact hrest.of_head hhead
    | some a =>
      obtain ⟨himage, hR⟩ := hpiece a href
      rw [Piece.filled, href]
      refine Refilled.move hrun himage hR ?_ (hrest.of_head hhead)
      intro d hd
      rw [Option.or_none] at hd
      refine ⟨hhead d hd, ?_⟩
      rintro rfl
      rw [Piece.reference?, Option.mem_def.mp hd] at href
      cases href
  | case4 c rest hq hn ih =>
    have hrest := ih fun piece hp => h piece (List.mem_cons_of_mem _ hp)
    rw [← Bool.eq_false_iff.mpr hn] at hrest
    exact Refilled.keep false c hrest

/-- Filling a formula into another row of its column does not change its gloss, when no reference
leaves the sheet. -/
theorem gloss?_fill_rows {formula : Text} {rows : Int}
    (h : ∀ a ∈ references formula, (a.offset rows 0).isSome) (headers : HeaderRow) :
    gloss? (fill formula rows 0) headers = gloss? formula headers := by
  apply Refilled.gloss?_eq
  apply refilled_fill
  intro piece hp a ha
  obtain ⟨moved, hmoved⟩ := Option.isSome_iff_exists.mp
    (h a (List.mem_filterMap.mpr ⟨piece, hp, ha⟩))
  obtain ⟨-, hcolumn, -, -, hr, hc⟩ := Address.offset_eq_some_iff.mp hmoved
  have heq : a.column = moved.column := by
    apply UInt16.toNat_inj.mp
    split at hcolumn <;> omega
  rw [movedText_of_offset hmoved]
  exact ⟨Address.isRun_toText hr hc, a, moved, parse_of_reference? ha,
    Address.parse_toText hr hc, heq⟩

/-- A move by three rows past a string, the quoted name of a sheet and a fixed row. -/
theorem gloss?_fill_rows_mixed :
    let formula := Text.lit "IF(é1>\"A2\",SUM( b2:$C$2 ))&'A1'!D2"
    let headers := HeaderRow.ofList [Text.lit "Price", Text.lit "Qty", Text.lit "Total"]
    (∀ a ∈ references formula, (a.offset 3 0).isSome) ∧
      fill formula 3 0 = Text.lit "IF(é1>\"A2\",SUM( B5:$C$2 ))&'A1'!D5" ∧
      gloss? (fill formula 3 0) headers = some (Text.lit "SUM(Qty + Total)") := by
  intro formula headers
  have h : ∀ a ∈ references formula, (a.offset 3 0).isSome := by decide +kernel
  refine ⟨h, by decide +kernel, ?_⟩
  rw [gloss?_fill_rows h headers]
  decide +kernel

end Formula

end SheetGloss
