import SheetGloss.Proofs.CallSearch
import SheetGloss.Proofs.FormulaPieces
import SheetGloss.Proofs.SpanText

/-!
# Filling across columns

A call over a span that is filled into another cell keeps its name, and an end of its span that is
an address moves with the cell. An end that is a column alone is no reference to the fill, and
stays where it is.
-/

namespace SheetGloss

namespace Formula

/-- Where the end `s` of a span, in a given column, lies after filling: only an address moves. -/
def filledEnd (columns : Int) (s : Text) (column : UInt16) : Int :=
  match Address.parse s with
  | .ok a => if a.columnFixed then column.toNat else column.toNat + columns
  | .error _ => column.toNat

/-- Where the end of a span lies after a move of every column without a dollar sign. -/
def movedEnd (columns : Int) (s : Text) (column : UInt16) : Int :=
  if (Address.dollar (Text.trim s)).1 then column.toNat else column.toNat + columns

/-- Whether filling moves the end of a span as far as its columns: it is a whole address, or has a
dollar sign, or the columns do not move. -/
def Follows (columns : Int) (s : Text) : Prop :=
  (∃ a, Address.parse s = .ok a) ∨ (Address.dollar (Text.trim s)).1 = true ∨ columns = 0

/-- The argument is a span from the first to the last column, and is no span when they are in the
wrong order. -/
def Spans (argument : Text) (first last : Int) : Prop :=
  match ColumnSpan.parse argument with
  | .ok span => first ≤ last ∧ (span.first.toNat : Int) = first ∧ (span.last.toNat : Int) = last
  | .error _ => last < first

/-- What filling makes of a run that names neither a function nor a sheet. -/
def filledRun (rows columns : Int) (run : Text) : Text :=
  match Address.parse run with
  | .ok a => movedText rows columns a
  | .error _ => run

instance (argument : Text) (first last : Int) : Decidable (Spans argument first last) := by
  unfold Spans
  split <;> infer_instance

lemma dollar_of_parse {s : Text} {a : Address} (h : Address.parse s = .ok a) :
    (Address.dollar (Text.trim s)).1 = a.columnFixed := by
  obtain ⟨letters, digits, hs, ht⟩ := Address.parse_eq_ok_iff.mp h
  have hhead : ∀ c ∈ (letters ++ (Address.mark a.rowFixed ++ digits)).head?, c ≠ '$' := by
    rw [Address.head?_append_of_ne_nil _ hs.column.ne_nil]
    rintro c hc rfl
    exact absurd (hs.column.alpha '$' (List.mem_of_mem_head? hc)) (by decide)
  rw [ht, Address.spelled, Address.dollar_mark a.columnFixed hhead]

/-- Filling moves an end with the columns, except for a column alone without a dollar sign. -/
lemma filledEnd_eq_movedEnd_iff {columns : Int} {s : Text} {column : UInt16} :
    filledEnd columns s column = movedEnd columns s column ↔
      Follows columns s := by
  unfold filledEnd movedEnd Follows
  cases h : Address.parse s with
  | ok a =>
    rw [dollar_of_parse h]
    exact iff_of_true rfl (Or.inl ⟨a, rfl⟩)
  | error e =>
    by_cases hfixed : (Address.dollar (Text.trim s)).1 = true
    · rw [if_pos hfixed]
      exact iff_of_true rfl (Or.inr (Or.inl hfixed))
    · rw [if_neg hfixed]
      constructor
      · intro heq
        exact Or.inr (Or.inr (by dsimp only at heq; omega))
      · rintro (⟨a, ha⟩ | hf | hc)
        · cases ha
        · exact absurd hf hfixed
        · dsimp only
          omega

lemma flatMap_filled_marks (rows columns : Int) (w : Text) :
    (w.map Piece.mark).flatMap (Piece.filled rows columns) = w := by
  induction w with
  | nil => rfl
  | cons c w ih =>
    rw [List.map_cons, List.flatMap_cons, ih]
    rfl

lemma filled_run {run : Text} {next : Option Char} (rows columns : Int)
    (hnext : ∀ c ∈ next, c ≠ '(' ∧ c ≠ '!') :
    (Piece.run run next).filled rows columns = filledRun rows columns run := by
  have hn : ¬(decide (next = some '(') || decide (next = some '!')) = true := by
    intro h
    rw [Bool.or_eq_true, decide_eq_true_eq, decide_eq_true_eq] at h
    rcases h with h | h
    · exact (hnext '(' h).1 rfl
    · exact (hnext '!' h).2 rfl
  rw [Piece.filled, Piece.reference?, if_neg hn, filledRun]
  cases Address.parse run <;> rfl

/-- The end of a span, with blanks around it and another character behind it, fills on its own. -/
lemma fill_end {before run after : Text} {p : Char} (hb : ∀ c ∈ before, Text.isBlank c = true)
    (hrun : IsRun run) (ha : ∀ c ∈ after, Text.isBlank c = true) (hp : p = ':' ∨ p = ')')
    (rows columns : Int) (s : Text) :
    fill (before ++ (run ++ after) ++ p :: s) rows columns =
      before ++ (filledRun rows columns run ++ after) ++ p :: fill s rows columns := by
  have hmark {w : Text} (hw : ∀ c ∈ w, Text.isBlank c = true) :
      ∀ c ∈ w, isQuote c = false ∧ isNameChar c = false :=
    fun c hc => ⟨isQuote_of_isBlank (hw c hc), isNameChar_of_isBlank (hw c hc)⟩
  have htail : ∀ c ∈ after ++ [p], isQuote c = false ∧ isNameChar c = false := by
    intro c hc
    rcases List.mem_append.mp hc with hc | hc
    · exact hmark ha c hc
    · rw [List.mem_singleton.mp hc]
      rcases hp with rfl | rfl <;> decide
  have hnext : ∀ c ∈ (after ++ [p] ++ s).head?, c ∈ after ++ [p] := by
    intro c hc
    cases after with
    | nil =>
      cases hc
      exact List.mem_cons_self
    | cons d after =>
      cases hc
      exact List.mem_cons_self
  have hparen : ∀ c ∈ (after ++ [p] ++ s).head?, c ≠ '(' ∧ c ≠ '!' := by
    intro c hc
    rcases List.mem_append.mp (hnext c hc) with hc | hc
    · have hblank := ha c hc
      constructor
      · rintro rfl
        cases hblank
      · rintro rfl
        cases hblank
    · rw [List.mem_singleton.mp hc]
      rcases hp with rfl | rfl <;> decide
  have hassoc : before ++ (run ++ after) ++ p :: s = before ++ (run ++ (after ++ [p] ++ s)) := by
    simp only [List.append_assoc, List.singleton_append]
  rw [hassoc, fill_eq_flatMap, pieces_marks_append (hmark hb),
    pieces_run_append hrun fun c hc => (htail c (hnext c hc)).2, pieces_marks_append htail,
    List.flatMap_append, flatMap_filled_marks, List.flatMap_cons, List.flatMap_append,
    flatMap_filled_marks, ← fill_eq_flatMap, filled_run rows columns hparen]
  simp only [List.append_assoc, List.singleton_append]

lemma isPlain_of_isBlank {c : Char} (h : Text.isBlank c = true) :
    Aggregate.isPlain c = true ∧ c ≠ ':' := by
  simp only [Aggregate.isPlain, Bool.and_eq_true, bne_iff_ne, ne_eq]
  refine ⟨⟨?_, ?_⟩, ?_⟩
  all_goals
    rintro rfl
    cases h

/-- Filling one end of a span moves its column as `filledEnd` tells. -/
lemma exists_filled_end {x : Text} {column : UInt16} {rows columns : Int} {p : Char}
    (hx : Address.parseColumn x = .ok column)
    (hin : ∀ a, Address.parse x = .ok a → (a.offset rows columns).isSome)
    (hp : p = ':' ∨ p = ')') (s : Text) : ∃ image moved,
      fill (x ++ p :: s) rows columns = image ++ p :: fill s rows columns ∧
      (∀ c ∈ image, Aggregate.isPlain c = true ∧ c ≠ ':') ∧
      Address.parseColumn image = .ok moved ∧ (moved.toNat : Int) = filledEnd columns x column := by
  obtain ⟨before, after, hsplit, hb, ha⟩ := Text.exists_trim x
  have hrun := Address.isRun_of_parseColumn hx
  have hfill := fill_end hb hrun ha hp rows columns s
  rw [← hsplit, filledRun, Address.parse_trim] at hfill
  have hplain {run : Text} (h : IsRun run) :
      ∀ c ∈ before ++ (run ++ after), Aggregate.isPlain c = true ∧ c ≠ ':' := by
    intro c hc
    rcases List.mem_append.mp hc with hc | hc
    · exact isPlain_of_isBlank (hb c hc)
    · rcases List.mem_append.mp hc with hc | hc
      · refine ⟨isPlain_of_isNameChar (h.all c hc), ?_⟩
        rintro rfl
        exact absurd (h.all ':' hc) (by decide)
      · exact isPlain_of_isBlank (ha c hc)
  cases hparse : Address.parse x with
  | error e =>
    rw [hparse] at hfill
    refine ⟨x, column, ?_, ?_, hx, ?_⟩
    · rw [hfill, ← hsplit]
    · rw [hsplit]
      exact hplain hrun
    · rw [filledEnd, hparse]
  | ok a =>
    obtain ⟨moved, hmoved⟩ := Option.isSome_iff_exists.mp (hin a hparse)
    obtain ⟨-, hcolumn, -, -, hr, hc⟩ := Address.offset_eq_some_iff.mp hmoved
    have himage := Address.isRun_toText hr hc
    have htrim : Text.trim (before ++ (moved.toText ++ after)) = moved.toText :=
      Text.trim_between_of_all hb (fun c hc => isBlank_of_isNameChar (himage.all c hc)) ha
    have hread : Address.parse (before ++ (moved.toText ++ after)) = .ok moved := by
      rw [← Address.parse_trim, htrim, Address.parse_toText hr hc]
    simp only [hparse, movedText_of_offset hmoved] at hfill
    refine ⟨before ++ (moved.toText ++ after), moved.column, hfill, hplain himage,
      Address.parseColumn_of_parse hread, ?_⟩
    · rw [Address.parseColumn_of_parse hparse] at hx
      cases hx
      rw [filledEnd, hparse]
      exact hcolumn

/-- One argument spans two pairs of columns only when they are the same or both in the wrong
order. -/
lemma spans_iff_of_spans {argument : Text} {first last first' last' : Int}
    (h : Spans argument first last) : Spans argument first' last' ↔
      (first = first' ∧ last = last') ∨ (last < first ∧ last' < first') := by
  unfold Spans at h ⊢
  cases hparse : ColumnSpan.parse argument with
  | ok span =>
    rw [hparse] at h
    dsimp only at h ⊢
    omega
  | error e =>
    rw [hparse] at h
    dsimp only at h ⊢
    omega

lemma spans_of_ends {left right : Text} {first last : UInt16} (hl : ':' ∉ left) (hr : ':' ∉ right)
    (hf : Address.parseColumn left = .ok first) (hs : Address.parseColumn right = .ok last) :
    Spans (left ++ ':' :: right) first.toNat last.toNat := by
  rw [Spans, ColumnSpan.parse_of_ends hl hr hf hs]
  by_cases h : first ≤ last
  · rw [if_pos h]
    exact ⟨Int.ofNat_le.mpr (UInt16.le_iff_toNat_le.mp h), rfl, rfl⟩
  · rw [if_neg h]
    exact Int.ofNat_lt.mpr (UInt16.lt_iff_toNat_lt.mp (UInt16.not_le.mp h))

lemma firstCall?_of_name (aggregate : Aggregate) {argument : Text}
    (h : ∀ c ∈ argument, Aggregate.isPlain c = true) :
    Aggregate.firstCall? (aggregate.name ++ '(' :: (argument ++ [')'])) =
      some (aggregate, argument) := by
  have hname : ∀ c ∈ aggregate.name, Aggregate.isPlain c = true := by
    cases aggregate <;> exact List.all_eq_true.mp (by decide)
  have hcall : (Aggregate.nameEnding? none aggregate.name).bind Aggregate.ofName? =
      some aggregate := by
    cases aggregate <;> decide
  rw [Aggregate.firstCall?, Aggregate.firstCallFrom?_call hname h, hcall]

/-- The name of a function stays, and the text behind its parenthesis fills on its own. -/
lemma fill_name (aggregate : Aggregate) (rows columns : Int) (s : Text) :
    fill (aggregate.name ++ '(' :: s) rows columns =
      aggregate.name ++ '(' :: fill s rows columns := by
  have hrun : IsRun aggregate.name := by
    cases aggregate <;> exact ⟨by decide, List.all_eq_true.mp (by decide)⟩
  have hopen : ∀ c ∈ ('(' :: s).head?, isNameChar c = false := by
    intro c hc
    cases hc
    rfl
  have hmark : pieces ('(' :: s) = .mark '(' :: pieces s :=
    pieces_marks_append (List.forall_mem_singleton.mpr (by decide)) s
  rw [fill_eq_flatMap, pieces_run_append hrun hopen, hmark, List.flatMap_cons, List.flatMap_cons,
    ← fill_eq_flatMap]
  rfl

/-- A call with a span as its argument keeps its name when it is filled, and the argument spans the
filled ends. These are the moved ends exactly when both ends follow the columns, or when the ends
are in the wrong order either way. -/
theorem firstCall?_fill_span (aggregate : Aggregate) {x y : Text} {first last : UInt16}
    {rows columns : Int} (hx : Address.parseColumn x = .ok first)
    (hy : Address.parseColumn y = .ok last)
    (hinx : ∀ a, Address.parse x = .ok a → (a.offset rows columns).isSome)
    (hiny : ∀ a, Address.parse y = .ok a → (a.offset rows columns).isSome) :
    ∃ argument, Aggregate.firstCall? (fill (aggregate.name ++ '(' :: (x ++ ':' :: (y ++ [')'])))
        rows columns) = some (aggregate, argument) ∧
      Spans argument (filledEnd columns x first) (filledEnd columns y last) ∧
      (Spans argument (movedEnd columns x first) (movedEnd columns y last) ↔
        (Follows columns x ∧ Follows columns y) ∨
          (filledEnd columns y last < filledEnd columns x first ∧
            movedEnd columns y last < movedEnd columns x first)) := by
  obtain ⟨left, moved, hleft, hplain, hpx, hmx⟩ :=
    exists_filled_end hx hinx (Or.inl rfl) (y ++ [')'])
  obtain ⟨right, moved', hright, hplainLast, hpy, hmy⟩ :=
    exists_filled_end hy hiny (Or.inr rfl) []
  have hspans : Spans (left ++ ':' :: right) (filledEnd columns x first)
      (filledEnd columns y last) := by
    rw [← hmx, ← hmy]
    exact spans_of_ends (fun h => (hplain ':' h).2 rfl) (fun h => (hplainLast ':' h).2 rfl) hpx hpy
  refine ⟨left ++ ':' :: right, ?_, hspans, ?_⟩
  · have hargument : ∀ c ∈ left ++ ':' :: right, Aggregate.isPlain c = true := by
      intro c hc
      rcases List.mem_append.mp hc with hc | hc
      · exact (hplain c hc).1
      · rcases List.mem_cons.mp hc with rfl | hc
        · rfl
        · exact (hplainLast c hc).1
    have hnil : fill [] rows columns = [] := by
      rw [fill, fillFrom]
    rw [fill_name, hleft, hright, hnil, ← firstCall?_of_name aggregate hargument,
      List.append_assoc, List.cons_append]
  · rw [spans_iff_of_spans hspans, filledEnd_eq_movedEnd_iff, filledEnd_eq_movedEnd_iff]

lemma isSome_offset_of_all {x : Text} {rows columns : Int}
    (h : (Address.parse x).toOption.all (fun a => (a.offset rows columns).isSome) = true) :
    ∀ a, Address.parse x = .ok a → (a.offset rows columns).isSome := by
  intro a ha
  rw [ha] at h
  exact h

/-- A fixed end stays and the other one moves, with blanks, a lower case letter and a leading
zero. -/
theorem firstCall?_fill_span_fixed_end :
    ∃ argument, Aggregate.firstCall? (fill (Text.lit "AVERAGE($A$2: c02 )") 1 2) =
      some (.average, argument) ∧ Spans argument 0 4 := by
  have hx : Address.parseColumn (Text.lit "$A$2") = .ok 0 := by decide +kernel
  have hy : Address.parseColumn (Text.lit " c02 ") = .ok 2 := by decide +kernel
  have hinx : ∀ a, Address.parse (Text.lit "$A$2") = .ok a → (a.offset 1 2).isSome :=
    isSome_offset_of_all (by decide +kernel)
  have hiny : ∀ a, Address.parse (Text.lit " c02 ") = .ok a → (a.offset 1 2).isSome :=
    isSome_offset_of_all (by decide +kernel)
  obtain ⟨argument, hcall, -, hmoved⟩ := firstCall?_fill_span .average hx hy hinx hiny
  have hfollows : Follows 2 (Text.lit "$A$2") ∧ Follows 2 (Text.lit " c02 ") :=
    ⟨Or.inl ⟨⟨1, 0, true, true⟩, by decide +kernel⟩,
      Or.inl ⟨⟨1, 2, false, false⟩, by decide +kernel⟩⟩
  exact ⟨argument, hcall, hmoved.mpr (Or.inl hfollows)⟩

/-- Two columns alone do not move when the call is filled into the next column. -/
theorem firstCall?_fill_columns_alone : ¬∀ (aggregate : Aggregate) (x y : Text)
    (first last : UInt16) (rows columns : Int), Address.parseColumn x = .ok first →
    Address.parseColumn y = .ok last →
    (∀ a, Address.parse x = .ok a → (a.offset rows columns).isSome) →
    (∀ a, Address.parse y = .ok a → (a.offset rows columns).isSome) →
    0 ≤ movedEnd columns x first ∧ movedEnd columns x first < maxColumns →
    0 ≤ movedEnd columns y last ∧ movedEnd columns y last < maxColumns →
    ∃ argument, Aggregate.firstCall? (fill (aggregate.name ++ '(' :: (x ++ ':' :: (y ++ [')'])))
        rows columns) = some (aggregate, argument) ∧
      Spans argument (movedEnd columns x first) (movedEnd columns y last) := by
  intro h
  obtain ⟨argument, hcall, hspans⟩ := h .sum ['A'] ['B'] 0 1 0 1 (by decide +kernel)
    (by decide +kernel) (isSome_offset_of_all (by decide +kernel))
    (isSome_offset_of_all (by decide +kernel)) (by decide +kernel) (by decide +kernel)
  have hstay : Aggregate.firstCall? (fill (Aggregate.sum.name ++
      '(' :: (['A'] ++ ':' :: (['B'] ++ [')']))) 0 1) = some (.sum, Text.lit "A:B") := by
    decide +kernel
  rw [hstay] at hcall
  cases hcall
  exact absurd hspans (by decide +kernel)

end Formula

end SheetGloss
