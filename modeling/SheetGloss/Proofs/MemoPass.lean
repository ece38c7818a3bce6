import SheetGloss.Proofs.KeptRows

/-!
# The memo of a pass

A memo is sound under a header row when every gloss in it is the one that would be worked out under
that row. One step of a pass sets the entry of its own formula to the gloss of that formula and
touches no other entry, whichever way the formula was answered. A pass over a sheet with a sound
memo therefore explains each formula as if there were no memo. The memo goes its own way through a
pass: neither the rows nor the rule for repeated headers make a difference to it.
-/

namespace SheetGloss

/-- Every known gloss is the gloss of its formula under the given headers. -/
def Memo.Sound (memo : Memo) (headers : HeaderRow) : Prop :=
  ∀ expression gloss : Text, memo.glosses[expression]? = some gloss →
    SheetGloss.gloss? expression headers = some gloss

/-- The explanation of a formula by a gloss: its header is the label in the formula's own column,
and the empty text past the last label. -/
def explanationOf (headers : HeaderRow) (formula : CellFormula) (gloss : Text) : Explanation :=
  ⟨(headers.toList[formula.cell.column.toNat]?).getD [], gloss⟩

/-- The explanation of a formula without a memo. -/
def explanation? (headers : HeaderRow) (formula : CellFormula) : Option Explanation :=
  (gloss? formula.expression headers).map (explanationOf headers formula)

variable {headers : HeaderRow} {memo : Memo}

lemma Memo.sound_empty (headers : HeaderRow) : Memo.empty.Sound headers := by
  intro expression gloss h
  simp [Memo.empty] at h

lemma Memo.gloss?_fst (h : memo.Sound headers) (expression : Text) :
    (memo.gloss? headers expression).1 = SheetGloss.gloss? expression headers := by
  unfold Memo.gloss? Memo.find
  cases known : memo.glosses[expression]? with
  | some gloss => exact (h expression gloss known).symm
  | none => cases hg : SheetGloss.gloss? expression headers <;> rfl

/-- One step sets the entry of its formula, also when the formula was known or has no gloss. -/
lemma Memo.getElem?_gloss? (h : memo.Sound headers) (expression other : Text) :
    (memo.gloss? headers expression).2.glosses[other]? =
      if other = expression then SheetGloss.gloss? expression headers
      else memo.glosses[other]? := by
  by_cases ho : other = expression
  · subst ho
    rw [if_pos rfl]
    unfold Memo.gloss? Memo.find
    cases known : memo.glosses[other]? with
    | some gloss =>
      rw [h other gloss known]
      exact known
    | none =>
      cases hg : SheetGloss.gloss? other headers with
      | some gloss => simp [Memo.insert]
      | none => exact known
  · rw [if_neg ho]
    unfold Memo.gloss? Memo.find
    cases known : memo.glosses[expression]? with
    | some gloss => rfl
    | none =>
      cases hg : SheetGloss.gloss? expression headers with
      | some gloss => simp [Memo.insert, Std.HashMap.getElem?_insert, Ne.symm ho]
      | none => rfl

lemma Memo.sound_gloss? (h : memo.Sound headers) (expression : Text) :
    (memo.gloss? headers expression).2.Sound headers := by
  intro other gloss hg
  rw [Memo.getElem?_gloss? h] at hg
  split at hg
  · next ho => rw [ho, hg]
  · exact h other gloss hg

/-- The memo after a pass over formulas. -/
def Memo.after (memo : Memo) (headers : HeaderRow) (formulas : List CellFormula) : Memo :=
  formulas.foldl (fun memo formula => (memo.gloss? headers formula.expression).2) memo

lemma HeaderRow.label_eq (headers : HeaderRow) (column : UInt16) :
    headers.label column = (headers.toList[column.toNat]?).getD [] := by
  rw [label, label?, toList, Array.getElem?_toList]

lemma explainNext_eq (repeats : Repeats) (rows : List Explanation) (memo : Memo)
    (formula : CellFormula) :
    explainNext headers repeats (rows, memo) formula =
      (((memo.gloss? headers formula.expression).1.map
          (explanationOf headers formula)).toList.foldl repeats.push rows,
        (memo.gloss? headers formula.expression).2) := by
  rw [explainNext, HeaderRow.label_eq]
  rcases memo.gloss? headers formula.expression with ⟨_ | gloss, next⟩ <;> rfl

lemma snd_foldl_explainNext (repeats : Repeats) (formulas : List CellFormula)
    (rows : List Explanation) (memo : Memo) :
    (formulas.foldl (explainNext headers repeats) (rows, memo)).2 =
      memo.after headers formulas := by
  induction formulas generalizing rows memo with
  | nil => rfl
  | cons formula rest ih =>
    rw [List.foldl_cons, explainNext_eq, ih]
    rfl

lemma explainWith_snd (formulas : List CellFormula) (headers : HeaderRow) (repeats : Repeats)
    (memo : Memo) : (explainWith formulas headers repeats memo).2 = memo.after headers formulas :=
  snd_foldl_explainNext repeats formulas [] memo

/-- With a sound memo the explanations of the formulas alone join the rows, one after the other. -/
lemma fst_foldl_explainNext (repeats : Repeats) (formulas : List CellFormula)
    (rows : List Explanation) (memo : Memo) (h : memo.Sound headers) :
    (formulas.foldl (explainNext headers repeats) (rows, memo)).1 =
      (formulas.filterMap (explanation? headers)).foldl repeats.push rows := by
  induction formulas generalizing rows memo with
  | nil => rfl
  | cons formula rest ih =>
    rw [List.foldl_cons, explainNext_eq, ih _ _ (Memo.sound_gloss? h _), Memo.gloss?_fst h]
    cases hg : gloss? formula.expression headers <;> simp [explanation?, hg]

lemma explainWith_fst (formulas : List CellFormula) (repeats : Repeats) (h : memo.Sound headers) :
    (explainWith formulas headers repeats memo).1 =
      repeats.kept (formulas.filterMap (explanation? headers)) := by
  rw [explainWith, fst_foldl_explainNext repeats formulas [] memo h, Repeats.foldl_push]

lemma Sheet.explain_eq (sheet : Sheet) (repeats : Repeats) : sheet.explain repeats =
    repeats.kept (sheet.cellFormulas.filterMap (explanation? sheet.headers)) :=
  explainWith_fst sheet.cellFormulas repeats (Memo.sound_empty sheet.headers)

/-- After a pass the entries of its formulas are their glosses, and all others are as before. -/
lemma getElem?_after (formulas : List CellFormula) (memo : Memo) (h : memo.Sound headers)
    (expression : Text) :
    (memo.after headers formulas).glosses[expression]? =
      if expression ∈ formulas.map (·.expression) then gloss? expression headers
      else memo.glosses[expression]? := by
  induction formulas generalizing memo with
  | nil => rfl
  | cons formula rest ih =>
    rw [Memo.after, List.foldl_cons, ← Memo.after, ih _ (Memo.sound_gloss? h _),
      Memo.getElem?_gloss? h]
    simp only [List.map_cons, List.mem_cons]
    by_cases hr : expression ∈ rest.map (·.expression)
    · rw [if_pos hr, if_pos (Or.inr hr)]
    · by_cases he : expression = formula.expression
      · rw [if_neg hr, if_pos he, if_pos (Or.inl he), he]
      · rw [if_neg hr, if_neg he, if_neg (not_or.mpr ⟨he, hr⟩)]

/-- A pass with a sound memo gives the rows that the rule for repeated headers keeps of the
explanations of its formulas, each as its expression alone would be explained. It leaves a sound
memo that knows, besides what it knew, exactly the formulas of the pass that have a gloss. -/
theorem explainWith_of_sound (formulas : List CellFormula) (headers : HeaderRow)
    (repeats : Repeats) (memo : Memo) (h : memo.Sound headers) :
    (explainWith formulas headers repeats memo).1 =
      repeats.kept (formulas.filterMap (explanation? headers)) ∧
    (explainWith formulas headers repeats memo).2.Sound headers ∧
    (∀ expression gloss : Text, memo.glosses[expression]? = some gloss →
      (explainWith formulas headers repeats memo).2.glosses[expression]? = some gloss) ∧
    ∀ expression, (explainWith formulas headers repeats memo).2.contains expression = true ↔
      memo.contains expression = true ∨
        (∃ formula ∈ formulas, formula.expression = expression) ∧
          (gloss? expression headers).isSome = true := by
  have hget := getElem?_after formulas memo h
  rw [explainWith_snd]
  refine ⟨explainWith_fst formulas repeats h, ?_, ?_, ?_⟩
  · intro expression gloss hg
    rw [hget] at hg
    split at hg
    · exact hg
    · exact h expression gloss hg
  · intro expression gloss hg
    rw [hget]
    split
    · exact h expression gloss hg
    · exact hg
  · intro expression
    simp only [Memo.contains, Std.HashMap.contains_eq_isSome_getElem?, hget]
    by_cases hm : expression ∈ formulas.map (·.expression)
    · rw [if_pos hm]
      have hm' := List.mem_map.mp hm
      constructor
      · intro hg
        exact Or.inr ⟨hm', hg⟩
      · rintro (hk | ⟨_, hg⟩)
        · obtain ⟨gloss, hgloss⟩ := Option.isSome_iff_exists.mp hk
          rw [h expression gloss hgloss]
          rfl
        · exact hg
    · rw [if_neg hm]
      constructor
      · exact Or.inl
      · rintro (hk | ⟨hf, _⟩)
        · exact hk
        · exact absurd (List.mem_map.mpr hf) hm

/-- A pass that meets a known formula, one without a gloss, a new one, and another under a header
that has come up before. -/
theorem explainWith_three_answers :
    let headers := HeaderRow.ofList [Text.lit "Price", Text.lit "Qty", Text.lit "Total"]
    let memo := Memo.empty.insert (Text.lit "SUM(A2:B2)") (Text.lit "SUM(Price + Qty)")
    let formulas : List CellFormula :=
      [⟨Address.relative 1 2, Text.lit "SUM(A2:B2)"⟩, ⟨Address.relative 2 2, Text.lit "A3*B3"⟩,
        ⟨Address.relative 3 4, Text.lit "AVERAGE(A:C)"⟩,
        ⟨Address.relative 4 2, Text.lit "SUM(B:B)"⟩]
    memo.Sound headers ∧
      (explainWith formulas headers .overwrite memo).1 =
        [⟨Text.lit "Total", Text.lit "SUM(Qty)"⟩,
          ⟨[], Text.lit "AVERAGE(Price + Qty + Total)"⟩] ∧
      (explainWith formulas headers .append memo).1 =
        [⟨Text.lit "Total", Text.lit "SUM(Price + Qty)"⟩,
          ⟨[], Text.lit "AVERAGE(Price + Qty + Total)"⟩,
          ⟨Text.lit "Total", Text.lit "SUM(Qty)"⟩] ∧
      (explainWith formulas headers .overwrite memo).2.contains (Text.lit "SUM(B:B)") = true ∧
      ¬ (explainWith formulas headers .overwrite memo).2.contains (Text.lit "A3*B3") = true := by
  intro headers memo formulas
  have h : memo.Sound headers := by
    intro expression gloss hg
    simp only [memo, Memo.insert, Std.HashMap.getElem?_insert] at hg
    split at hg
    · next he =>
      obtain rfl : Text.lit "SUM(A2:B2)" = expression := by simpa using he
      cases hg
      decide +kernel
    · exact absurd hg (by simp [Memo.empty])
  obtain ⟨hoverwrite, -, -, hcontains⟩ := explainWith_of_sound formulas headers .overwrite memo h
  refine ⟨h, hoverwrite.trans (by decide +kernel), ?_, ?_, ?_⟩
  · rw [(explainWith_of_sound formulas headers .append memo h).1]
    decide +kernel
  · exact (hcontains _).mpr (Or.inr (by decide +kernel))
  · rw [hcontains]
    rintro (hknown | ⟨-, hgloss⟩)
    · simp [memo, Memo.contains, Memo.insert, Memo.empty, Text.lit] at hknown
    · exact absurd hgloss (by decide +kernel)

end SheetGloss
