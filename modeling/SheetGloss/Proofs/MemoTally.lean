import Mathlib.Data.Finset.Card
import SheetGloss.Proofs.MemoPass

/-!
# The tally of a pass

Every formula of a pass is answered in one of three ways, and each is counted: its gloss was known,
or it was worked out, or there is none. A gloss that is worked out is known from then on, so that
what is worked out in a pass is one gloss for each distinct expression that has one and was not
known before.
-/

namespace SheetGloss

/-- The distinct ones of some expressions that have a gloss which is not known. -/
def Memo.fresh (memo : Memo) (headers : HeaderRow) (expressions : List Text) : Finset Text :=
  expressions.toFinset.filter fun expression =>
    memo.contains expression = false ∧ (SheetGloss.gloss? expression headers).isSome = true

/-- Whether an expression is not known and has no gloss. -/
def Memo.isLost (memo : Memo) (headers : HeaderRow) (expression : Text) : Bool :=
  !memo.contains expression && (SheetGloss.gloss? expression headers).isNone

section Step

variable {headers : HeaderRow} {memo : Memo} {expression gloss : Text}

/-- The three ways to answer a formula, and the memo after each. -/
lemma Memo.gloss?_cases (memo : Memo) (headers : HeaderRow) (expression : Text) :
    (memo.contains expression = true ∧ (memo.gloss? headers expression).2 =
        { memo with tally.hits := memo.tally.hits + 1 }) ∨
      (memo.contains expression = false ∧ ∃ gloss,
        SheetGloss.gloss? expression headers = some gloss ∧
          (memo.gloss? headers expression).2 = memo.insert expression gloss) ∨
      (memo.contains expression = false ∧ SheetGloss.gloss? expression headers = none ∧
        (memo.gloss? headers expression).2 = memo.skip) := by
  unfold Memo.gloss? Memo.find Memo.contains
  rw [Std.HashMap.contains_eq_isSome_getElem?]
  cases memo.glosses[expression]? with
  | some known => exact Or.inl ⟨rfl, rfl⟩
  | none =>
    refine Or.inr ?_
    cases SheetGloss.gloss? expression headers with
    | some gloss => exact Or.inl ⟨rfl, gloss, rfl, rfl⟩
    | none => exact Or.inr ⟨rfl, rfl, rfl⟩

lemma Memo.contains_insert (memo : Memo) (expression gloss other : Text) :
    (memo.insert expression gloss).contains other =
      (expression == other || memo.contains other) := by
  simp only [Memo.contains, Memo.insert, Std.HashMap.contains_insert]

lemma Memo.size_insert (h : memo.contains expression = false) :
    (memo.insert expression gloss).size = memo.size + 1 := by
  have hmem : expression ∉ memo.glosses := by
    rw [Std.HashMap.mem_iff_contains, ← Memo.contains, h]
    decide
  rw [Memo.size, Memo.insert, Std.HashMap.size_insert, if_neg hmem, Memo.size]

/-- A formula that is known or has no gloss adds nothing to what is to be worked out. -/
lemma Memo.fresh_cons_of_not (expressions : List Text)
    (h : memo.contains expression = true ∨ SheetGloss.gloss? expression headers = none) :
    memo.fresh headers (expression :: expressions) = memo.fresh headers expressions := by
  rw [Memo.fresh, List.toFinset_cons, Finset.filter_insert, if_neg, Memo.fresh]
  rintro ⟨hcontains, hgloss⟩
  rcases h with h | h
  · rw [h] at hcontains
    cases hcontains
  · rw [h] at hgloss
    cases hgloss

/-- A gloss that is worked out is one less to work out, however often its formula is repeated. -/
lemma Memo.card_fresh_cons (expressions : List Text) (h : memo.contains expression = false)
    (hgloss : SheetGloss.gloss? expression headers = some gloss) :
    (memo.fresh headers (expression :: expressions)).card =
      ((memo.insert expression gloss).fresh headers expressions).card + 1 := by
  have hsplit : memo.fresh headers (expression :: expressions) =
      Insert.insert expression ((memo.insert expression gloss).fresh headers expressions) := by
    ext other
    simp only [Memo.fresh, Finset.mem_insert, Finset.mem_filter, List.mem_toFinset, List.mem_cons,
      Memo.contains_insert, Bool.or_eq_false_iff, beq_eq_false_iff_ne]
    by_cases hother : other = expression
    · simp [hother, h, hgloss]
    · simp [hother, Ne.symm hother]
  rw [hsplit, Finset.card_insert_of_notMem]
  simp [Memo.fresh, Memo.contains_insert]

/-- A gloss that is worked out is that of no formula without one. -/
lemma Memo.isLost_insert (hgloss : SheetGloss.gloss? expression headers = some gloss) :
    (memo.insert expression gloss).isLost headers = memo.isLost headers := by
  funext other
  rw [Memo.isLost, Memo.isLost, Memo.contains_insert]
  by_cases hother : expression = other
  · rw [← hother, hgloss]
    simp
  · rw [beq_false_of_ne hother, Bool.false_or]

end Step

def Tally.total (tally : Tally) : Nat := tally.hits + tally.computed + tally.skipped

section Run

variable (headers : HeaderRow) (formulas : List CellFormula) (memo : Memo)

lemma total_gloss? (expression : Text) :
    (memo.gloss? headers expression).2.tally.total = memo.tally.total + 1 := by
  rcases memo.gloss?_cases headers expression with
    ⟨-, hnext⟩ | ⟨-, gloss, -, hnext⟩ | ⟨-, -, hnext⟩
  · simp only [hnext, Tally.total]
    omega
  · simp only [hnext, Tally.total, Memo.insert]
    omega
  · simp only [hnext, Tally.total, Memo.skip]
    omega

lemma after_cons (formula : CellFormula) (rest : List CellFormula) :
    memo.after headers (formula :: rest) =
      (memo.gloss? headers formula.expression).2.after headers rest := rfl

/-- Every formula of a pass is counted once. -/
lemma total_after :
    (memo.after headers formulas).tally.total = memo.tally.total + formulas.length := by
  induction formulas generalizing memo with
  | nil => rfl
  | cons formula rest ih =>
    rw [after_cons, ih, total_gloss?, List.length_cons, Nat.add_assoc, Nat.add_comm 1]

/-- What is worked out in a pass, and what is passed over. -/
lemma counts_after :
    (memo.after headers formulas).tally.computed = memo.tally.computed +
        (memo.fresh headers (formulas.map (·.expression))).card ∧
      (memo.after headers formulas).size = memo.size +
        (memo.fresh headers (formulas.map (·.expression))).card ∧
      (memo.after headers formulas).tally.skipped = memo.tally.skipped +
        (formulas.map (·.expression)).countP (memo.isLost headers) := by
  induction formulas generalizing memo with
  | nil => exact ⟨rfl, rfl, rfl⟩
  | cons formula rest ih =>
    rw [after_cons, List.map_cons, List.countP_cons]
    rcases memo.gloss?_cases headers formula.expression with
      ⟨hknown, hnext⟩ | ⟨hknown, gloss, hgloss, hnext⟩ | ⟨hknown, hgloss, hnext⟩
    · have hlost : ¬ memo.isLost headers formula.expression = true := by
        simp [Memo.isLost, hknown]
      rw [hnext, Memo.fresh_cons_of_not _ (Or.inl hknown), if_neg hlost]
      exact ih { memo with tally.hits := memo.tally.hits + 1 }
    · have hlost : ¬ memo.isLost headers formula.expression = true := by
        simp [Memo.isLost, hgloss]
      obtain ⟨hcomputed, hsize, hskipped⟩ := ih (memo.insert formula.expression gloss)
      rw [Memo.isLost_insert hgloss] at hskipped
      rw [Memo.size_insert hknown] at hsize
      rw [hnext, Memo.card_fresh_cons _ hknown hgloss, if_neg hlost]
      refine ⟨hcomputed.trans ?_, hsize.trans ?_, hskipped⟩
      · exact Nat.add_right_comm _ _ _
      · exact Nat.add_right_comm _ _ _
    · have hlost : memo.isLost headers formula.expression = true := by
        simp [Memo.isLost, hknown, hgloss]
      obtain ⟨hcomputed, hsize, hskipped⟩ := ih memo.skip
      rw [hnext, Memo.fresh_cons_of_not _ (Or.inr hgloss), if_pos hlost]
      exact ⟨hcomputed, hsize, hskipped.trans (Nat.add_right_comm _ _ _)⟩

lemma after_append (first second : List CellFormula) :
    memo.after headers (first ++ second) = (memo.after headers first).after headers second :=
  List.foldl_append

end Run

/-- A pass counts each of its formulas once. It works out one gloss for each distinct expression that
has one and was not known, passes over each formula that was neither known nor has a gloss, and
answers all others from the memo. In two parts, one after the other, it ends with the same memo. -/
theorem tally_explainWith (formulas : List CellFormula) (headers : HeaderRow) (repeats : Repeats)
    (memo : Memo) :
    let after := (explainWith formulas headers repeats memo).2
    let fresh := (memo.fresh headers (formulas.map (·.expression))).card
    let lost := (formulas.map (·.expression)).countP (memo.isLost headers)
    after.tally.hits + after.tally.computed + after.tally.skipped =
        memo.tally.hits + memo.tally.computed + memo.tally.skipped + formulas.length ∧
      after.tally.computed = memo.tally.computed + fresh ∧
      after.size = memo.size + fresh ∧
      after.tally.skipped = memo.tally.skipped + lost ∧
      after.tally.hits + fresh + lost = memo.tally.hits + formulas.length ∧
      ∀ (k : Nat) (first second : Repeats),
        (explainWith (formulas.drop k) headers second
          (explainWith (formulas.take k) headers first memo).2).2 = after := by
  intro after fresh lost
  have hafter : after = memo.after headers formulas := explainWith_snd formulas headers repeats memo
  have htotal := total_after headers formulas memo
  obtain ⟨hcomputed, hsize, hskipped⟩ := counts_after headers formulas memo
  rw [Tally.total, Tally.total] at htotal
  rw [hafter]
  refine ⟨htotal, hcomputed, hsize, hskipped, by omega, ?_⟩
  intro k first second
  rw [explainWith_snd, explainWith_snd, ← after_append, List.take_append_drop]

end SheetGloss
