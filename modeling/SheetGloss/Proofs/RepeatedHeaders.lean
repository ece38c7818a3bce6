import SheetGloss.Proofs.MemoPass

/-!
# Repeated headers

The rows of a pass that overwrites follow from those of one that appends: the headers of the appended
rows in the order in which they first come up, and under each of them the last of its rows. Formulas
without a gloss make no difference to either.
-/

namespace SheetGloss

lemma explain_eq_foldl (formulas : List CellFormula) (headers : HeaderRow) (repeats : Repeats) :
    explain formulas headers repeats =
      (formulas.filterMap (explanation? headers)).foldl repeats.push [] :=
  fst_foldl_explainNext repeats formulas [] .empty (Memo.sound_empty headers)

/-- Appending gives a row to each formula with a gloss, in order. Overwriting lists the headers of
these rows in the order of their first rows, each of them once and with its last row. A formula
without a gloss makes no difference to either. -/
theorem explain_overwrite_of_append (formulas : List CellFormula) (headers : HeaderRow) :
    let overwritten := explain formulas headers .overwrite
    let appended := explain formulas headers .append
    (overwritten.map (·.header)).Nodup ∧
      overwritten.map (·.header) = (appended.map (·.header)).eraseDups ∧
      (∀ row, row ∈ overwritten ↔ Explanation.LastIn appended row) ∧
      appended = formulas.filterMap (explanation? headers) ∧
      ∀ repeats, explain (formulas.filter fun formula => (gloss? formula.expression headers).isSome)
        headers repeats = explain formulas headers repeats := by
  intro overwritten appended
  have happended : appended = formulas.filterMap (explanation? headers) :=
    (explain_eq_foldl formulas headers .append).trans (Repeats.foldl_push .append _)
  have hoverwritten : overwritten = appended.foldl Explanation.put [] := by
    rw [happended]
    exact explain_eq_foldl formulas headers .overwrite
  refine ⟨?_, ?_, ?_, happended, ?_⟩
  · rw [hoverwritten]
    exact Explanation.nodup_foldl_put appended
  · rw [hoverwritten]
    exact Explanation.map_header_foldl_put appended
  · intro row
    rw [hoverwritten]
    exact Explanation.mem_foldl_put_iff
  · intro repeats
    rw [explain_eq_foldl, explain_eq_foldl, List.filterMap_filter]
    congr 2
    funext formula
    simp only [explanation?]
    cases gloss? formula.expression headers <;> rfl

end SheetGloss
