import Mathlib.Data.List.Induction
import Mathlib.Data.List.Nodup
import Mathlib.Tactic.Lemma
import SheetGloss.Gloss.Pass

/-!
# The rows that are kept

Appending keeps every row. Overwriting puts the rows one after the other into a list with one row
for each header: the place of a row is that of the first row with its header, its gloss that of the
last one. What a rule keeps of some rows is told here without the steps that lead to it.
-/

namespace SheetGloss

/-- The rows a rule keeps: all of them, or the last one for each header, in the order in which the
headers first come up. -/
def Repeats.kept : Repeats → List Explanation → List Explanation
  | append, rows => rows
  | overwrite, rows =>
    (rows.map (·.header)).eraseDups.filterMap fun header =>
      rows.reverse.find? (·.header == header)

namespace Explanation

/-- The last of some rows with its header. -/
def LastIn (rows : List Explanation) (row : Explanation) : Prop :=
  ∃ before after, rows = before ++ row :: after ∧ ∀ later ∈ after, later.header ≠ row.header

variable {rows : List Explanation} {row new : Explanation}

/-! ### One row -/

lemma lastIn_concat : LastIn (rows ++ [new]) row ↔
    row = new ∨ LastIn rows row ∧ row.header ≠ new.header := by
  constructor
  · rintro ⟨before, after, hrows, hafter⟩
    rcases List.eq_nil_or_concat after with rfl | ⟨after, later, rfl⟩
    · exact Or.inl (List.cons.inj (List.append_inj' hrows rfl).2).1.symm
    · right
      rw [List.concat_eq_append, ← List.cons_append, ← List.append_assoc] at hrows
      obtain ⟨rfl, hlast⟩ := List.append_inj' hrows rfl
      obtain ⟨rfl, -⟩ := List.cons.inj hlast
      refine ⟨⟨before, after, rfl, fun later hlater => hafter later (by simp [hlater])⟩, ?_⟩
      exact (hafter new (by simp)).symm
  · rintro (rfl | ⟨⟨before, after, rfl, hafter⟩, hne⟩)
    · exact ⟨rows, [], rfl, by simp⟩
    · refine ⟨before, after ++ [new], by simp, ?_⟩
      intro later hlater
      rcases List.mem_append.mp hlater with hlater | hlater
      · exact hafter later hlater
      · rw [List.mem_singleton.mp hlater]
        exact hne.symm

lemma any_header_iff : rows.any (·.header == new.header) = true ↔
    new.header ∈ rows.map header := by
  simp only [List.any_eq_true, beq_iff_eq, List.mem_map]

/-- A row takes the place of the row with its header, or the place at the end. -/
lemma map_header_put : (put rows new).map header =
    if new.header ∈ rows.map header then rows.map header else rows.map header ++ [new.header] := by
  by_cases hmem : new.header ∈ rows.map header
  · rw [put, if_pos (any_header_iff.mpr hmem), if_pos hmem, List.map_map]
    apply List.map_congr_left
    intro old _
    by_cases heq : old.header = new.header <;> simp [heq]
  · rw [put, if_neg (mt any_header_iff.mp hmem), if_neg hmem, List.map_append]
    rfl

/-- No row with the header of the new one is left, and all others are. -/
lemma mem_put_iff : row ∈ put rows new ↔ row = new ∨ row ∈ rows ∧ row.header ≠ new.header := by
  by_cases hmem : new.header ∈ rows.map header
  · rw [put, if_pos (any_header_iff.mpr hmem), List.mem_map]
    constructor
    · rintro ⟨old, hold, hrow⟩
      split at hrow
      · exact Or.inl hrow.symm
      · next hne =>
        subst hrow
        exact Or.inr ⟨hold, by simpa using hne⟩
    · rintro (rfl | ⟨hrow, hne⟩)
      · obtain ⟨old, hold, heq⟩ := List.mem_map.mp hmem
        exact ⟨old, hold, if_pos (beq_iff_eq.mpr heq)⟩
      · exact ⟨row, hrow, if_neg (by simpa using hne)⟩
  · rw [put, if_neg (mt any_header_iff.mp hmem), List.mem_append, List.mem_singleton, or_comm]
    refine or_congr Iff.rfl (iff_self_and.mpr ?_)
    intro hrow heq
    exact hmem (heq ▸ List.mem_map_of_mem hrow)

/-! ### All rows -/

lemma foldl_put_concat (rows : List Explanation) (new : Explanation) :
    (rows ++ [new]).foldl put [] = put (rows.foldl put []) new := by
  rw [List.foldl_append]
  rfl

lemma mem_foldl_put_iff : row ∈ rows.foldl put [] ↔ LastIn rows row := by
  induction rows using List.reverseRecOn with
  | nil => simp [LastIn]
  | append_singleton rows new ih => rw [foldl_put_concat, mem_put_iff, lastIn_concat, ih]

lemma map_header_foldl_put (rows : List Explanation) :
    (rows.foldl put []).map header = (rows.map header).eraseDups := by
  induction rows using List.reverseRecOn with
  | nil => rfl
  | append_singleton rows new ih =>
    rw [foldl_put_concat, map_header_put, ih, List.map_append, List.eraseDups_append]
    simp only [List.mem_eraseDups, List.map_cons, List.map_nil]
    generalize rows.map header = known
    by_cases hmem : new.header ∈ known
    · simp [List.removeAll, hmem]
    · simp [List.removeAll, hmem, List.eraseDups_cons]

lemma nodup_foldl_put (rows : List Explanation) : ((rows.foldl put []).map header).Nodup := by
  induction rows using List.reverseRecOn with
  | nil => exact List.nodup_nil
  | append_singleton rows new ih =>
    rw [foldl_put_concat, map_header_put]
    split
    · exact ih
    · next hnew =>
      rw [← List.concat_eq_append]
      exact ih.concat hnew

/-- The last row with a header is the first one found from the end. -/
lemma find?_reverse_of_lastIn (h : LastIn rows row) :
    rows.reverse.find? (·.header == row.header) = some row := by
  obtain ⟨before, after, rfl, hafter⟩ := h
  have hnone : after.reverse.find? (·.header == row.header) = none := by
    rw [List.find?_eq_none]
    intro later hlater
    simpa using hafter later (List.mem_reverse.mp hlater)
  rw [List.reverse_append, List.reverse_cons, List.append_assoc, List.find?_append, hnone]
  simp

end Explanation

/-! ### Both rules -/

/-- Rows that join one after the other end as the rows that the rule keeps. -/
lemma Repeats.foldl_push (repeats : Repeats) (rows : List Explanation) :
    rows.foldl repeats.push [] = repeats.kept rows := by
  cases repeats with
  | append =>
    induction rows using List.reverseRecOn with
    | nil => rfl
    | append_singleton rows new ih =>
      rw [List.foldl_append, ih]
      rfl
  | overwrite =>
    change rows.foldl Explanation.put [] = _
    have hlast : ∀ row ∈ rows.foldl Explanation.put [],
        rows.reverse.find? (·.header == row.header) = some row := fun row hrow =>
      Explanation.find?_reverse_of_lastIn (Explanation.mem_foldl_put_iff.mp hrow)
    rw [Repeats.kept, ← Explanation.map_header_foldl_put, List.filterMap_map]
    exact ((List.filterMap_congr hlast).trans List.filterMap_some).symm

end SheetGloss
