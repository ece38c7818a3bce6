import SheetGloss.Cell.Span
import SheetGloss.Proofs.AddressText

/-!
# The text of a span

A text is a span exactly when it is two texts with one colon between them, each the spelling of a
column or of an address, and the first column is not right of the last.
-/

namespace SheetGloss

namespace Text

lemma splitAll_eq_singleton {c : Char} {s : Text} (h : c ∉ s) : splitAll c s = [s] := by
  induction s with
  | nil => rfl
  | cons d s ih =>
    have hd : d ≠ c := fun he => h (he ▸ List.mem_cons_self)
    rw [splitAll, if_neg hd, ih (fun hm => h (List.mem_cons_of_mem d hm))]

lemma splitAll_append {c : Char} {s : Text} (t : Text) (h : c ∉ s) :
    splitAll c (s ++ c :: t) = s :: splitAll c t := by
  induction s with
  | nil => rw [List.nil_append, splitAll, if_pos rfl]
  | cons d s ih =>
    have hd : d ≠ c := fun he => h (he ▸ List.mem_cons_self)
    rw [List.cons_append, splitAll, if_neg hd, ih (fun hm => h (List.mem_cons_of_mem d hm))]

lemma splitAll_ne_nil (c : Char) (s : Text) : splitAll c s ≠ [] := by
  by_cases h : c ∈ s
  · obtain ⟨before, after, rfl, hb⟩ := List.eq_append_cons_of_mem h
    simp [splitAll_append after hb]
  · simp [splitAll_eq_singleton h]

lemma splitAll_eq_pair_iff {c : Char} {s left right : Text} :
    splitAll c s = [left, right] ↔ s = left ++ c :: right ∧ c ∉ left ∧ c ∉ right := by
  constructor
  · intro h
    by_cases hc : c ∈ s
    · obtain ⟨before, after, rfl, hb⟩ := List.eq_append_cons_of_mem hc
      rw [splitAll_append after hb] at h
      obtain ⟨rfl, h⟩ := List.cons.inj h
      by_cases ha : c ∈ after
      · obtain ⟨second, rest, rfl, hs⟩ := List.eq_append_cons_of_mem ha
        rw [splitAll_append rest hs] at h
        have hrest : splitAll c rest = [] := (List.cons.inj (List.cons.inj h).2).2
        exact absurd hrest (splitAll_ne_nil c rest)
      · rw [splitAll_eq_singleton ha] at h
        obtain rfl : after = right := (List.cons.inj (List.cons.inj h).2).1
        exact ⟨rfl, hb, ha⟩
    · rw [splitAll_eq_singleton hc] at h
      cases h
  · rintro ⟨rfl, hl, hr⟩
    rw [splitAll_append right hl, splitAll_eq_singleton hr]

end Text

namespace Address

lemma parse_trim (s : Text) : parse (Text.trim s) = parse s := by
  simp only [parse, Text.trim_trim]

lemma parseColumn_of_parse {s : Text} {a : Address} (h : parse s = .ok a) :
    parseColumn s = .ok a.column := by
  obtain ⟨letters, digits, hs, ht⟩ := parse_eq_ok_iff.mp h
  have hsplit : splitColumn (Text.trim s) =
      .ok (a.column, a.columnFixed, mark a.rowFixed ++ digits) :=
    splitColumn_eq_ok_iff.mpr ⟨letters, hs.column, ht, head?_row hs⟩
  have hne : (mark a.rowFixed ++ digits).isEmpty = false := by
    simp [hs.ne_nil]
  simp only [parseColumn, bind, Except.bind, hsplit, hne, parse_trim, h]
  rfl

lemma parseColumn_of_spelling {s letters : Text} {column : UInt16} {fixed : Bool}
    (h : Column.Spelling column letters) (ht : Text.trim s = mark fixed ++ letters) :
    parseColumn s = .ok column := by
  have hsplit : splitColumn (Text.trim s) = .ok (column, fixed, []) :=
    splitColumn_eq_ok_iff.mpr ⟨letters, h, by rw [ht, List.append_nil], by simp⟩
  simp only [parseColumn, hsplit, bind, Except.bind]
  rfl

/-- One end of a span is a column alone or a whole address. -/
lemma parseColumn_cases {s : Text} {column : UInt16} (h : parseColumn s = .ok column) :
    (∃ fixed letters, Column.Spelling column letters ∧ Text.trim s = mark fixed ++ letters) ∨
      ∃ a, parse s = .ok a ∧ a.column = column := by
  simp only [parseColumn] at h
  cases hs : splitColumn (Text.trim s) with
  | error e => simp [hs, bind, Except.bind] at h
  | ok split =>
    obtain ⟨c, fixed, rest⟩ := split
    simp only [hs, bind, Except.bind, parse_trim] at h
    split at h
    · next hrest =>
      cases h
      obtain ⟨letters, hl, ht, -⟩ := splitColumn_eq_ok_iff.mp hs
      rw [List.isEmpty_iff.mp hrest, List.append_nil] at ht
      exact Or.inl ⟨fixed, letters, hl, ht⟩
    · cases hp : parse s with
      | error e => simp [hp] at h
      | ok a =>
        simp only [hp, pure, Except.pure, Except.ok.injEq] at h
        exact Or.inr ⟨a, rfl, h⟩

lemma column_lt_of_parseColumn {s : Text} {column : UInt16} (h : parseColumn s = .ok column) :
    column.toNat < maxColumns := by
  rcases parseColumn_cases h with ⟨_, _, hl, -⟩ | ⟨a, ha, rfl⟩
  · exact hl.lt
  · exact column_lt_of_parse ha

lemma isRun_of_parseColumn {s : Text} {column : UInt16} (h : parseColumn s = .ok column) :
    Formula.IsRun (Text.trim s) := by
  rcases parseColumn_cases h with ⟨fixed, letters, hl, ht⟩ | ⟨a, ha, -⟩
  · rw [ht]
    refine ⟨by simp [hl.ne_nil], ?_⟩
    intro c hc
    rcases List.mem_append.mp hc with hc | hc
    · exact isNameChar_of_mem_mark hc
    · exact isNameChar_of_isAlpha (hl.alpha c hc)
  · obtain ⟨letters, digits, hs, ht⟩ := parse_eq_ok_iff.mp ha
    rw [ht]
    exact isRun_spelled hs

end Address

namespace ColumnSpan

/-- Reading two ends with a colon between them fails only when they are in the wrong order. -/
lemma parse_of_ends {left right : Text} {first last : UInt16} (hl : ':' ∉ left) (hr : ':' ∉ right)
    (hf : Address.parseColumn left = .ok first) (hs : Address.parseColumn right = .ok last) :
    parse (left ++ ':' :: right) = if first ≤ last then .ok ⟨first, last⟩
      else .error (.span (.reversed (left ++ ':' :: right))) := by
  simp only [parse, Text.splitAll_eq_pair_iff.mpr ⟨rfl, hl, hr⟩, hf, hs, bind, Except.bind, ofEnds?]
  by_cases h : first ≤ last
  · rw [if_pos h, if_pos h]
    rfl
  · rw [if_neg h, if_neg h]

lemma parse_eq_ok_iff {s : Text} {span : ColumnSpan} : parse s = .ok span ↔
    ∃ left right, s = left ++ ':' :: right ∧ ':' ∉ left ∧ ':' ∉ right ∧
      Address.parseColumn left = .ok span.first ∧ Address.parseColumn right = .ok span.last ∧
      span.first ≤ span.last := by
  constructor
  · intro h
    unfold parse at h
    split at h
    · next left right hparts =>
      obtain ⟨rfl, hl, hr⟩ := Text.splitAll_eq_pair_iff.mp hparts
      cases hf : Address.parseColumn left with
      | error e => simp [hf, bind, Except.bind] at h
      | ok first =>
        cases hs : Address.parseColumn right with
        | error e => simp [hf, hs, bind, Except.bind] at h
        | ok last =>
          simp only [hf, hs, bind, Except.bind, ofEnds?] at h
          by_cases hle : first ≤ last
          · rw [if_pos hle] at h
            cases h
            exact ⟨left, right, rfl, hl, hr, hf, hs, hle⟩
          · rw [if_neg hle] at h
            cases h
    · cases h
  · rintro ⟨left, right, rfl, hl, hr, hf, hs, hle⟩
    rw [parse_of_ends hl hr hf hs, if_pos hle]

lemma first_le_last_of_parse {s : Text} {span : ColumnSpan} (h : parse s = .ok span) :
    span.first ≤ span.last := by
  obtain ⟨_, _, _, _, _, _, _, hle⟩ := parse_eq_ok_iff.mp h
  exact hle

lemma size_of_le {span : ColumnSpan} (h : span.first ≤ span.last) :
    span.size = span.last.toNat - span.first.toNat + 1 := by
  rw [size, UInt16.toNat_sub_of_le _ _ h]

end ColumnSpan

end SheetGloss
