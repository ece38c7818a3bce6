import SheetGloss.Gloss.Basic
import SheetGloss.Proofs.AddressGrammar
import SheetGloss.Proofs.SheetEdits
import SheetGloss.Proofs.SpanText

/-!
# Which formulas have a gloss

A formula has a gloss exactly when the argument of its first call names a span of columns from left
to right, and the gloss joins the labels of these columns. When no label holds a plus sign, cutting
the gloss at the separators gives the labels back.
-/

namespace SheetGloss

namespace Text

/-- The parts of a text between the occurrences of a mark, which are found from the left and do not
overlap. The first `skip` characters belong to an occurrence that was found before them. -/
def splitAroundFrom (mark : Text) : (skip : Nat) → Text → List Text
  | _, [] => [[]]
  | skip + 1, _ :: s => splitAroundFrom mark skip s
  | 0, c :: s =>
    if mark.isPrefixOf (c :: s) then [] :: splitAroundFrom mark (mark.length - 1) s
    else (splitAroundFrom mark 0 s).modifyHead (c :: ·)

/-- The parts of a text between the occurrences of a mark. -/
def splitAround (mark s : Text) : List Text := splitAroundFrom mark 0 s

end Text

/-! ### The ends of a span -/

/-- One end of a span names a column: by its letters alone, or as the address of a cell. -/
inductive NamesColumn (s : Text) (column : UInt16) : Prop where
  | letters (fixed : Bool) (letters : Text) (isName : Column.IsName letters)
      (text : Text.trim s = Address.mark fixed ++ letters)
      (ordinal : column.toNat + 1 = Column.ordinal letters)
  | address (a : Address) (parse : Address.parse s = .ok a) (column_eq : a.column = column)

/-- An argument names the columns from `first` to `last`, from left to right: it is two ends with
one colon between them. -/
structure NamesSpan (argument : Text) (first last : UInt16) : Prop where
  ends : ∃ left right, argument = left ++ ':' :: right ∧ ':' ∉ left ∧ ':' ∉ right ∧
    NamesColumn left first ∧ NamesColumn right last
  le : first ≤ last

lemma Address.parseColumn_eq_ok_iff {s : Text} {column : UInt16} :
    parseColumn s = .ok column ↔ NamesColumn s column := by
  constructor
  · intro h
    rcases parseColumn_cases h with ⟨fixed, letters, hl, ht⟩ | ⟨a, ha, hcolumn⟩
    · obtain ⟨hname, hordinal⟩ := Column.spelling_iff.mp hl
      exact .letters fixed letters hname ht hordinal
    · exact .address a ha hcolumn
  · intro h
    cases h with
    | letters fixed letters hname ht hordinal =>
      exact parseColumn_of_spelling (Column.spelling_iff.mpr ⟨hname, hordinal⟩) ht
    | address a ha hcolumn => rw [parseColumn_of_parse ha, hcolumn]

/-- Reading accepts exactly the texts that name a span. -/
lemma ColumnSpan.parse_eq_ok_iff_names {s : Text} {span : ColumnSpan} :
    parse s = .ok span ↔ NamesSpan s span.first span.last := by
  simp only [parse_eq_ok_iff, Address.parseColumn_eq_ok_iff]
  constructor
  · rintro ⟨left, right, hs, hl, hr, hfirst, hlast, hle⟩
    exact ⟨⟨left, right, hs, hl, hr, hfirst, hlast⟩, hle⟩
  · rintro ⟨⟨left, right, hs, hl, hr, hfirst, hlast⟩, hle⟩
    exact ⟨left, right, hs, hl, hr, hfirst, hlast, hle⟩

/-! ### The labels of a span -/

namespace HeaderRow

/-- The labels of the columns from `first` to `last`, empty past the end of the row. -/
def slice (headers : HeaderRow) (first last : UInt16) : List Text :=
  (List.range' first.toNat (last.toNat + 1 - first.toNat)).map fun column =>
    (headers.labels[column]?).getD []

lemma map_label_columns (headers : HeaderRow) (span : ColumnSpan) :
    span.columns.map headers.label = headers.slice span.first span.last := by
  rw [ColumnSpan.columns, List.map_map, slice]
  refine List.map_congr_left ?_
  intro column hcolumn
  have hrange := List.mem_range'_1.mp hcolumn
  have hlast : span.last.toNat < UInt16.size := span.last.toNat_lt
  have htoNat : (UInt16.ofNat column).toNat = column := UInt16.toNat_ofNat_of_lt' (by omega)
  rw [Function.comp_apply, label, label?, htoNat]

lemma length_slice (headers : HeaderRow) {first last : UInt16} (h : first ≤ last) :
    (headers.slice first last).length = last.toNat - first.toNat + 1 := by
  have hle := UInt16.le_iff_toNat_le.mp h
  rw [slice, List.length_map, List.length_range']
  omega

lemma forall_mem_slice {headers : HeaderRow} {P : Text → Prop} (hempty : P [])
    (h : ∀ label ∈ headers.toList, P label) (first last : UInt16) :
    ∀ label ∈ headers.slice first last, P label := by
  intro label hlabel
  obtain ⟨column, -, rfl⟩ := List.mem_map.mp hlabel
  cases hget : headers.labels[column]? with
  | none => exact hempty
  | some label => exact h label (Array.mem_toList_iff.mpr (Array.mem_of_getElem? hget))

end HeaderRow

/-! ### Joining labels and cutting them apart -/

section Separator

variable {label : Text}

lemma labelSeparator_eq : labelSeparator = [' ', '+', ' '] := by decide +kernel

/-- A separator has a plus sign as its second character: none begins where another character
follows. -/
lemma splitAround_cons {c : Char} {s : Text} (h : s.head? ≠ some '+') :
    Text.splitAround labelSeparator (c :: s) =
      (Text.splitAround labelSeparator s).modifyHead (c :: ·) := by
  have hnone : labelSeparator.isPrefixOf (c :: s) = false := by
    rw [labelSeparator_eq]
    cases s with
    | nil => simp [List.isPrefixOf]
    | cons d s =>
      have hd : '+' ≠ d := by simpa [eq_comm] using h
      simp [List.isPrefixOf, hd]
  simp only [Text.splitAround, Text.splitAroundFrom, hnone, Bool.false_eq_true, if_false]

lemma splitAround_of_not_mem (h : '+' ∉ label) :
    Text.splitAround labelSeparator label = [label] := by
  induction label with
  | nil => rfl
  | cons c label ih =>
    have htail : '+' ∉ label := fun hm => h (List.mem_cons_of_mem c hm)
    rw [splitAround_cons fun hhead => htail (List.mem_of_mem_head? hhead), ih htail]
    rfl

lemma splitAround_append (h : '+' ∉ label) (rest : Text) :
    Text.splitAround labelSeparator (label ++ (labelSeparator ++ rest)) =
      label :: Text.splitAround labelSeparator rest := by
  induction label with
  | nil =>
    rw [labelSeparator_eq]
    simp [Text.splitAround, Text.splitAroundFrom, List.isPrefixOf]
  | cons c label ih =>
    have htail : '+' ∉ label := fun hm => h (List.mem_cons_of_mem c hm)
    have hhead : (label ++ (labelSeparator ++ rest)).head? ≠ some '+' := by
      cases label with
      | nil =>
        rw [labelSeparator_eq]
        simp
      | cons d label =>
        intro hd
        exact htail (Option.some.inj hd ▸ List.mem_cons_self)
    rw [List.cons_append, splitAround_cons hhead, ih htail]
    rfl

/-- Labels without plus signs are what cutting their join at the separators gives. -/
lemma splitAround_intercalate {labels : List Text} (hne : labels ≠ [])
    (h : ∀ label ∈ labels, '+' ∉ label) :
    Text.splitAround labelSeparator (labelSeparator.intercalate labels) = labels := by
  induction labels with
  | nil => exact absurd rfl hne
  | cons label labels ih =>
    have hlabel : '+' ∉ label := h label List.mem_cons_self
    cases labels with
    | nil => rw [List.intercalate_singleton, splitAround_of_not_mem hlabel]
    | cons next labels =>
      rw [List.intercalate_cons_cons, List.append_assoc, splitAround_append hlabel,
        ih (by simp) fun other hm => h other (List.mem_cons_of_mem label hm)]

lemma splitAround_slice {headers : HeaderRow} {first last : UInt16}
    (hplus : ∀ label ∈ headers.toList, '+' ∉ label) (hle : first ≤ last) :
    Text.splitAround labelSeparator (labelSeparator.intercalate (headers.slice first last)) =
      headers.slice first last := by
  have hlength := headers.length_slice hle
  refine splitAround_intercalate ?_ (HeaderRow.forall_mem_slice (by simp) hplus first last)
  intro hnil
  rw [hnil, List.length_nil] at hlength
  omega

end Separator

/-! ### The gloss of a formula -/

lemma gloss_eq (aggregate : Aggregate) (span : ColumnSpan) (headers : HeaderRow) :
    aggregate.gloss span headers = aggregate.name ++
      '(' :: (labelSeparator.intercalate (headers.slice span.first span.last) ++ [')']) := by
  rw [Aggregate.gloss, HeaderRow.map_label_columns]

lemma gloss?_eq_some_iff {e text : Text} {headers : HeaderRow} : gloss? e headers = some text ↔
    ∃ aggregate argument first last, Aggregate.firstCall? e = some (aggregate, argument) ∧
      NamesSpan argument first last ∧ text = aggregate.name ++
        '(' :: (labelSeparator.intercalate (headers.slice first last) ++ [')']) := by
  simp only [gloss?, Option.bind_eq_bind, Option.bind_eq_some_iff, Option.pure_def,
    Option.some.injEq, Prod.exists]
  constructor
  · rintro ⟨aggregate, argument, hcall, span, hspan, rfl⟩
    exact ⟨aggregate, argument, span.first, span.last, hcall,
      ColumnSpan.parse_eq_ok_iff_names.mp (eq_ok_of_toOption hspan),
      gloss_eq aggregate span headers⟩
  · rintro ⟨aggregate, argument, first, last, hcall, hnames, rfl⟩
    have hspan : ColumnSpan.parse argument = .ok ⟨first, last⟩ :=
      ColumnSpan.parse_eq_ok_iff_names.mpr hnames
    refine ⟨aggregate, argument, hcall, ⟨first, last⟩, ?_,
      gloss_eq aggregate ⟨first, last⟩ headers⟩
    rw [hspan]
    rfl

/-- A formula has a gloss exactly when the argument of its first call names a span, and the gloss
is then the name of the aggregate with the labels of the columns of the span, in order, between
parentheses. When no label of the row holds a plus sign, what stands between the parentheses, cut at
the separators, is these labels. -/
theorem gloss?_names_span (e : Text) (headers : HeaderRow) :
    (∀ text, gloss? e headers = some text ↔ ∃ aggregate argument first last,
      Aggregate.firstCall? e = some (aggregate, argument) ∧ NamesSpan argument first last ∧
        text = aggregate.name ++
          '(' :: (labelSeparator.intercalate (headers.slice first last) ++ [')'])) ∧
    ((∀ label ∈ headers.toList, '+' ∉ label) → ∀ aggregate argument first last inside,
      Aggregate.firstCall? e = some (aggregate, argument) → NamesSpan argument first last →
        gloss? e headers = some (aggregate.name ++ '(' :: (inside ++ [')'])) →
          Text.splitAround labelSeparator inside = headers.slice first last ∧
            (headers.slice first last).length = last.toNat - first.toNat + 1) := by
  refine ⟨fun text => gloss?_eq_some_iff, ?_⟩
  intro hplus aggregate argument first last inside hcall hspan htext
  have hgloss : gloss? e headers = some (aggregate.name ++
      '(' :: (labelSeparator.intercalate (headers.slice first last) ++ [')'])) :=
    gloss?_eq_some_iff.mpr ⟨aggregate, argument, first, last, hcall, hspan, rfl⟩
  rw [hgloss, Option.some.injEq, List.append_cancel_left_eq, List.cons.injEq,
    List.append_left_inj] at htext
  obtain ⟨-, rfl⟩ := htext
  exact ⟨splitAround_slice hplus hspan.le, headers.length_slice hspan.le⟩

/-- A span that begins with a column alone and ends past the labels, in a call inside another. -/
theorem gloss?_names_span_past_labels :
    let headers := HeaderRow.ofList [Text.lit "Price", Text.lit " Qty "]
    let e := Text.lit "ROUND(SUM( a : $c02 ),2)"
    (∀ label ∈ headers.toList, '+' ∉ label) ∧
      Aggregate.firstCall? e = some (.sum, Text.lit " a : $c02 ") ∧
      NamesSpan (Text.lit " a : $c02 ") 0 2 ∧
      gloss? e headers = some (Text.lit "SUM(Price +  Qty  + )") ∧
      Text.splitAround labelSeparator (Text.lit "Price +  Qty  + ") =
        [Text.lit "Price", Text.lit " Qty ", []] := by
  intro headers e
  have hplus : ∀ label ∈ headers.toList, '+' ∉ label := by decide +kernel
  have hcall : Aggregate.firstCall? e = some (.sum, Text.lit " a : $c02 ") := by decide +kernel
  have hread : ColumnSpan.parse (Text.lit " a : $c02 ") = .ok ⟨0, 2⟩ := by decide +kernel
  have hspan : NamesSpan (Text.lit " a : $c02 ") 0 2 := ColumnSpan.parse_eq_ok_iff_names.mp hread
  have htext : Text.lit "SUM(Price +  Qty  + )" = Aggregate.sum.name ++
      '(' :: (Text.lit "Price +  Qty  + " ++ [')']) := by decide +kernel
  have hgloss : gloss? e headers = some (Text.lit "SUM(Price +  Qty  + )") :=
    ((gloss?_names_span e headers).1 _).mpr
      ⟨.sum, _, 0, 2, hcall, hspan, by decide +kernel⟩
  refine ⟨hplus, hcall, hspan, hgloss, ?_⟩
  rw [htext] at hgloss
  obtain ⟨hsplit, -⟩ := (gloss?_names_span e headers).2 hplus .sum _ 0 2 _ hcall hspan hgloss
  exact hsplit

end SheetGloss
