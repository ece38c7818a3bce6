import SheetGloss.Proofs.CellSpans
import SheetGloss.Proofs.StoredCells

/-!
# Cells in another order

A sheet does not tell in which order its cells stood. Cells of distinct places can be moved past one
another, as long as the cells that share a formula keep their order, and the sheet stays the same.
-/

namespace SheetGloss.Package

open Xml (Event Tag)

/-! ### Stored cells -/

lemma latestAnchor?_filter (cells : List PendingCell) (group : Text) :
    latestAnchor? (cells.filter (·.group = some group)) group = latestAnchor? cells group := by
  rw [latestAnchor?, latestAnchor?, List.filterMap_filter]
  congr 2
  funext cell
  by_cases hg : cell.group = some group
  · simp [hg]
  · simp [PendingCell.anchor?, hg]

section Cells

variable {strings : Array Text} {name : Text} {build build' : Build}
  {cells cells' before after before' after' : List PendingCell} {cell : PendingCell}

lemma formulaAfter_eq_of_filter {a : Address}
    (h : ∀ group, cell.group = some group →
      before'.filter (·.group = some group) = before.filter (·.group = some group)) :
    cell.formulaAfter before' a = cell.formulaAfter before a := by
  rw [PendingCell.formulaAfter, PendingCell.formulaAfter]
  cases hf : cell.formula with
  | some formula => rfl
  | none =>
    cases hg : cell.group with
    | none => rfl
    | some group =>
      simp only
      rw [← latestAnchor?_filter before', h group hg, latestAnchor?_filter]

/-- The cells of its group before a cell, when the group keeps its order. -/
lemma filter_before_eq {group : Text} {p : Position} (hg : cell.group = some group)
    (hp : cell.position? = some p)
    (hdistinct : ((before ++ cell :: after).filterMap PendingCell.position?).Nodup)
    (hgroup : (before' ++ cell :: after').filter (·.group = some group) =
      (before ++ cell :: after).filter (·.group = some group)) :
    before'.filter (·.group = some group) = before.filter (·.group = some group) := by
  obtain ⟨hbefore, hafter⟩ := notMem_of_distinct hp hdistinct
  have hnot {some' : List PendingCell} (h : p ∉ some'.filterMap PendingCell.position?) :
      cell ∉ some'.filter (·.group = some group) := fun hm =>
    h (List.mem_filterMap.mpr ⟨cell, (List.mem_filter.mp hm).1, hp⟩)
  have hself (rest : List PendingCell) : (cell :: rest).filter (·.group = some group) =
      cell :: rest.filter (·.group = some group) :=
    List.filter_cons_of_pos (decide_eq_true hg)
  rw [List.filter_append, List.filter_append, hself, hself] at hgroup
  exact ((List.append_cons_inj_of_notMem (hnot hbefore) (hnot hafter)).mp hgroup.symm).1.symm

/-- What stands at the place of a cell does not depend on where in the order the cell came. -/
lemma stored_eq_of_perm (hperm : cells'.Perm cells)
    (hgroups : ∀ group, cells'.filter (·.group = some group) =
      cells.filter (·.group = some group))
    (hdistinct : (cells.filterMap PendingCell.position?).Nodup)
    (hstored : cells.foldlM (Build.store strings) ⟨Sheet.empty name, ∅⟩ = .ok build)
    (hstored' : cells'.foldlM (Build.store strings) ⟨Sheet.empty name, ∅⟩ = .ok build')
    (p : Position) :
    build'.sheet.formulas[p]? = build.sheet.formulas[p]? ∧
      build'.sheet.values[p]? = build.sheet.values[p]? := by
  have hpositions := hperm.filterMap PendingCell.position?
  have hdistinct' := hpositions.nodup_iff.mpr hdistinct
  -- The one cell of the place decides what stands there, in both orders; without one it is empty.
  by_cases hp : p ∈ cells.filterMap PendingCell.position?
  · obtain ⟨cell, hcell, hposition⟩ := List.mem_filterMap.mp hp
    obtain ⟨a, ha, rfl⟩ := Option.map_eq_some_iff.mp hposition
    obtain ⟨before, after, rfl⟩ := List.append_of_mem hcell
    obtain ⟨before', after', rfl⟩ := List.append_of_mem (hperm.mem_iff.mpr hcell)
    obtain ⟨hformula, text, htext, hvalue⟩ := foldlM_store_at hstored hdistinct ha
    obtain ⟨hformula', text', htext', hvalue'⟩ := foldlM_store_at hstored' hdistinct' ha
    have hsame : cell.formulaAfter before' a = cell.formulaAfter before a :=
      formulaAfter_eq_of_filter fun group hg =>
        filter_before_eq hg hposition hdistinct (hgroups group)
    rw [htext] at htext'
    cases htext'
    exact ⟨by rw [hformula, hformula', hsame], by rw [hvalue, hvalue']⟩
  · obtain ⟨hformula, hvalue⟩ := rest_of_foldlM_store hstored hp
    obtain ⟨hformula', hvalue'⟩ := rest_of_foldlM_store hstored' (mt hpositions.mem_iff.mp hp)
    exact ⟨hformula'.trans hformula.symm, hvalue'.trans hvalue.symm⟩

/-- Cells of distinct places make the same sheet in every order that keeps the groups in theirs. -/
theorem foldlM_store_perm (hperm : cells'.Perm cells)
    (hgroups : ∀ group, cells'.filter (·.group = some group) =
      cells.filter (·.group = some group))
    (hdistinct : (cells.filterMap PendingCell.position?).Nodup)
    (hstored : cells.foldlM (Build.store strings) ⟨Sheet.empty name, ∅⟩ = .ok build) :
    ∃ build', cells'.foldlM (Build.store strings) ⟨Sheet.empty name, ∅⟩ = .ok build' ∧
      build'.sheet = build.sheet := by
  have hok : (cells'.foldlM (Build.store strings) ⟨Sheet.empty name, ∅⟩).isOk = true := by
    rw [isOk_foldlM_store, hperm.all_eq, ← isOk_foldlM_store, hstored]
    rfl
  cases hstored' : cells'.foldlM (Build.store strings) ⟨Sheet.empty name, ∅⟩ with
  | error e =>
    rw [hstored'] at hok
    cases hok
  | ok build' =>
    refine ⟨build', rfl, ?_⟩
    exact Sheet.eq_of_getElem?
      ((name_of_foldlM_store hstored').trans (name_of_foldlM_store hstored).symm)
      (stored_eq_of_perm hperm hgroups hdistinct hstored hstored')

end Cells

/-! ### Cells in their part -/

def CellSpan.position? (span : CellSpan) : Option Position :=
  (PendingCell.ofTag span.tag).position?

section Parts

variable {strings : Array Text} {name : Text} {build final : Build} {spans : List CellSpan}

/-- Cells that can all be stored are stored as they tell of themselves. -/
lemma foldlM_storeSpan (h : spans.foldlM (Build.storeSpan strings) build = .ok final) :
    (∀ span ∈ spans, span.read = .ok span.cell) ∧
      (spans.map CellSpan.cell).foldlM (Build.store strings) build = .ok final := by
  induction spans generalizing build with
  | nil => exact ⟨by simp, h⟩
  | cons span spans ih =>
    rw [List.foldlM_cons, Build.storeSpan] at h
    obtain ⟨next, hnext, h⟩ := exists_of_bind_eq_ok h
    obtain ⟨cell, hread, hstore⟩ := exists_of_bind_eq_ok hnext
    have hcell : span.read = .ok span.cell := by
      rw [CellSpan.read] at hread ⊢
      split at hread
      · next htexts => rw [if_pos htexts]
      · cases hread
    obtain rfl : span.cell = cell := Except.ok.inj (hcell.symm.trans hread)
    obtain ⟨hspans, hrun⟩ := ih h
    refine ⟨List.forall_mem_cons.mpr ⟨hcell, hspans⟩, ?_⟩
    rw [List.map_cons, foldlM_cons_of_pure hstore, hrun]

lemma foldlM_storeSpan_of_read (hread : ∀ span ∈ spans, span.read = .ok span.cell) :
    spans.foldlM (Build.storeSpan strings) build =
      (spans.map CellSpan.cell).foldlM (Build.store strings) build := by
  induction spans generalizing build with
  | nil => rfl
  | cons span spans ih =>
    obtain ⟨hspan, hspans⟩ := List.forall_mem_cons.mp hread
    rw [List.foldlM_cons, List.map_cons, List.foldlM_cons, Build.storeSpan, hspan]
    exact congrArg _ (funext fun next => ih hspans)

end Parts

/-- A part is read cell by cell, each on its own; between two cells the reader has no cell and no
mark; and in another order the same cells make the same sheet. -/
theorem readCells_of_wellNested {events : List Event} (h : WellNested events)
    (strings : Array Text) (name : Text) :
    readCells strings name events =
      ((cellSpans events).foldlM (Build.storeSpan strings) ⟨Sheet.empty name, ∅⟩).map (·.sheet) ∧
    (∀ before after names, events = before ++ after →
      before.foldlM openAfter? [] = some names → Text.lit "c" ∉ names →
        before.foldlM (CellReader.step strings) (CellReader.start name) =
          ((cellSpans before).foldlM (Build.storeSpan strings) ⟨Sheet.empty name, ∅⟩).map
            fun build => ⟨build, none, false, false, false, false⟩) ∧
    (∀ events' sheet, WellNested events' → (cellSpans events').Perm (cellSpans events) →
      (∀ group, (cellSpans events').filter (·.group? = some group) =
        (cellSpans events).filter (·.group? = some group)) →
      ((cellSpans events).filterMap CellSpan.position?).Nodup →
      readCells strings name events = .ok sheet → readCells strings name events' = .ok sheet) := by
  have hbetween {before : List Event} {names : List Text}
      (hbefore : before.foldlM openAfter? [] = some names) (hc : Text.lit "c" ∉ names) :
      before.foldlM (CellReader.step strings) (CellReader.start name) =
        ((cellSpans before).foldlM (Build.storeSpan strings) ⟨Sheet.empty name, ∅⟩).map
          (.inside · none) :=
    foldlM_between hbefore List.not_mem_nil hc _
  have hread {part : List Event} (hpart : WellNested part) :
      readCells strings name part =
        ((cellSpans part).foldlM (Build.storeSpan strings) ⟨Sheet.empty name, ∅⟩).map
          (·.sheet) := by
    rw [readCells, hbetween hpart List.not_mem_nil]
    cases (cellSpans part).foldlM (Build.storeSpan strings) ⟨Sheet.empty name, ∅⟩ <;> rfl
  refine ⟨hread h, fun before after names _ hbefore hc => hbetween hbefore hc, ?_⟩
  intro events' sheet h' hperm hgroups hdistinct hsheet
  rw [hread h] at hsheet
  obtain ⟨build, hbuild, hsheet⟩ : ∃ build,
      (cellSpans events).foldlM (Build.storeSpan strings) ⟨Sheet.empty name, ∅⟩ = .ok build ∧
        build.sheet = sheet := by
    cases hrun : (cellSpans events).foldlM (Build.storeSpan strings) ⟨Sheet.empty name, ∅⟩ with
    | error e =>
      rw [hrun] at hsheet
      cases hsheet
    | ok build =>
      rw [hrun] at hsheet
      exact ⟨build, rfl, Except.ok.inj hsheet⟩
  obtain ⟨hspans, hcells⟩ := foldlM_storeSpan hbuild
  have hfilter (spans : List CellSpan) (group : Text) :
      (spans.map CellSpan.cell).filter (·.group = some group) =
        (spans.filter (·.group? = some group)).map CellSpan.cell := List.filter_map
  obtain ⟨build', hbuild', hsame⟩ := foldlM_store_perm (hperm.map CellSpan.cell)
    (fun group => by rw [hfilter, hfilter, hgroups])
    (by rw [List.filterMap_map]; exact hdistinct) hcells
  rw [hread h', foldlM_storeSpan_of_read fun span hs => hspans span (hperm.mem_iff.mp hs), hbuild']
  exact congrArg Except.ok (hsame.trans hsheet)

/-- A label moved from behind a group of cells that share a formula to its front. -/
theorem readCells_of_wellNested_moved :
    let tag (name : String) (attributes : List (String × String)) : Tag :=
      ⟨Text.lit name, attributes.map fun (key, value) => (Text.lit key, some (Text.lit value))⟩
    let anchor : List Event := [.opening (tag "c" [("r", "A1")]),
      .opening (tag "f" [("t", "shared"), ("si", "0")]), .text (some (Text.lit "B1*2")),
      .closing (Text.lit "f"), .closing (Text.lit "c")]
    let follower : List Event := [.opening (tag "c" [("r", "A2")]),
      .single (tag "f" [("t", "shared"), ("si", "0")]), .closing (Text.lit "c")]
    let label : List Event := [.opening (tag "c" [("r", "C1")]), .opening (tag "is" []),
      .opening (tag "t" []), .text (some (Text.lit "Price")), .closing (Text.lit "t"),
      .closing (Text.lit "is"), .closing (Text.lit "c")]
    let part (cells : List Event) : List Event :=
      .opening (tag "sheetData" []) :: .text (some (Text.lit " ")) ::
        (cells ++ [.closing (Text.lit "sheetData")])
    WellNested (part (anchor ++ follower ++ label)) ∧
    ∃ sheet, readCells #[] (Text.lit "Data") (part (anchor ++ follower ++ label)) = .ok sheet ∧
      readCells #[] (Text.lit "Data") (part (label ++ anchor ++ follower)) = .ok sheet := by
  intro tag anchor follower label part
  have hnested : WellNested (part (anchor ++ follower ++ label)) := by
    unfold WellNested
    decide +kernel
  have hnested' : WellNested (part (label ++ anchor ++ follower)) := by
    unfold WellNested
    decide +kernel
  let first : CellSpan := ⟨tag "c" [("r", "A1")], anchor.tail.dropLast⟩
  let second : CellSpan := ⟨tag "c" [("r", "A2")], follower.tail.dropLast⟩
  let third : CellSpan := ⟨tag "c" [("r", "C1")], label.tail.dropLast⟩
  have hspans : cellSpans (part (anchor ++ follower ++ label)) = [first, second, third] := by
    decide +kernel
  have hspans' : cellSpans (part (label ++ anchor ++ follower)) = [third, first, second] := by
    decide +kernel
  obtain ⟨hread, -, hmoved⟩ :=
    readCells_of_wellNested hnested #[] (Text.lit "Data")
  rw [hspans] at hread hmoved
  have hok : ([first, second, third].foldlM (Build.storeSpan #[])
      ⟨Sheet.empty (Text.lit "Data"), ∅⟩).isOk = true := by
    rw [foldlM_storeSpan_of_read (by decide +kernel), isOk_foldlM_store]
    decide +kernel
  cases hrun : [first, second, third].foldlM (Build.storeSpan #[])
      ⟨Sheet.empty (Text.lit "Data"), ∅⟩ with
  | error e =>
    rw [hrun] at hok
    cases hok
  | ok build =>
    have hsheet : readCells #[] (Text.lit "Data") (part (anchor ++ follower ++ label)) =
        .ok build.sheet := by
      rw [hread, hrun]
      rfl
    refine ⟨hnested, build.sheet, hsheet, hmoved _ _ hnested' ?_ ?_ ?_ hsheet⟩
    · rw [hspans']
      decide +kernel
    · intro group
      have hthird : third.group? = none := by decide +kernel
      rw [hspans']
      simp [List.filter_cons, hthird]
    · decide +kernel

end SheetGloss.Package
