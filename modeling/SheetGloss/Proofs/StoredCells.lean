import Mathlib.Data.List.Induction
import Mathlib.Data.List.Nodup
import SheetGloss.Proofs.SheetEdits
import SheetGloss.Proofs.SheetRoundTrip

/-!
# Stored cells

What a cell leaves in the sheet: its text and its formula, at its own place only. A formula that is
shared comes from the last cell before it that carried the text of the group, whatever cells and
groups lie between the two.
-/

namespace SheetGloss

/-- The place of the cell with an address. -/
def Address.position (a : Address) : Position := ⟨a.row, a.column⟩

namespace Package

/-! ### What a cell asks for -/

namespace PendingCell

def address? (cell : PendingCell) : Option Address :=
  cell.reference.bind fun reference => (Address.parse reference).toOption

def position? (cell : PendingCell) : Option Position := cell.address?.map Address.position

/-- The displayed text of a cell, if it has a value. -/
def text (strings : Array Text) (cell : PendingCell) : Except ReadError (Option Text) :=
  match cell.value with
  | none => .ok none
  | some value => (valueText strings cell.type value).map some

/-- Whether a cell can be stored: its reference and its value can be read, or it is passed over. -/
def storable (strings : Array Text) (cell : PendingCell) : Bool :=
  cell.reference.isNone || (cell.address?.isSome && (cell.text strings).isOk)

/-- What a cell is to the later cells of a group: their anchor, when it carries the text. -/
def anchor? (group : Text) (cell : PendingCell) : Option Anchor :=
  if cell.group = some group then cell.address?.bind fun a => cell.formula.map (⟨a, ·⟩) else none

end PendingCell

/-- The last of some cells that carries the text of a group. -/
def latestAnchor? (cells : List PendingCell) (group : Text) : Option Anchor :=
  (cells.filterMap (·.anchor? group)).getLast?

def Anchor.filledAt (anchor : Anchor) (a : Address) : Text :=
  Formula.fill anchor.formula ((a.row.toNat : Int) - anchor.cell.row.toNat)
    ((a.column.toNat : Int) - anchor.cell.column.toNat)

/-- The formula of a cell at an address, after some other cells. -/
def PendingCell.formulaAfter (before : List PendingCell) (a : Address) (cell : PendingCell) :
    Option Text :=
  match cell.formula, cell.group with
  | some formula, _ => some formula
  | none, some group => (latestAnchor? before group).map (·.filledAt a)
  | none, none => none

/-! ### One cell -/

/-- What the text of a cell makes of its place: the empty text clears it. -/
def shown (text : Text) : Option Text := if text.isEmpty then none else some text

lemma getElem?_change_shown {map : CellMap} {position : Position} (h : map[position]? = none)
    (text : Option Text) :
    (map.change position (text.map shown))[position]? = text.filter (!·.isEmpty) := by
  rw [CellMap.getElem?_change, if_pos rfl, h]
  cases text with
  | none => rfl
  | some text => cases text <;> rfl

/-- A build with a cell at an address, once the text of the cell is read. -/
def Build.stored (build : Build) (a : Address) (cell : PendingCell) (text : Option Text) : Build where
  sheet := { build.sheet with
    values := build.sheet.values.change a.position (text.map shown)
    formulas := build.sheet.formulas.change a.position
      ((formulaOf build.anchors a cell).1.map fun source => some (withoutEquals source)) }
  anchors := (formulaOf build.anchors a cell).2

section Store

variable {strings : Array Text} {build next : Build} {cell : PendingCell} {a : Address}

lemma parse_of_address? (h : cell.address? = some a) :
    ∃ reference, cell.reference = some reference ∧ Address.parse reference = .ok a := by
  obtain ⟨reference, href, hparse⟩ := Option.bind_eq_some_iff.mp h
  exact ⟨reference, href, eq_ok_of_toOption hparse⟩

lemma checkBounds_of_parse {reference : Text} (h : Address.parse reference = .ok a) :
    Sheet.checkBounds a.row a.column = .ok () := by
  have hinside : a.position.Inside := ⟨Address.row_lt_of_parse h, Address.column_lt_of_parse h⟩
  exact Sheet.checkBounds_eq_ok hinside

lemma setValueAt_of_parse {reference : Text} (h : Address.parse reference = .ok a) (sheet : Sheet)
    (text : Text) : sheet.setValueAt a.row a.column text =
      .ok { sheet with values := sheet.values.change a.position (some (shown text)) } := by
  rw [Sheet.setValueAt, checkBounds_of_parse h]
  cases text <;> rfl

lemma setFormulaAt_of_parse {reference : Text} (h : Address.parse reference = .ok a)
    (sheet : Sheet) (source : Text) : sheet.setFormulaAt a.row a.column source =
      .ok { sheet with
        formulas := sheet.formulas.change a.position (some (some (withoutEquals source))) } := by
  rw [Sheet.setFormulaAt, checkBounds_of_parse h]
  rfl

/-- An address that can be read lies in the sheet, so that only the text can be refused. -/
lemma store_of_address? (h : cell.address? = some a) :
    build.store strings cell = (cell.text strings).map (build.stored a cell) := by
  obtain ⟨reference, href, hparse⟩ := parse_of_address? h
  have hformula (sheet : Sheet) (formula : Option Text) : storeFormula sheet a formula =
      .ok { sheet with
        formulas := sheet.formulas.change a.position
          (formula.map fun source => some (withoutEquals source)) } := by
    cases formula with
    | none => rfl
    | some source =>
      rw [storeFormula, setFormulaAt_of_parse hparse]
      rfl
  have hvalue : storeValue strings build.sheet a cell = (cell.text strings).map fun text =>
      { build.sheet with values := build.sheet.values.change a.position (text.map shown) } := by
    rw [storeValue, PendingCell.text]
    cases cell.value with
    | none => rfl
    | some value =>
      cases htext : valueText strings cell.type value with
      | error e => simp only [htext]; rfl
      | ok text => simp only [htext, bind, Except.bind, setValueAt_of_parse hparse]; rfl
  simp only [Build.store, href, hparse, hvalue, hformula]
  cases cell.text strings <;> rfl

/-- A cell without an address is passed over, or it is refused for its reference. -/
lemma store_of_address?_none (strings : Array Text) (build : Build) (h : cell.address? = none) :
    (cell.reference = none ∧ build.store strings cell = .ok build) ∨
      ∃ reference error, cell.reference = some reference ∧ Address.parse reference = .error error ∧
        build.store strings cell = .error (.cellReference reference error) := by
  rw [PendingCell.address?] at h
  rw [Build.store]
  cases href : cell.reference with
  | none => exact Or.inl ⟨rfl, rfl⟩
  | some reference =>
    rw [href, Option.bind_some] at h
    cases hparse : Address.parse reference with
    | error error =>
      refine Or.inr ⟨reference, error, rfl, hparse, ?_⟩
      simp only [hparse]
    | ok b =>
      rw [hparse] at h
      cases h

/-- A cell is passed over, or it is stored at its address. -/
lemma store_cases (h : build.store strings cell = .ok next) :
    (cell.address? = none ∧ next = build) ∨
      ∃ a text, cell.address? = some a ∧ cell.text strings = .ok text ∧
        next = build.stored a cell text := by
  cases ha : cell.address? with
  | none =>
    obtain ⟨-, hstore⟩ | ⟨reference, error, -, -, hstore⟩ := store_of_address?_none strings build ha
    · exact Or.inl ⟨rfl, Except.ok.inj (h.symm.trans hstore)⟩
    · rw [hstore] at h
      cases h
  | some a =>
    rw [store_of_address? ha] at h
    cases htext : cell.text strings with
    | error e =>
      rw [htext] at h
      cases h
    | ok text =>
      rw [htext] at h
      exact Or.inr ⟨a, text, rfl, rfl, (Except.ok.inj h).symm⟩

lemma isOk_store : (build.store strings cell).isOk = cell.storable strings := by
  rw [PendingCell.storable]
  cases ha : cell.address? with
  | some a =>
    obtain ⟨reference, href, -⟩ := parse_of_address? ha
    rw [store_of_address? ha, href]
    cases cell.text strings <;> rfl
  | none =>
    obtain ⟨href, hstore⟩ | ⟨reference, error, href, -, hstore⟩ :=
      store_of_address?_none strings build ha
    · rw [href, hstore]
      rfl
    · rw [href, hstore]
      rfl

lemma name_of_store (h : build.store strings cell = .ok next) :
    next.sheet.name = build.sheet.name := by
  obtain ⟨-, rfl⟩ | ⟨a, text, -, -, rfl⟩ := store_cases h
  · rfl
  · rfl

lemma rest_of_store (h : build.store strings cell = .ok next) {p : Position}
    (hp : cell.position? ≠ some p) :
    next.sheet.formulas[p]? = build.sheet.formulas[p]? ∧
      next.sheet.values[p]? = build.sheet.values[p]? := by
  obtain ⟨-, rfl⟩ | ⟨a, text, ha, -, rfl⟩ := store_cases h
  · exact ⟨rfl, rfl⟩
  · have hne : a.position ≠ p := by
      rintro rfl
      rw [PendingCell.position?, ha] at hp
      exact hp rfl
    simp only [Build.stored, CellMap.getElem?_change, if_neg hne, and_self]

lemma anchors_of_store (h : build.store strings cell = .ok next) (group : Text) :
    next.anchors[group]? = (cell.anchor? group).or build.anchors[group]? := by
  obtain ⟨ha, rfl⟩ | ⟨a, text, ha, -, rfl⟩ := store_cases h
  · have hnone : cell.anchor? group = none := by
      rw [PendingCell.anchor?, ha, Option.bind_none, ite_self]
    rw [hnone, Option.none_or]
  · rw [Build.stored, PendingCell.anchor?, ha, Option.bind_some, formulaOf]
    cases cell.formula with
    | none => cases cell.group <;> simp
    | some formula =>
      cases cell.group with
      | none => simp
      | some own =>
        by_cases he : own = group
        · simp [he]
        · simp [he, Std.HashMap.getElem?_insert]

end Store

/-! ### A run over cells -/

section Run

variable {strings : Array Text} {build final : Build} {cells before after : List PendingCell}
  {cell : PendingCell} {a : Address} {name : Text}

/-- What storing one cell keeps, storing cells one after another keeps. -/
lemma foldlM_store_induction {P : List PendingCell → Build → Prop} (hnil : P [] build)
    (hstep : ∀ cells cell between next, P cells between →
      between.store strings cell = .ok next → P (cells ++ [cell]) next)
    (h : cells.foldlM (Build.store strings) build = .ok final) : P cells final := by
  -- From the right: the last step is the one that was just taken.
  induction cells using List.reverseRecOn generalizing final with
  | nil => exact Except.ok.inj h ▸ hnil
  | append_singleton cells cell ih =>
    rw [List.foldlM_append] at h
    obtain ⟨between, hb, h⟩ := exists_of_bind_eq_ok h
    rw [List.foldlM_cons] at h
    obtain ⟨next, hs, h⟩ := exists_of_bind_eq_ok h
    exact Except.ok.inj h ▸ hstep cells cell between next (ih hb) hs

/-- Whether cells can be stored depends neither on their order nor on what is stored already. -/
lemma isOk_foldlM_store : (cells.foldlM (Build.store strings) build).isOk =
    cells.all (·.storable strings) := by
  induction cells generalizing build with
  | nil => rfl
  | cons cell cells ih =>
    rw [List.foldlM_cons, List.all_cons, ← @isOk_store strings build]
    cases build.store strings cell with
    | error e => rfl
    | ok next => exact ih

lemma name_of_foldlM_store (h : cells.foldlM (Build.store strings) build = .ok final) :
    final.sheet.name = build.sheet.name :=
  foldlM_store_induction (P := fun _ b => b.sheet.name = build.sheet.name) rfl
    (fun _ _ _ _ hb hs => (name_of_store hs).trans hb) h

/-- The anchors are the latest ones of the cells so far. -/
lemma anchors_of_foldlM_store (h : cells.foldlM (Build.store strings) build = .ok final)
    (group : Text) :
    final.anchors[group]? = (latestAnchor? cells group).or build.anchors[group]? := by
  refine foldlM_store_induction (P := fun cells b =>
    b.anchors[group]? = (latestAnchor? cells group).or build.anchors[group]?) rfl ?_ h
  intro cells cell between next hb hs
  rw [anchors_of_store hs, hb, latestAnchor?, latestAnchor?, List.filterMap_append,
    List.getLast?_append, Option.or_assoc]
  cases hanchor : cell.anchor? group with
  | none => simp [hanchor]
  | some anchor => simp [hanchor]

lemma rest_of_foldlM_store (h : cells.foldlM (Build.store strings) build = .ok final)
    {p : Position} (hp : p ∉ cells.filterMap PendingCell.position?) :
    final.sheet.formulas[p]? = build.sheet.formulas[p]? ∧
      final.sheet.values[p]? = build.sheet.values[p]? := by
  refine foldlM_store_induction (P := fun cells b => p ∉ cells.filterMap PendingCell.position? →
    b.sheet.formulas[p]? = build.sheet.formulas[p]? ∧
      b.sheet.values[p]? = build.sheet.values[p]?) (fun _ => ⟨rfl, rfl⟩) ?_ h hp
  intro cells cell between next hb hs hp
  rw [List.filterMap_append, List.mem_append, not_or] at hp
  have hcell : cell.position? ≠ some p := fun he => hp.2 (by simp [he])
  obtain ⟨hformula, hvalue⟩ := rest_of_store hs hcell
  exact ⟨hformula.trans (hb hp.1).1, hvalue.trans (hb hp.1).2⟩

lemma notMem_of_distinct {p : Position} (hp : cell.position? = some p)
    (hdistinct : ((before ++ cell :: after).filterMap PendingCell.position?).Nodup) :
    p ∉ before.filterMap PendingCell.position? ∧ p ∉ after.filterMap PendingCell.position? := by
  rw [List.filterMap_append, List.filterMap_cons_some hp, List.nodup_middle, List.nodup_cons,
    List.mem_append, not_or] at hdistinct
  exact hdistinct.1

/-- A cell with a place of its own has in the end what it asked for when it was stored. -/
lemma foldlM_store_at
    (h : (before ++ cell :: after).foldlM (Build.store strings) ⟨Sheet.empty name, ∅⟩ = .ok final)
    (hdistinct : ((before ++ cell :: after).filterMap PendingCell.position?).Nodup)
    (ha : cell.address? = some a) :
    final.sheet.formulas[a.position]? = (cell.formulaAfter before a).map withoutEquals ∧
      ∃ text, cell.text strings = .ok text ∧
        final.sheet.values[a.position]? = text.filter (!·.isEmpty) := by
  have hposition : cell.position? = some a.position := by rw [PendingCell.position?, ha]; rfl
  -- The cells before leave its place empty, and those after leave it as it is.
  obtain ⟨hbefore, hafter⟩ := notMem_of_distinct hposition hdistinct
  rw [List.foldlM_append] at h
  obtain ⟨between, hb, h⟩ := exists_of_bind_eq_ok h
  obtain ⟨hformulas, hvalues⟩ := rest_of_foldlM_store hb hbefore
  rw [List.foldlM_cons] at h
  obtain ⟨next, hs, hrun⟩ := exists_of_bind_eq_ok h
  obtain ⟨hnone, -⟩ | ⟨b, text, hb', htext, rfl⟩ := store_cases hs
  · rw [ha] at hnone
    cases hnone
  obtain rfl : a = b := Option.some.inj (ha.symm.trans hb')
  obtain ⟨hformula, hvalue⟩ := rest_of_foldlM_store hrun hafter
  refine ⟨?_, text, htext, hvalue.trans (getElem?_change_shown hvalues text)⟩
  have hgiven : (formulaOf between.anchors a cell).1 = cell.formulaAfter before a := by
    rw [formulaOf, PendingCell.formulaAfter]
    cases cell.formula with
    | some formula => cases cell.group <;> rfl
    | none =>
      cases cell.group with
      | none => rfl
      | some group =>
        simp only [anchors_of_foldlM_store hb group]
        simp [Anchor.filledAt]
  rw [hformula, Build.stored, CellMap.getElem?_change, if_pos rfl, hformulas, hgiven]
  cases cell.formulaAfter before a <;> rfl

/-- A cell has its own formula, or that of its group's latest anchor filled into it. Every formula
of the sheet is one of these. -/
theorem formulas_of_foldlM_store
    (hstored : cells.foldlM (Build.store strings) ⟨Sheet.empty name, ∅⟩ = .ok final)
    (hdistinct : (cells.filterMap PendingCell.position?).Nodup) :
    (∀ before cell after a, cells = before ++ cell :: after → cell.address? = some a →
      (∀ formula, cell.formula = some formula →
        final.sheet.formulaAt a.row a.column = some (withoutEquals formula)) ∧
      (∀ group anchor, cell.formula = none → cell.group = some group →
        latestAnchor? before group = some anchor →
          final.sheet.formulaAt a.row a.column = some (withoutEquals (Formula.fill anchor.formula
            ((a.row.toNat : Int) - anchor.cell.row.toNat)
            ((a.column.toNat : Int) - anchor.cell.column.toNat)))) ∧
      (∀ group, cell.formula = none → cell.group = some group →
        latestAnchor? before group = none → final.sheet.formulaAt a.row a.column = none) ∧
      (cell.formula = none → cell.group = none →
        final.sheet.formulaAt a.row a.column = none)) ∧
    ∀ position formula, final.sheet.formulas[position]? = some formula →
      ∃ cell ∈ cells, cell.position? = some position ∧
        (cell.formula.isSome ∨ cell.group.isSome) := by
  have hat : ∀ before cell after a, cells = before ++ cell :: after → cell.address? = some a →
      final.sheet.formulas[a.position]? = (cell.formulaAfter before a).map withoutEquals := by
    rintro before cell after a rfl ha
    exact (foldlM_store_at hstored hdistinct ha).1
  constructor
  · intro before cell after a hcells ha
    have hformula : final.sheet.formulaAt a.row a.column =
      (cell.formulaAfter before a).map withoutEquals := hat before cell after a hcells ha
    refine ⟨?_, ?_, ?_, ?_⟩
    · intro formula hf
      rw [hformula, PendingCell.formulaAfter, hf]
      rfl
    · intro group anchor hf hg hanchor
      simp only [hformula, PendingCell.formulaAfter, hf, hg, hanchor]
      rfl
    · intro group hf hg hanchor
      simp only [hformula, PendingCell.formulaAfter, hf, hg, hanchor]
      rfl
    · intro hf hg
      simp only [hformula, PendingCell.formulaAfter, hf, hg]
      rfl
  · intro position formula h
    by_cases hp : position ∈ cells.filterMap PendingCell.position?
    · obtain ⟨cell, hcell, hposition⟩ := List.mem_filterMap.mp hp
      refine ⟨cell, hcell, hposition, ?_⟩
      obtain ⟨a, ha, rfl⟩ := Option.map_eq_some_iff.mp hposition
      obtain ⟨before, after, hcells⟩ := List.append_of_mem hcell
      rw [hat before cell after a hcells ha, PendingCell.formulaAfter] at h
      cases hf : cell.formula with
      | some own => exact Or.inl rfl
      | none =>
        cases hg : cell.group with
        | some group => exact Or.inr rfl
        | none =>
          rw [hf, hg] at h
          cases h
    · rw [(rest_of_foldlM_store hstored hp).1] at h
      cases h

/-- Two groups whose cells alternate; the first one gets a second anchor. -/
theorem formulas_of_foldlM_store_interleaved :
    let cell (reference : String) (formula : Option String) (group : String) : PendingCell :=
      ⟨some (Text.lit reference), none, none, formula.map Text.lit, some (Text.lit group)⟩
    let cells := [cell "A1" (some "=C1*2") "0", cell "B1" (some "SUM(C:C)") "1",
      cell "A2" none "0", cell "A3" (some "C3+$D$1") "0", cell "B5" none "1", cell "B4" none "0",
      cell "D9" none "2"]
    (cells.filterMap PendingCell.position?).Nodup ∧
    ∃ final, cells.foldlM (Build.store #[]) ⟨Sheet.empty (Text.lit "Data"), ∅⟩ = .ok final ∧
      final.sheet.formulaAt 0 0 = some (Text.lit "C1*2") ∧
      final.sheet.formulaAt 1 0 = some (Text.lit "C2*2") ∧
      final.sheet.formulaAt 4 1 = some (Text.lit "SUM(C:C)") ∧
      final.sheet.formulaAt 3 1 = some (Text.lit "D4+$D$1") ∧
      final.sheet.formulaAt 8 3 = none := by
  intro cell cells
  have hdistinct : (cells.filterMap PendingCell.position?).Nodup := by decide +kernel
  refine ⟨hdistinct, ?_⟩
  have hok : (cells.foldlM (Build.store #[]) ⟨Sheet.empty (Text.lit "Data"), ∅⟩).isOk = true := by
    rw [isOk_foldlM_store]
    decide +kernel
  cases hstored : cells.foldlM (Build.store #[]) ⟨Sheet.empty (Text.lit "Data"), ∅⟩ with
  | error e =>
    rw [hstored] at hok
    cases hok
  | ok final =>
    have hformula := (formulas_of_foldlM_store hstored hdistinct).1
    have hsplit (index : Nat) (h : index < cells.length) :
        cells = cells.take index ++ cells[index] :: cells.drop (index + 1) := by
      rw [List.getElem_cons_drop, List.take_append_drop]
    refine ⟨final, rfl, ?_, ?_, ?_, ?_, ?_⟩
    · exact (hformula _ _ _ ⟨0, 0, false, false⟩ (hsplit 0 (by decide)) (by decide +kernel)).1
        (Text.lit "=C1*2") rfl
    · have hfilled := (hformula _ _ _ ⟨1, 0, false, false⟩ (hsplit 2 (by decide))
        (by decide +kernel)).2.1 (Text.lit "0") ⟨⟨0, 0, false, false⟩, Text.lit "=C1*2"⟩ rfl rfl
        (by decide +kernel)
      exact hfilled.trans (by decide +kernel)
    · have hfilled := (hformula _ _ _ ⟨4, 1, false, false⟩ (hsplit 4 (by decide))
        (by decide +kernel)).2.1 (Text.lit "1") ⟨⟨0, 1, false, false⟩, Text.lit "SUM(C:C)"⟩ rfl rfl
        (by decide +kernel)
      exact hfilled.trans (by decide +kernel)
    · have hfilled := (hformula _ _ _ ⟨3, 1, false, false⟩ (hsplit 5 (by decide))
        (by decide +kernel)).2.1 (Text.lit "0") ⟨⟨2, 0, false, false⟩, Text.lit "C3+$D$1"⟩ rfl rfl
        (by decide +kernel)
      exact hfilled.trans (by decide +kernel)
    · exact (hformula _ _ _ ⟨8, 3, false, false⟩ (hsplit 6 (by decide)) (by decide +kernel)).2.2.1
        (Text.lit "2") rfl rfl (by decide +kernel)

end Run

end Package

end SheetGloss
