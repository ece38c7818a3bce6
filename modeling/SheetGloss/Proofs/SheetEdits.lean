import SheetGloss.Proofs.AddressText
import SheetGloss.Proofs.Runs
import SheetGloss.Sheet.Basic

/-!
# Edits of a sheet

A sheet is made by calls that set the text or the formula of a cell. A call that is carried out sets
one entry, the text or the formula of one cell, and which entry it is does not depend on the sheet.
One that is refused leaves the sheet as it was, so that every cell of a sheet that was made this way
lies inside it.
-/

namespace SheetGloss

/-! ### Cells of a map -/

lemma order_eq_iff {p q : Position} : Position.order p q = .eq ↔ p = q :=
  ⟨Std.LawfulEqCmp.eq_of_compare, fun h => h ▸ Std.ReflCmp.compare_self⟩

/-- A map after a change of one cell, which may leave the cell as it is, clear it or give it a
text. -/
def CellMap.change (map : CellMap) (position : Position) : Option (Option Text) → CellMap
  | none => map
  | some none => map.erase position
  | some (some text) => map.insert position text

lemma CellMap.getElem?_change (map : CellMap) (position p : Position)
    (change : Option (Option Text)) :
    (map.change position change)[p]? = if position = p then change.getD map[p]? else map[p]? := by
  rcases change with _ | _ | text
  · exact (ite_self _).symm
  · simp only [CellMap.change, Std.ExtTreeMap.getElem?_erase, order_eq_iff, Option.getD_some]
  · simp only [CellMap.change, Std.ExtTreeMap.getElem?_insert, order_eq_iff, Option.getD_some]

/-! ### Calls -/

def Position.Inside (position : Position) : Prop :=
  position.row.toNat < maxRows ∧ position.column.toNat < maxColumns

/-- A call that sets the text or the formula of a cell, by its address or by its place. -/
inductive Edit where
  | value (address text : Text)
  | valueAt (row : UInt32) (column : UInt16) (text : Text)
  | formula (address source : Text)
  | formulaAt (row : UInt32) (column : UInt16) (source : Text)
  deriving DecidableEq, Repr

namespace Sheet

def apply (sheet : Sheet) : Edit → Except SheetError Sheet
  | .value address text => sheet.setValue address text
  | .valueAt row column text => sheet.setValueAt row column text
  | .formula address source => sheet.setFormula address source
  | .formulaAt row column source => sheet.setFormulaAt row column source

end Sheet

/-! ### Calls in place -/

/-- Setting the text of a cell in place: its bounds are checked first, and then its entry is
written. What was written before an error would stay. -/
def Sheet.writeValueAt (row : UInt32) (column : UInt16) (text : Text) :
    EStateM SheetError Sheet Unit := do
  MonadExcept.ofExcept (checkBounds row column)
  if text.isEmpty then
    modify fun sheet => { sheet with values := sheet.values.erase ⟨row, column⟩ }
  else
    modify fun sheet => { sheet with values := sheet.values.insert ⟨row, column⟩ text }

def Sheet.writeFormulaAt (row : UInt32) (column : UInt16) (source : Text) :
    EStateM SheetError Sheet Unit := do
  MonadExcept.ofExcept (checkBounds row column)
  let formula := CellFormula.ofSource (.relative row column) source
  modify fun sheet =>
    { sheet with formulas := sheet.formulas.insert ⟨row, column⟩ formula.expression }

namespace Edit

/-- A call on the sheet it is made on, as a computation that keeps the sheet. -/
def perform : Edit → EStateM SheetError Sheet Unit
  | .value address text => do
    let a ← MonadExcept.ofExcept (Address.parse address)
    Sheet.writeValueAt a.row a.column text
  | .valueAt row column text => Sheet.writeValueAt row column text
  | .formula address source => do
    let a ← MonadExcept.ofExcept (Address.parse address)
    Sheet.writeFormulaAt a.row a.column source
  | .formulaAt row column source => Sheet.writeFormulaAt row column source

end Edit

namespace Sheet

lemma writeValueAt_eq (sheet : Sheet) (row : UInt32) (column : UInt16) (text : Text) :
    writeValueAt row column text sheet =
      inPlace sheet ((sheet.setValueAt row column text).map (·, ())) := by
  rw [setValueAt]
  unfold writeValueAt
  cases checkBounds row column with
  | error e => rfl
  | ok _ => cases text <;> rfl

lemma writeFormulaAt_eq (sheet : Sheet) (row : UInt32) (column : UInt16) (source : Text) :
    writeFormulaAt row column source sheet =
      inPlace sheet ((sheet.setFormulaAt row column source).map (·, ())) := by
  rw [setFormulaAt]
  unfold writeFormulaAt
  cases checkBounds row column <;> rfl

/-- A call in place gives the sheet that the call gives, and when it is refused it has left the
sheet as it was. -/
lemma perform_eq (sheet : Sheet) (edit : Edit) :
    edit.perform sheet = inPlace sheet ((sheet.apply edit).map (·, ())) := by
  cases edit with
  | value address text =>
    rw [apply, setValue, Edit.perform]
    cases Address.parse address with
    | error e => rfl
    | ok a => exact writeValueAt_eq sheet a.row a.column text
  | valueAt row column text => exact writeValueAt_eq sheet row column text
  | formula address source =>
    rw [apply, setFormula, Edit.perform]
    cases Address.parse address with
    | error e => rfl
    | ok a => exact writeFormulaAt_eq sheet a.row a.column source
  | formulaAt row column source => exact writeFormulaAt_eq sheet row column source

/-- The sheet that a call leaves, whether it is carried out or refused. -/
def edited (sheet : Sheet) (edit : Edit) : Sheet := stateAfter edit.perform sheet

lemma edited_eq (sheet : Sheet) (edit : Edit) :
    sheet.edited edit = (sheet.apply edit).toOption.getD sheet := by
  rw [edited, stateAfter, perform_eq]
  cases sheet.apply edit <;> rfl

/-- The sheet that edits make, from an empty one. -/
def ofEdits (name : Text) (edits : List Edit) : Sheet := edits.foldl edited (empty name)

end Sheet

/-! ### Entries -/

/-- What a cell can hold. -/
inductive Layer where
  | value
  | formula
  deriving DecidableEq, Repr

/-- A place for a text in a sheet. -/
structure Entry where
  layer : Layer
  position : Position
  deriving DecidableEq, Repr

namespace Sheet

variable {row : UInt32} {column : UInt16}

def textAt? (sheet : Sheet) (entry : Entry) : Option Text :=
  match entry.layer with
  | .value => sheet.values[entry.position]?
  | .formula => sheet.formulas[entry.position]?

/-- A sheet with one entry set, or cleared. -/
def withText (sheet : Sheet) (entry : Entry) (text : Option Text) : Sheet :=
  match entry.layer with
  | .value => { sheet with values := sheet.values.change entry.position (some text) }
  | .formula => { sheet with formulas := sheet.formulas.change entry.position (some text) }

lemma textAt?_withText (sheet : Sheet) (entry other : Entry) (text : Option Text) :
    (sheet.withText entry text).textAt? other =
      if entry = other then text else sheet.textAt? other := by
  obtain ⟨layer, position⟩ := entry
  obtain ⟨layer', p⟩ := other
  cases layer <;> cases layer' <;> simp [withText, textAt?, CellMap.getElem?_change]

lemma checkBounds_eq_ok (h : Position.Inside ⟨row, column⟩) : checkBounds row column = .ok () := by
  rw [checkBounds, if_neg (Nat.not_le.mpr h.1), if_neg (Nat.not_le.mpr h.2)]

lemma inside_of_checkBounds (h : checkBounds row column = .ok ()) :
    Position.Inside ⟨row, column⟩ := by
  unfold checkBounds at h
  split at h
  · cases h
  · next hrow =>
    split at h
    · cases h
    · next hcolumn => exact ⟨Nat.lt_of_not_le hrow, Nat.lt_of_not_le hcolumn⟩

end Sheet

namespace Entry

variable {layer : Layer} {row : UInt32} {column : UInt16} {entry : Entry}

/-- The entry of a cell, which is refused outside the sheet. -/
def within (layer : Layer) (row : UInt32) (column : UInt16) : Except SheetError Entry :=
  (Sheet.checkBounds row column).map fun _ => ⟨layer, row, column⟩

lemma within_eq_ok_iff : within layer row column = .ok entry ↔
    Position.Inside ⟨row, column⟩ ∧ entry = ⟨layer, row, column⟩ := by
  rw [within]
  constructor
  · intro h
    cases hbounds : Sheet.checkBounds row column with
    | error e =>
      rw [hbounds] at h
      cases h
    | ok _ =>
      rw [hbounds] at h
      exact ⟨Sheet.inside_of_checkBounds hbounds, (Except.ok.inj h).symm⟩
  · rintro ⟨hinside, rfl⟩
    rw [Sheet.checkBounds_eq_ok hinside]
    rfl

end Entry

namespace Edit

/-- The entry that a call sets, or why the call is refused. -/
def target : Edit → Except SheetError Entry
  | .value address _ => do
    let a ← Address.parse address
    Entry.within .value a.row a.column
  | .valueAt row column _ => Entry.within .value row column
  | .formula address _ => do
    let a ← Address.parse address
    Entry.within .formula a.row a.column
  | .formulaAt row column _ => Entry.within .formula row column

/-- What a call sets its entry to. The empty text clears the text of a cell. A formula that starts
with an equals sign is what follows this sign, and any other is taken as it is. -/
def text? : Edit → Option Text
  | .value _ text | .valueAt _ _ text =>
    match text with
    | [] => none
    | c :: rest => some (c :: rest)
  | .formula _ source | .formulaAt _ _ source =>
    match source with
    | '=' :: rest => some rest
    | source => some source

variable {edit : Edit} {entry : Entry}

lemma text?_valueAt (row : UInt32) (column : UInt16) (text : Text) :
    (valueAt row column text).text? = if text.isEmpty then none else some text := by
  cases text <;> rfl

lemma text?_formulaAt (row : UInt32) (column : UInt16) (source : Text) :
    (formulaAt row column source).text? = some (withoutEquals source) := by
  cases source with
  | nil => rfl
  | cons c rest =>
    by_cases hc : c = '='
    · subst hc
      rfl
    · simp [text?, withoutEquals, hc]

lemma inside_of_target (h : edit.target = .ok entry) : entry.position.Inside := by
  cases edit with
  | value address text =>
    obtain ⟨a, -, h⟩ := exists_of_bind_eq_ok h
    obtain ⟨hinside, rfl⟩ := Entry.within_eq_ok_iff.mp h
    exact hinside
  | valueAt row column text =>
    obtain ⟨hinside, rfl⟩ := Entry.within_eq_ok_iff.mp h
    exact hinside
  | formula address source =>
    obtain ⟨a, -, h⟩ := exists_of_bind_eq_ok h
    obtain ⟨hinside, rfl⟩ := Entry.within_eq_ok_iff.mp h
    exact hinside
  | formulaAt row column source =>
    obtain ⟨hinside, rfl⟩ := Entry.within_eq_ok_iff.mp h
    exact hinside

/-- A call that sets a text of a cell never sets the empty one. -/
lemma text?_ne_nil (h : edit.target = .ok entry) (hlayer : entry.layer = .value) :
    edit.text? ≠ some [] := by
  cases edit with
  | value address text => cases text <;> simp [text?]
  | valueAt row column text => cases text <;> simp [text?]
  | formula address source =>
    obtain ⟨a, -, h⟩ := exists_of_bind_eq_ok h
    obtain ⟨-, rfl⟩ := Entry.within_eq_ok_iff.mp h
    cases hlayer
  | formulaAt row column source =>
    obtain ⟨-, rfl⟩ := Entry.within_eq_ok_iff.mp h
    cases hlayer

end Edit

namespace Sheet

variable {sheet next : Sheet}

/-! ### One edit -/

lemma setValueAt_eq (sheet : Sheet) (row : UInt32) (column : UInt16) (text : Text) :
    sheet.setValueAt row column text = (Entry.within .value row column).map fun entry =>
      sheet.withText entry (Edit.valueAt row column text).text? := by
  rw [setValueAt, Entry.within]
  cases checkBounds row column with
  | error e => rfl
  | ok _ => cases text <;> rfl

lemma setFormulaAt_eq (sheet : Sheet) (row : UInt32) (column : UInt16) (source : Text) :
    sheet.setFormulaAt row column source = (Entry.within .formula row column).map fun entry =>
      sheet.withText entry (Edit.formulaAt row column source).text? := by
  rw [setFormulaAt, Entry.within, Edit.text?_formulaAt]
  cases checkBounds row column <;> rfl

/-- What a call does to a sheet: it sets its entry, or it is refused for a reason of its own. -/
lemma apply_eq (sheet : Sheet) (edit : Edit) :
    sheet.apply edit = edit.target.map fun entry => sheet.withText entry edit.text? := by
  cases edit with
  | value address text =>
    rw [apply, setValue, Edit.target]
    cases Address.parse address with
    | error e => rfl
    | ok a => exact setValueAt_eq sheet a.row a.column text
  | valueAt row column text => exact setValueAt_eq sheet row column text
  | formula address source =>
    rw [apply, setFormula, Edit.target]
    cases Address.parse address with
    | error e => rfl
    | ok a => exact setFormulaAt_eq sheet a.row a.column source
  | formulaAt row column source => exact setFormulaAt_eq sheet row column source

lemma withText_of_apply {edit : Edit} (h : sheet.apply edit = .ok next) :
    ∃ entry, edit.target = .ok entry ∧ next = sheet.withText entry edit.text? := by
  rw [apply_eq] at h
  cases htarget : edit.target with
  | error e =>
    rw [htarget] at h
    cases h
  | ok entry =>
    rw [htarget] at h
    exact ⟨entry, rfl, (Except.ok.inj h).symm⟩

lemma eq_of_getElem? {s t : Sheet} (hname : s.name = t.name)
    (h : ∀ p : Position, s.formulas[p]? = t.formulas[p]? ∧ s.values[p]? = t.values[p]?) :
    s = t := by
  obtain ⟨name, values, formulas⟩ := s
  obtain ⟨_, values', formulas'⟩ := t
  obtain rfl : values = values' := Std.ExtTreeMap.ext_getElem? fun p => (h p).2
  obtain rfl : formulas = formulas' := Std.ExtTreeMap.ext_getElem? fun p => (h p).1
  cases hname
  rfl

/-! ### A run of edits -/

/-- What every edit that is not refused keeps, a run of edits keeps. -/
lemma ofEdits_induction {P : Sheet → Prop} {name : Text} (hempty : P (empty name))
    (hstep : ∀ sheet edit next, P sheet → sheet.apply edit = .ok next → P next)
    (edits : List Edit) : P (ofEdits name edits) := by
  unfold ofEdits
  generalize empty name = sheet at hempty
  induction edits generalizing sheet with
  | nil => exact hempty
  | cons edit edits ih =>
    refine ih (sheet.edited edit) ?_
    rw [edited_eq]
    cases h : sheet.apply edit with
    | error e => exact hempty
    | ok next => exact hstep sheet edit next hempty h

/-- A sheet whose cells all lie inside it, and whose texts are not empty. -/
structure Sound (sheet : Sheet) : Prop where
  value_inside : ∀ (p : Position) (text : Text), sheet.values[p]? = some text →
    p.Inside ∧ text ≠ []
  formula_inside : ∀ (p : Position) (source : Text), sheet.formulas[p]? = some source → p.Inside

lemma Sound.withText {entry : Entry} {text : Option Text} (hsound : sheet.Sound)
    (hinside : entry.position.Inside) (htext : entry.layer = .value → text ≠ some []) :
    (sheet.withText entry text).Sound := by
  constructor
  · intro p shown hp
    change (sheet.withText entry text).textAt? ⟨.value, p⟩ = some shown at hp
    rw [textAt?_withText] at hp
    split at hp
    · next heq =>
      subst heq hp
      exact ⟨hinside, by simpa using htext rfl⟩
    · exact hsound.value_inside p shown hp
  · intro p source hp
    change (sheet.withText entry text).textAt? ⟨.formula, p⟩ = some source at hp
    rw [textAt?_withText] at hp
    split at hp
    · next heq =>
      subst heq
      exact hinside
    · exact hsound.formula_inside p source hp

lemma Sound.apply {edit : Edit} (hsound : sheet.Sound) (h : sheet.apply edit = .ok next) :
    next.Sound := by
  obtain ⟨entry, htarget, rfl⟩ := withText_of_apply h
  exact hsound.withText (Edit.inside_of_target htarget) (Edit.text?_ne_nil htarget)

/-- Every sheet that edits make is sound. -/
theorem sound_ofEdits (name : Text) (edits : List Edit) : (ofEdits name edits).Sound := by
  refine ofEdits_induction ⟨?_, ?_⟩ (fun _ _ _ hsound h => hsound.apply h) edits
  · intro p text h
    cases h
  · intro p source h
    cases h

lemma mem_cellFormulas {f : CellFormula} : f ∈ sheet.cellFormulas ↔
    ∃ p : Position, f.cell = Address.relative p.row p.column ∧
      sheet.formulas[p]? = some f.expression := by
  unfold cellFormulas
  rw [List.mem_map]
  constructor
  · rintro ⟨⟨p, expression⟩, hm, rfl⟩
    exact ⟨p, rfl, Std.ExtTreeMap.mem_toList_iff_getElem?_eq_some.mp hm⟩
  · rintro ⟨p, hcell, hp⟩
    refine ⟨(p, f.expression), Std.ExtTreeMap.mem_toList_iff_getElem?_eq_some.mpr hp, ?_⟩
    cases f
    cases hcell
    rfl

end Sheet

end SheetGloss
