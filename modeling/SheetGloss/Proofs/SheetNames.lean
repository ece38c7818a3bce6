import Mathlib.Data.List.Nodup
import SheetGloss.Proofs.SheetEdits
import SheetGloss.Sheet.Workbook

/-!
# Names of sheets

A workbook is made by calls that add a sheet. A call that is refused leaves the workbook as it was,
so that the names of its sheets are valid and distinct, and a name and an index lead to the same
sheet.
-/

namespace SheetGloss

/-- A text that can name a sheet. -/
structure IsSheetName (name : Text) : Prop where
  ne_nil : name ≠ []
  length_le : name.length ≤ 31
  allowed : ∀ c ∈ name, c ∉ ['\\', '/', '?', '*', '[', ']', ':']

lemma checkName_eq_ok_iff {name : Text} : checkName name = .ok () ↔ IsSheetName name := by
  have hfind : name.find? (forbiddenInNames.contains ·) = none ↔
      ∀ c ∈ name, c ∉ ['\\', '/', '?', '*', '[', ']', ':'] := by
    rw [List.find?_eq_none]
    refine forall₂_congr fun c _ => not_congr ?_
    rw [List.contains_iff_mem]
    rfl
  constructor
  · intro h
    unfold checkName at h
    split at h
    · cases h
    · next hne =>
      split at h
      · cases h
      · next hlength =>
        split at h
        · cases h
        · next hnone =>
          exact ⟨by simpa using hne, Nat.le_of_not_lt hlength, hfind.mp hnone⟩
  · intro h
    have hne : ¬name.isEmpty = true := by simpa using h.ne_nil
    have hlength : ¬maxNameLength < name.length := Nat.not_lt.mpr h.length_le
    rw [checkName, if_neg hne, if_neg hlength, hfind.mpr h.allowed]

instance (name : Text) : Decidable (IsSheetName name) :=
  decidable_of_iff (checkName name = .ok ()) checkName_eq_ok_iff

namespace Workbook

variable {book next : Workbook} {sheet : Sheet} {name : Text} {index : Nat}

/-! ### Finding a sheet -/

lemma indexOf?_eq_none_iff : book.indexOf? name = none ↔ name ∉ book.names := by
  rw [indexOf?, List.findIdx?_eq_none_iff, names, List.mem_map]
  constructor
  · rintro h ⟨sheet, hm, rfl⟩
    exact absurd (beq_self_eq_true sheet.name) (Bool.eq_false_iff.mp (h sheet hm))
  · intro h sheet hm
    rw [beq_eq_false_iff_ne]
    rintro rfl
    exact h ⟨sheet, hm, rfl⟩

/-- When names are distinct, the index of a name is that of the sheet that has it. -/
lemma indexOf?_eq_some_iff (hnodup : book.names.Nodup) :
    book.indexOf? name = some index ↔ ∃ sheet, book.sheet? index = some sheet ∧ sheet.name = name := by
  rw [indexOf?, List.findIdx?_eq_some_iff_getElem]
  constructor
  · rintro ⟨hlt, hname, -⟩
    exact ⟨book.sheets[index], List.getElem?_eq_getElem hlt, beq_iff_eq.mp hname⟩
  · rintro ⟨sheet, hsheet, rfl⟩
    obtain ⟨hlt, rfl⟩ := List.getElem?_eq_some_iff.mp hsheet
    refine ⟨hlt, beq_self_eq_true _, ?_⟩
    intro other hother
    have hdistinct := List.pairwise_iff_getElem.mp (List.pairwise_map.mp hnodup)
    simpa using hdistinct other index (hother.trans hlt) hlt hother

/-- Searching by name finds the sheet at the index of the name. -/
lemma sheetNamed?_of_indexOf? (h : book.indexOf? name = some index) :
    book.sheetNamed? name = book.sheet? index := by
  obtain ⟨hlt, hname, hbefore⟩ := List.findIdx?_eq_some_iff_getElem.mp h
  rw [sheet?, List.getElem?_eq_getElem hlt, sheetNamed?, List.find?_eq_some_iff_getElem]
  exact ⟨hname, index, hlt, rfl, fun other hother => by simpa using hbefore other hother⟩

/-! ### Adding one sheet -/

/-- A sheet is added if and only if its name is valid and new; it comes last. -/
lemma add_eq_ok_iff : book.add sheet = .ok (next, index) ↔
    (IsSheetName sheet.name ∧ sheet.name ∉ book.names) ∧
      next = ⟨book.sheets ++ [sheet]⟩ ∧ index = book.sheets.length := by
  constructor
  · intro h
    obtain ⟨_, hname, h⟩ := exists_of_bind_eq_ok h
    cases hindex : book.indexOf? sheet.name with
    | some taken =>
      rw [hindex] at h
      cases h
    | none =>
      rw [hindex] at h
      obtain ⟨rfl, rfl⟩ := Prod.mk.inj (Except.ok.inj h)
      exact ⟨⟨checkName_eq_ok_iff.mp hname, indexOf?_eq_none_iff.mp hindex⟩, rfl, rfl⟩
  · rintro ⟨⟨hname, hnew⟩, rfl, rfl⟩
    rw [add, checkName_eq_ok_iff.mpr hname, indexOf?_eq_none_iff.mpr hnew]
    rfl

/-- Names that a workbook can have. -/
structure WellNamed (book : Workbook) : Prop where
  valid : ∀ name ∈ book.names, IsSheetName name
  nodup : book.names.Nodup

instance (book : Workbook) : Decidable book.WellNamed :=
  decidable_of_iff ((∀ name ∈ book.names, IsSheetName name) ∧ book.names.Nodup)
    ⟨fun h => ⟨h.1, h.2⟩, fun h => ⟨h.valid, h.nodup⟩⟩

lemma wellNamed_empty : empty.WellNamed := ⟨nofun, List.nodup_nil⟩

lemma wellNamed_concat : WellNamed ⟨book.sheets ++ [sheet]⟩ ↔
    book.WellNamed ∧ IsSheetName sheet.name ∧ sheet.name ∉ book.names := by
  have hnames : names ⟨book.sheets ++ [sheet]⟩ = book.names ++ [sheet.name] := by
    rw [names, List.map_append]
    rfl
  constructor
  · intro h
    have hvalid := h.valid
    have hnodup := h.nodup
    rw [hnames, List.forall_mem_append] at hvalid
    rw [hnames] at hnodup
    exact ⟨⟨hvalid.1, hnodup.of_append_left⟩, hvalid.2 _ List.mem_cons_self, fun hm =>
      List.disjoint_of_nodup_append hnodup hm List.mem_cons_self⟩
  · rintro ⟨h, hname, hnew⟩
    constructor
    · rw [hnames, List.forall_mem_append, List.forall_mem_singleton]
      exact ⟨h.valid, hname⟩
    · rw [hnames, ← List.concat_eq_append]
      exact h.nodup.concat hnew

lemma WellNamed.add (h : book.WellNamed) (hadd : book.add sheet = .ok (next, index)) :
    next.WellNamed := by
  obtain ⟨hname, rfl, -⟩ := add_eq_ok_iff.mp hadd
  exact wellNamed_concat.mpr ⟨h, hname⟩

/-- The first sheets of a workbook have names that a workbook can have. -/
lemma WellNamed.of_append {sheets more : List Sheet} (h : WellNamed ⟨sheets ++ more⟩) :
    WellNamed ⟨sheets⟩ := by
  have hvalid := h.valid
  have hnodup := h.nodup
  rw [names, List.map_append] at hnodup hvalid
  exact ⟨(List.forall_mem_append.mp hvalid).1, hnodup.of_append_left⟩

/-! ### A run of additions -/

end Workbook

/-- A call that adds a sheet: an empty one with a name, or one that was filled before. -/
inductive Addition where
  | named (name : Text)
  | filled (sheet : Sheet)

/-- Adding a sheet in place: its name is checked first, and then the sheet is added. What was added
before an error would stay. -/
def Workbook.pushSheet (sheet : Sheet) : EStateM SheetError Workbook Nat := do
  MonadExcept.ofExcept (checkName sheet.name)
  if ((← get).indexOf? sheet.name).isSome then throw (.duplicateSheetName sheet.name)
  modify fun book => ⟨book.sheets ++ [sheet]⟩
  return (← get).sheets.length - 1

namespace Addition

/-- The sheet that a call adds. -/
def sheet : Addition → Sheet
  | named name => Sheet.empty name
  | filled sheet => sheet

/-- A call on the workbook it is made on, as a computation that keeps the workbook. -/
def perform : Addition → EStateM SheetError Workbook Nat
  | named name => Workbook.pushSheet (Sheet.empty name)
  | filled sheet => Workbook.pushSheet sheet

/-- The name that a call asks for. -/
def name : Addition → Text
  | named name => name
  | filled sheet => sheet.name

variable {addition : Addition}

end Addition

namespace Workbook

def apply (book : Workbook) : Addition → Except SheetError (Workbook × Nat)
  | .named name => book.addNamed name
  | .filled sheet => book.add sheet

variable {book next : Workbook} {addition : Addition} {index : Nat}

lemma pushSheet_eq (book : Workbook) (sheet : Sheet) :
    pushSheet sheet book = inPlace book (book.add sheet) := by
  rw [add]
  unfold pushSheet
  cases checkName sheet.name with
  | error e => rfl
  | ok _ =>
    have hget : (get : EStateM SheetError Workbook Workbook) = fun book => .ok book book := rfl
    simp only [bind, Except.bind, EStateM.bind, MonadExcept.ofExcept, hget, pure, EStateM.pure]
    cases (book.indexOf? sheet.name).isSome with
    | true => rfl
    | false =>
      have hlength : (book.sheets ++ [sheet]).length - 1 = book.sheets.length := by simp
      change EStateM.Result.ok ((book.sheets ++ [sheet]).length - 1) _ = _
      rw [hlength]
      rfl

/-- A call in place gives the workbook and the index that the call gives, and when it is refused it
has left the workbook as it was. -/
lemma perform_eq (book : Workbook) (addition : Addition) :
    addition.perform book = inPlace book (book.apply addition) := by
  cases addition with
  | named name => exact pushSheet_eq book (Sheet.empty name)
  | filled sheet => exact pushSheet_eq book sheet

end Workbook

end SheetGloss
