import SheetGloss.Package.File
import SheetGloss.Proofs.AddressGrammar
import SheetGloss.Proofs.PartOrder

/-!
# What reading refuses

Every address that can be read lies in the sheet, so that a sheet never refuses a cell that is
stored in it. Of all that is refused while a workbook is read, only the name of a sheet is refused
by the workbook itself. A cell that is refused leaves its sheet and the groups of formulas as they
were.
-/

namespace SheetGloss

/-- An error that is about the name of a sheet. -/
inductive SheetError.AboutName : SheetError → Prop where
  | invalid (fault : NameFault) : AboutName (.sheetName fault)
  | taken (name : Text) : AboutName (.duplicateSheetName name)

namespace Package

open Xml (Event Tag Markup)

/-- Whatever a sheet or a workbook refuses in a computation, it refuses for a name. -/
def RefusesNames {α : Type} (x : Except ReadError α) : Prop :=
  ∀ error, x = .error (.sheet error) → error.AboutName

/-! ### Cells in place -/

/-- A step on the sheet of a build. A step that the sheet refuses leaves the build as it is. -/
def editSheet (edit : Sheet → Except SheetError Sheet) : EStateM ReadError Build Unit :=
  fun build =>
    match edit build.sheet with
    | .ok sheet => .ok () { build with sheet }
    | .error error => .error (.sheet error) build

/-- The formula of a cell, with the anchors brought up to date. -/
def claimFormula (address : Address) (cell : PendingCell) :
    EStateM ReadError Build (Option Text) :=
  modifyGet fun build =>
    let (formula, anchors) := formulaOf build.anchors address cell
    (formula, { build with anchors })

def placeValue (strings : Array Text) (address : Address) (cell : PendingCell) :
    EStateM ReadError Build Unit :=
  match cell.value with
  | none => return
  | some value => do
    let text ← MonadExcept.ofExcept (valueText strings cell.type value)
    editSheet (·.setValueAt address.row address.column text)

def placeFormula (address : Address) : Option Text → EStateM ReadError Build Unit
  | none => return
  | some formula => editSheet (·.setFormulaAt address.row address.column formula)

/-- Storing a cell step by step. A step that is refused leaves the build as the steps before made
it. -/
def PendingCell.place (strings : Array Text) (cell : PendingCell) : EStateM ReadError Build Unit :=
  match cell.reference with
  | none => return
  | some reference =>
    match Address.parse reference with
    | .error error => throw (.cellReference reference error)
    | .ok address => do
      placeValue strings address cell
      let formula ← claimFormula address cell
      placeFormula address formula

section Place

variable {reference : Text} {a : Address}

lemma placeValue_eq (h : Address.parse reference = .ok a) (strings : Array Text) (build : Build)
    (cell : PendingCell) : placeValue strings a cell build =
      match cell.text strings with
      | .ok text => .ok () { build with sheet := { build.sheet with
          values := build.sheet.values.change a.position (text.map shown) } }
      | .error error => .error error build := by
  rw [placeValue, PendingCell.text]
  cases cell.value with
  | none => rfl
  | some value =>
    dsimp only
    cases valueText strings cell.type value with
    | error error => rfl
    | ok text =>
      have hset := setValueAt_of_parse h build.sheet text
      change editSheet (·.setValueAt a.row a.column text) build = _
      rw [editSheet, hset]
      rfl

lemma placeFormula_eq (h : Address.parse reference = .ok a) (build : Build)
    (formula : Option Text) : placeFormula a formula build =
      .ok () { build with sheet := { build.sheet with
        formulas := build.sheet.formulas.change a.position
          (formula.map fun source => some (withoutEquals source)) } } := by
  cases formula with
  | none => rfl
  | some source =>
    have hset := setFormulaAt_of_parse h build.sheet source
    rw [placeFormula, editSheet, hset]
    rfl

/-- The steps give what storing the cell gives, and all of it or nothing: a cell that is refused
leaves the build as it was. -/
lemma place_eq (strings : Array Text) (build : Build) (cell : PendingCell) :
    cell.place strings build =
      match build.store strings cell with
      | .ok next => .ok () next
      | .error error => .error error build := by
  cases href : cell.reference with
  | none =>
    rw [PendingCell.place, Build.store, href]
    rfl
  | some reference =>
    cases hparse : Address.parse reference with
    | error error =>
      simp only [PendingCell.place, Build.store, href, hparse]
      rfl
    | ok a =>
      have ha : cell.address? = some a := by
        rw [PendingCell.address?, href, Option.bind_some, hparse]
        rfl
      have hvalue := placeValue_eq hparse strings build cell
      rw [store_of_address? ha]
      simp only [PendingCell.place, href, hparse, bind, EStateM.bind]
      rw [hvalue]
      cases cell.text strings with
      | error error => rfl
      | ok text => exact placeFormula_eq hparse _ _

end Place

/-! ### What is refused for a name -/

namespace RefusesNames

variable {α β : Type} {x : Except ReadError α} {f : α → Except ReadError β}

lemma ok (a : α) : RefusesNames (.ok a) := by
  intro error h
  cases h

lemma other {error : ReadError} (h : ∀ refused, error ≠ .sheet refused) :
    RefusesNames (Except.error error : Except ReadError α) := by
  intro refused heq
  exact absurd (Except.error.inj heq) (h refused)

lemma bind (hx : RefusesNames x) (hf : ∀ a, RefusesNames (f a)) : RefusesNames (x >>= f) := by
  cases x with
  | error error =>
    intro refused h
    cases h
    exact hx refused rfl
  | ok a => exact hf a

lemma foldlM {step : β → α → Except ReadError β} (hstep : ∀ b a, RefusesNames (step b a))
    (b : β) (l : List α) : RefusesNames (l.foldlM step b) := by
  induction l generalizing b with
  | nil => exact ok b
  | cons a l ih =>
    rw [List.foldlM_cons]
    exact bind (hstep b a) ih

end RefusesNames

section Reading

variable {strings : Array Text} {build : Build} {cell : PendingCell}

lemma refusesNames_step (table : StringTable) (event : Event) :
    RefusesNames (table.step event) := by
  cases event with
  | text content =>
    unfold StringTable.step
    dsimp only
    split
    · cases content with
      | none => exact .other (by simp)
      | some s => exact .ok _
    · exact .ok table
  | opening tag => exact .ok _
  | single tag => exact .ok _
  | closing name => exact .ok _
  | aside => exact .ok table
  | fault => exact .other (by simp)

lemma refusesNames_readStrings (archive : Archive) : RefusesNames (readStrings archive) := by
  rw [readStrings]
  split
  · exact .bind (.foldlM refusesNames_step _ _) fun table => .ok table.strings
  · exact .ok #[]

lemma refusesNames_requiredEvents (archive : Archive) (path : Text) :
    RefusesNames (requiredEvents archive path) := by
  rw [requiredEvents]
  split
  · exact .ok _
  · exact .other (by simp)

lemma refusesNames_collect {α : Type} (ofTag? : Tag → Option α) (events : List Event) :
    RefusesNames (collect ofTag? events) := by
  rw [collect]
  split
  · exact .other (by simp)
  · exact .ok _

/-- A value is refused only when it should name a shared string. -/
lemma error_of_text {error : ReadError} (h : cell.text strings = .error error) :
    (∃ source, error = .stringIndex source) ∨ ∃ index, error = .stringBeyond index := by
  rw [PendingCell.text] at h
  cases hvalue : cell.value with
  | none =>
    rw [hvalue] at h
    cases h
  | some value =>
    rw [hvalue] at h
    unfold valueText at h
    repeat' split at h
    all_goals cases h
    · exact Or.inl ⟨_, rfl⟩
    · exact Or.inr ⟨_, rfl⟩

/-- A cell is refused for its reference or for its value, and never by its sheet. -/
lemma store_eq_error {error : ReadError} (h : build.store strings cell = .error error) :
    (∃ reference fault, cell.reference = some reference ∧ Address.parse reference = .error fault ∧
        error = .cellReference reference fault) ∨
      (∃ source, error = .stringIndex source) ∨ ∃ index, error = .stringBeyond index := by
  cases ha : cell.address? with
  | some a =>
    rw [store_of_address? ha] at h
    cases htext : cell.text strings with
    | ok text =>
      rw [htext] at h
      cases h
    | error refused =>
      rw [htext] at h
      cases h
      exact Or.inr (error_of_text htext)
  | none =>
    obtain ⟨-, hstore⟩ | ⟨reference, fault, href, hparse, hstore⟩ :=
      store_of_address?_none strings build ha
    · rw [hstore] at h
      cases h
    · rw [hstore] at h
      cases h
      exact Or.inl ⟨reference, fault, href, hparse, rfl⟩

lemma store_ne_sheet (strings : Array Text) (build : Build) (cell : PendingCell)
    (error : SheetError) : build.store strings cell ≠ .error (.sheet error) := by
  intro h
  obtain ⟨_, _, -, -, hne⟩ | ⟨_, hne⟩ | ⟨_, hne⟩ := store_eq_error h
  all_goals cases hne

lemma refusesNames_cellStep (reader : CellReader) (event : Event) :
    RefusesNames (reader.step strings event) := by
  cases event with
  | opening tag => exact .ok _
  | single tag => exact .ok _
  | closing name =>
    rw [CellReader.step, CellReader.closed]
    split
    · split
      · next cell _ =>
        have hstore : RefusesNames (reader.build.store strings cell) := fun error h =>
          absurd h (store_ne_sheet strings reader.build cell error)
        exact hstore.bind fun build => .ok _
      · exact .ok reader
    · exact .ok _
  | text content =>
    rw [CellReader.step, CellReader.met]
    split
    · exact .ok reader
    · split
      · cases content with
        | none => exact .other (by simp)
        | some s => exact .ok _
      · exact .ok reader
  | aside => exact .ok reader
  | fault => exact .other (by simp)

lemma refusesNames_readCells (name : Text) (events : List Event) :
    RefusesNames (readCells strings name events) :=
  .bind (.foldlM refusesNames_cellStep _ events) fun reader => .ok reader.build.sheet

lemma aboutName_of_checkName {name : Text} {error : SheetError}
    (h : checkName name = .error error) : error.AboutName := by
  unfold checkName at h
  split at h
  · cases h
    exact .invalid .empty
  · split at h
    · cases h
      exact .invalid (.tooLong name)
    · split at h
      · next c _ =>
        cases h
        exact .invalid (.forbidden name c)
      · cases h

lemma aboutName_of_add {book : Workbook} {sheet : Sheet} {error : SheetError}
    (h : book.add sheet = .error error) : error.AboutName := by
  rw [Workbook.add] at h
  cases hname : checkName sheet.name with
  | error refused =>
    rw [hname] at h
    cases h
    exact aboutName_of_checkName hname
  | ok _ =>
    simp only [hname, bind, Except.bind] at h
    split at h
    · cases h
      exact .taken sheet.name
    · cases h

/-- Of what a workbook is read from, only the names of the sheets can be refused as such. -/
lemma refusesNames_read (archive : Archive) : RefusesNames (Package.read archive) := by
  have hadd (strings : Array Text) (relations : List Relation) (book : Workbook)
      (entry : SheetEntry) : RefusesNames (addSheet archive strings relations book entry) := by
    rw [addSheet]
    split
    · exact .ok book
    · next path _ =>
      refine .bind (refusesNames_requiredEvents archive path) fun events => ?_
      refine .bind (refusesNames_readCells entry.name events) fun sheet => ?_
      refine .bind ?_ fun added => .ok added.1
      intro error h
      cases hadded : book.add sheet with
      | ok added =>
        rw [hadded] at h
        cases h
      | error refused =>
        rw [hadded] at h
        cases h
        exact aboutName_of_add hadded
  unfold Package.read
  split
  · exact .other (by simp)
  · refine .bind (refusesNames_readStrings archive) fun strings => ?_
    refine .bind (refusesNames_requiredEvents archive _) fun list => ?_
    refine .bind (refusesNames_collect _ list) fun entries => ?_
    refine .bind (refusesNames_requiredEvents archive _) fun links => ?_
    refine .bind (refusesNames_collect _ links) fun relations => ?_
    exact .foldlM (hadd strings relations) Workbook.empty entries

lemma refusesNames_readArchive (bytes : Bytes) : RefusesNames (readArchive bytes) := by
  rw [readArchive]
  split
  · next archive _ => exact refusesNames_read archive
  · exact .other (by simp)

end Reading

/-- What a workbook refuses while it is read is always a name. A cell is never refused by its sheet,
as all addresses that can be read lie in the sheet. It is refused for its reference exactly when
that is no address in the sheet, and then the sheet and the groups stay as they were. -/
theorem read_refuses_names :
    (∀ (archive : Archive) error,
      Package.read archive = .error (.sheet error) → error.AboutName) ∧
    (∀ (bytes : Bytes) error, readArchive bytes = .error (.sheet error) → error.AboutName) ∧
    (∀ (reference : Text) a, Address.parse reference = .ok a → ∀ (sheet : Sheet) (text : Text),
      (∃ next, sheet.setValueAt a.row a.column text = .ok next) ∧
        ∃ next, sheet.setFormulaAt a.row a.column text = .ok next) ∧
    ∀ (strings : Array Text) (build : Build) (cell : PendingCell),
      (∀ error, build.store strings cell ≠ .error (.sheet error)) ∧
      (cell.place strings build =
        match build.store strings cell with
        | .ok next => .ok () next
        | .error error => .error error build) ∧
      ∀ reference, cell.reference = some reference →
        ((∃ error, cell.place strings build = .error (.cellReference reference error) build) ↔
          ¬∃ parts : A1, parts.Valid ∧ Text.trim reference = parts.text) := by
  refine ⟨refusesNames_read, refusesNames_readArchive, ?_, ?_⟩
  · intro reference a h sheet text
    exact ⟨⟨_, setValueAt_of_parse h sheet text⟩, ⟨_, setFormulaAt_of_parse h sheet text⟩⟩
  · intro strings build cell
    refine ⟨store_ne_sheet strings build cell, place_eq strings build cell, ?_⟩
    intro reference href
    rw [← Address.exists_parse_error_iff, place_eq]
    constructor
    · rintro ⟨error, h⟩
      cases hstore : build.store strings cell with
      | ok next =>
        rw [hstore] at h
        cases h
      | error refused =>
        rw [hstore] at h
        cases h
        obtain ⟨_, fault, -, hparse, hfault⟩ | ⟨_, hne⟩ | ⟨_, hne⟩ := store_eq_error hstore
        · cases hfault
          exact ⟨_, hparse⟩
        · cases hne
        · cases hne
    · rintro ⟨error, hparse⟩
      refine ⟨error, ?_⟩
      simp only [Build.store, href, hparse]

/-- A sheet whose name holds a slash, and a cell in the column next to the last. -/
theorem read_refuses_names_slash :
    let name := Text.lit "Q1/Q2"
    let archive := documents [(Text.lit "[Content_Types].xml", typesMarkup),
      (Text.lit "xl/workbook.xml", workbookMarkup [name]), (relationsPath, relationsMarkup 1),
      (sheetPath 1, errorDocument (Text.lit "#N/A"))]
    let cell : PendingCell := ⟨some (Text.lit "XFE1"), none, some (Text.lit "7"), none, none⟩
    let build : Build := ⟨errorSheet name (Text.lit "#N/A"), ∅⟩
    Package.read archive = .error (.sheet (.sheetName (.forbidden name '/'))) ∧
      SheetError.AboutName (.sheetName (.forbidden name '/')) ∧
      ∃ error, cell.place #[] build = .error (.cellReference (Text.lit "XFE1") error) build := by
  intro name archive cell build
  have hread : Package.read archive = .error (.sheet (.sheetName (.forbidden name '/'))) := by
    have hall : AreDocuments [(Text.lit "[Content_Types].xml", typesMarkup),
        (Text.lit "xl/workbook.xml", workbookMarkup [name]), (relationsPath, relationsMarkup 1),
        (sheetPath 1, errorDocument (Text.lit "#N/A"))] := by decide +kernel
    have hlisting : listingOf (listed Relation.ofTag? (relationsMarkup 1))
        (listed SheetEntry.ofTag? (workbookMarkup [name])) = [(name, sheetPath 1)] := by
      decide +kernel
    have hsheet : readListed archive #[] (name, sheetPath 1) =
        .ok (errorSheet name (Text.lit "#N/A")) := by
      rw [readListed, hall.requiredEvents_eq (.tail _ (.tail _ (.tail _ (.head _))))]
      rfl
    rw [hall.read_eq_foldlM (.head _) (by decide +kernel) (.tail _ (.head _))
      (.tail _ (.tail _ (.head _))), hlisting, List.foldlM_cons, addListed, hsheet]
    rfl
  obtain ⟨hnames, -, -, hcells⟩ := read_refuses_names
  refine ⟨hread, hnames archive _ hread, ((hcells #[] build cell).2.2 _ rfl).mpr ?_⟩
  rw [← Address.exists_parse_iff]
  rintro ⟨a, ha⟩
  have hnone : (Address.parse (Text.lit "XFE1")).toOption = none := by decide +kernel
  rw [ha] at hnone
  cases hnone

end Package

end SheetGloss
