import Mathlib.Data.List.Nodup
import SheetGloss.Proofs.SheetNames
import SheetGloss.Proofs.SheetRoundTrip

/-!
# Reading a written workbook

Reading the parts of a written workbook gives back its sheets, with their names, values and
formulas and in their order.
-/

namespace SheetGloss.Package

open Xml (Event Tag Markup IsName AreKeys)

/-! ### Numbered names -/

lemma ofNat_injective : Function.Injective Text.ofNat := by
  intro m n h
  have hvalue (k : Nat) : Text.decimalValue (Text.ofNat k) = k := Nat.ofDigitChars_ten_toDigits
  rw [← hvalue m, h, hvalue]

lemma relationText_injective : Function.Injective relationText := by
  intro m n h
  simp only [relationText, List.append_right_inj] at h
  exact ofNat_injective h

lemma sheetPath_injective : Function.Injective sheetPath := by
  intro m n h
  simp only [sheetPath, targetText, List.append_right_inj, List.append_left_inj] at h
  exact ofNat_injective h

/-- No other part has a name that begins like those of the sheets. -/
lemma sheetPath_ne {name : Text} (h : name.take 10 ≠ Text.lit "xl/workshe") (number : Nat) :
    sheetPath number ≠ name := by
  have hstem : Text.lit "xl/" ++ targetStem = Text.lit "xl/workshe" ++ Text.lit "ets/sheet" := by
    decide +kernel
  have hlength : (Text.lit "xl/workshe").length = 10 := by decide +kernel
  rintro rfl
  apply h
  rw [sheetPath, targetText, ← List.append_assoc, hstem, List.append_assoc, ← hlength,
    List.take_left]

/-! ### Parts and relationships by name -/

lemma find?_reverse_of_nodup {α β : Type} [BEq β] [LawfulBEq β] {f : α → β} {l : List α} {a : α}
    (hnodup : (l.map f).Nodup) (ha : a ∈ l) :
    l.reverse.find? (fun b => f b == f a) = some a := by
  cases h : l.reverse.find? (fun b => f b == f a) with
  | none =>
    have hne := List.find?_eq_none.mp h a (List.mem_reverse.mpr ha)
    exact absurd (beq_self_eq_true (f a)) hne
  | some b =>
    have hb := List.mem_reverse.mp (List.mem_of_find?_eq_some h)
    have heq := List.find?_some h
    rw [List.inj_on_of_nodup_map hnodup hb ha (by simpa using heq)]

lemma part?_of_mem {archive : Archive} {entry : Entry}
    (hnodup : (archive.map (·.name)).Nodup) (h : entry ∈ archive) :
    archive.part? entry.name = entry.part := by
  rw [Archive.part?, find?_reverse_of_nodup hnodup h, Option.bind_some]

lemma part?_of_not_mem {archive : Archive} {name : Text} (h : name ∉ archive.map (·.name)) :
    archive.part? name = none := by
  have hnone : archive.reverse.find? (·.name == name) = none := by
    rw [List.find?_eq_none]
    intro entry hm he
    exact h (List.mem_map.mpr ⟨entry, List.mem_reverse.mp hm, by simpa using he⟩)
  rw [Archive.part?, hnone, Option.bind_none]

/-- The names of the parts that every written workbook has. -/
def fixedNames : List Text :=
  [Text.lit "[Content_Types].xml", Text.lit "xl/workbook.xml",
    Text.lit "xl/_rels/workbook.xml.rels"]

lemma names_writtenArchive (layouts : List Layout) : (writtenArchive layouts).map (·.name) =
    fixedNames ++ (List.range' 1 layouts.length).map sheetPath := by
  rw [← List.zipIdx_map_snd 1 layouts, List.map_map, writtenArchive, documents, List.map_map,
    writtenDocuments, List.map_cons, List.map_cons, List.map_cons, List.map_map]
  rfl

lemma not_mem_sheetPaths {name : Text} (h : name.take 10 ≠ Text.lit "xl/workshe") (s : List Nat) :
    name ∉ s.map sheetPath := by
  intro hm
  obtain ⟨number, -, hn⟩ := List.mem_map.mp hm
  exact sheetPath_ne h number hn

lemma nodup_writtenArchive (layouts : List Layout) :
    ((writtenArchive layouts).map (·.name)).Nodup := by
  have hfixed : ∀ name ∈ fixedNames, name.take 10 ≠ Text.lit "xl/workshe" := by decide +kernel
  rw [names_writtenArchive, List.nodup_append]
  refine ⟨by decide +kernel, List.Nodup.map sheetPath_injective (List.nodup_range' 1), ?_⟩
  rintro name hm _ hs rfl
  exact not_mem_sheetPaths (hfixed name hm) _ hs

lemma requiredEvents_written {archive : Archive} {name : Text} {document : List Markup}
    (hnodup : (archive.map (·.name)).Nodup) (hmem : writtenPart name document ∈ archive)
    (h : ∀ markup ∈ document, markup.Sound) (hhead : document.head? = some .declaration)
    (hnest : document.foldlM Markup.nest? [] = some []) :
    requiredEvents archive name = .ok (document.flatMap Markup.events) := by
  have hpart := part?_of_mem hnodup hmem
  rw [requiredEvents, show name = (writtenPart name document).name from rfl, hpart]
  exact congrArg Except.ok (events_written h hhead hnest)

lemma mem_writtenArchive {layouts : List Layout} {name : Text} {document : List Markup}
    (hmem : (name, document) ∈ writtenDocuments layouts) :
    writtenPart name document ∈ writtenArchive layouts := List.mem_map.mpr ⟨_, hmem, rfl⟩

lemma events_part {layouts : List Layout} {name : Text} {document : List Markup}
    (hmem : (name, document) ∈ writtenDocuments layouts)
    (h : ∀ markup ∈ document, markup.Sound) (hhead : document.head? = some .declaration)
    (hnest : document.foldlM Markup.nest? [] = some []) :
    requiredEvents (writtenArchive layouts) name = .ok (document.flatMap Markup.events) :=
  requiredEvents_written (nodup_writtenArchive layouts) (mem_writtenArchive hmem) h hhead hnest

lemma strings_writtenArchive (layouts : List Layout) :
    readStrings (writtenArchive layouts) = .ok #[] := by
  have hnone : Text.lit "xl/sharedStrings.xml" ∉ (writtenArchive layouts).map (·.name) := by
    rw [names_writtenArchive, List.mem_append, not_or]
    exact ⟨by decide +kernel, not_mem_sheetPaths (by decide +kernel) _⟩
  rw [readStrings, part?_of_not_mem hnone]

/-! ### The list of the sheets -/

lemma fault_not_mem_events (document : List Markup) :
    Event.fault ∉ document.flatMap Markup.events := by
  intro hm
  obtain ⟨markup, -, hf⟩ := List.mem_flatMap.mp hm
  cases markup <;> simp [Markup.events] at hf

/-- What the started tags of a document stand for. -/
def listed {α : Type} (ofTag? : Tag → Option α) (document : List Markup) : List α :=
  (document.flatMap Markup.events).filterMap fun event => (startedTag? event).bind ofTag?

lemma collect_written {α : Type} (ofTag? : Tag → Option α) (document : List Markup) :
    collect ofTag? (document.flatMap Markup.events) = .ok (listed ofTag? document) := by
  rw [collect, if_neg]
  · rfl
  · rw [List.contains_iff_mem]
    exact fault_not_mem_events document

lemma listed_append {α : Type} (ofTag? : Tag → Option α) (k l : List Markup) :
    listed ofTag? (k ++ l) = listed ofTag? k ++ listed ofTag? l := by
  rw [listed, List.flatMap_append, List.filterMap_append]
  rfl

lemma listed_singles {α β : Type} {ofTag? : Tag → Option α} {tag : β → Tag} {value : β → α}
    (markup : β → Markup) (hm : ∀ b, (markup b).events = [.single (tag b)])
    (ht : ∀ b, ofTag? (tag b) = some (value b)) (s : List β) :
    listed ofTag? (s.map markup) = s.map value := by
  have hevents : (s.map markup).flatMap Markup.events = s.map fun b => .single (tag b) := by
    rw [List.flatMap_map, List.map_eq_flatMap]
    exact List.flatMap_congr fun b _ => hm b
  have hvalue : (fun event => (startedTag? event).bind ofTag?) ∘ (fun b => Event.single (tag b)) =
      some ∘ value := funext ht
  rw [listed, hevents, List.filterMap_map, hvalue, List.filterMap_eq_map]

lemma attribute?_written (name : Text) (attributes : List (Text × Text)) (key : String) :
    (Xml.writtenTag name attributes).attribute? key =
      (attributes.find? fun entry => entry.1 == key.toList).map (·.2) := by
  rw [Tag.attribute?, Xml.writtenTag, List.find?_map, Option.bind_map]
  rw [Option.map_eq_bind]
  rfl

lemma ofTag?_sheet (entry : Text × Nat) :
    SheetEntry.ofTag? (Xml.writtenTag (Text.lit "sheet") [(Text.lit "name", entry.1),
      (Text.lit "sheetId", Text.ofNat entry.2), (Text.lit "r:id", relationText entry.2)]) =
        some ⟨entry.1, relationText entry.2⟩ := by
  rw [SheetEntry.ofTag?, attribute?_written, attribute?_written]
  simp [Tag.is, Xml.writtenTag, Text.lit]

lemma attribute?_relation (id type target : Text) :
    let tag := Xml.writtenTag (Text.lit "Relationship")
      [(Text.lit "Id", id), (Text.lit "Type", type), (Text.lit "Target", target)]
    tag.attribute? "Id" = some id ∧ tag.attribute? "Type" = some type ∧
      tag.attribute? "Target" = some target := by
  dsimp only
  rw [attribute?_written, attribute?_written, attribute?_written]
  refine ⟨?_, ?_, ?_⟩ <;> simp [Text.lit]

lemma ofTag?_relation (number : Nat) :
    Relation.ofTag? (Xml.writtenTag (Text.lit "Relationship") [(Text.lit "Id", relationText number),
      (Text.lit "Type", worksheetType), (Text.lit "Target", targetText number)]) =
        some ⟨relationText number, sheetPath number⟩ := by
  have htype : Text.endsIn (Text.lit "/worksheet") worksheetType = true := by decide +kernel
  have htarget : targetPath (targetText number) = sheetPath number := by
    obtain ⟨rest, hrest⟩ : ∃ rest, targetText number = 'w' :: rest := ⟨_, rfl⟩
    rw [sheetPath, hrest]
    rfl
  obtain ⟨hid, hkind, hpath⟩ :=
    attribute?_relation (relationText number) worksheetType (targetText number)
  have hname (attributes : List (Text × Text)) :
      (Xml.writtenTag (Text.lit "Relationship") attributes).is "Relationship" = true := rfl
  simp only [Relation.ofTag?, hname, hid, hkind, hpath, Option.bind_eq_bind, Option.bind_some,
    htype, htarget]
  rfl

lemma collect_workbook (names : List Text) :
    collect SheetEntry.ofTag? ((workbookMarkup names).flatMap Markup.events) =
      .ok ((names.zipIdx 1).map fun entry => ⟨entry.1, relationText entry.2⟩) := by
  have hsheets := listed_singles sheetMarkup (fun _ => rfl) ofTag?_sheet
    (names.zipIdx 1)
  have hbefore : listed SheetEntry.ofTag? ((workbookMarkup []).take 3) = [] := by decide +kernel
  have hafter : listed SheetEntry.ofTag? ((workbookMarkup []).drop 3) = [] := by decide +kernel
  have hparts : workbookMarkup names = (workbookMarkup []).take 3 ++
      ((names.zipIdx 1).map sheetMarkup ++ (workbookMarkup []).drop 3) := rfl
  rw [collect_written, hparts, listed_append, listed_append, hbefore, hsheets, hafter,
    List.nil_append, List.append_nil]

lemma collect_relations (count : Nat) :
    collect Relation.ofTag? ((relationsMarkup count).flatMap Markup.events) =
      .ok ((List.range' 1 count).map fun number => ⟨relationText number, sheetPath number⟩) := by
  have hrelations := listed_singles relationMarkup (fun _ => rfl) ofTag?_relation
    (List.range' 1 count)
  have hbefore : listed Relation.ofTag? ((relationsMarkup 0).take 2) = [] := by decide +kernel
  have hafter : listed Relation.ofTag? ((relationsMarkup 0).drop 2) = [] := by decide +kernel
  have hparts : relationsMarkup count = (relationsMarkup 0).take 2 ++
      ((List.range' 1 count).map relationMarkup ++ (relationsMarkup 0).drop 2) := rfl
  rw [collect_written, hparts, listed_append, listed_append, hbefore, hrelations, hafter,
    List.nil_append, List.append_nil]

/-! ### Markup of the list -/

lemma sound_workbook (names : List Text) : ∀ markup ∈ workbookMarkup names, markup.Sound := by
  have hworkbook : IsName (Text.lit "workbook") := by decide +kernel
  have hsheets : IsName (Text.lit "sheets") := by decide +kernel
  have hsheet : IsName (Text.lit "sheet") := by decide +kernel
  have hspace : AreKeys [Text.lit "xmlns:r"] := by decide +kernel
  have hnone : AreKeys [] := by decide +kernel
  have hkeys : AreKeys [Text.lit "name", Text.lit "sheetId", Text.lit "r:id"] := by decide +kernel
  intro markup hm
  simp only [workbookMarkup, List.mem_cons, List.mem_append, List.not_mem_nil, or_false] at hm
  rcases hm with rfl | rfl | rfl | hm | rfl | rfl
  · trivial
  · exact ⟨hworkbook, hspace⟩
  · exact ⟨hsheets, hnone⟩
  · obtain ⟨entry, -, rfl⟩ := List.mem_map.mp hm
    exact ⟨hsheet, hkeys⟩
  · exact hsheets
  · exact hworkbook

lemma sound_relations (count : Nat) : ∀ markup ∈ relationsMarkup count, markup.Sound := by
  have hall : IsName (Text.lit "Relationships") := by decide +kernel
  have hone : IsName (Text.lit "Relationship") := by decide +kernel
  have hnone : AreKeys [] := by decide +kernel
  have hkeys : AreKeys [Text.lit "Id", Text.lit "Type", Text.lit "Target"] := by decide +kernel
  intro markup hm
  simp only [relationsMarkup, List.mem_cons, List.mem_append, List.not_mem_nil, or_false] at hm
  rcases hm with rfl | rfl | hm | rfl
  · trivial
  · exact ⟨hall, hnone⟩
  · obtain ⟨number, -, rfl⟩ := List.mem_map.mp hm
    exact ⟨hone, hkeys⟩
  · exact hall

lemma nest?_workbook (names : List Text) :
    (workbookMarkup names).foldlM Markup.nest? [] = some [] := by
  simp only [workbookMarkup, List.foldlM_cons, List.foldlM_append, Markup.nest?,
    Option.bind_eq_bind, Option.bind_some]
  rw [List.map_eq_flatMap, nest?_flatMap fun _ => rfl]
  simp

lemma nest?_relations (count : Nat) :
    (relationsMarkup count).foldlM Markup.nest? [] = some [] := by
  simp only [relationsMarkup, List.foldlM_cons, List.foldlM_append, Markup.nest?,
    Option.bind_eq_bind, Option.bind_some]
  rw [List.map_eq_flatMap, nest?_flatMap fun _ => rfl]
  simp

/-! ### Sheets one after another -/

lemma pathOf?_relations {count number : Nat} (h : number ∈ List.range' 1 count) :
    pathOf? ((List.range' 1 count).map fun number => ⟨relationText number, sheetPath number⟩)
      (relationText number) = some (sheetPath number) := by
  let relation (number : Nat) : Relation := ⟨relationText number, sheetPath number⟩
  have hnodup : (((List.range' 1 count).map relation).map (·.id)).Nodup := by
    rw [List.map_map]
    exact List.Nodup.map relationText_injective (List.nodup_range' 1)
  have hfind := find?_reverse_of_nodup hnodup (List.mem_map_of_mem h)
  rw [pathOf?, show relationText number = (relation number).id from rfl, hfind]
  rfl

variable {layouts : List Layout}

lemma addSheet_layout {book : Workbook} {layout : Layout} {number : Nat}
    (hmem : (layout, number) ∈ layouts.zipIdx 1) (hnew : layout.sheet.name ∉ book.names) :
    addSheet (writtenArchive layouts) #[]
        ((List.range' 1 layouts.length).map fun number => ⟨relationText number, sheetPath number⟩)
        book ⟨layout.sheet.name, relationText number⟩ = .ok ⟨book.sheets ++ [layout.sheet]⟩ := by
  have hnumber : number ∈ List.range' 1 layouts.length := by
    rw [← List.zipIdx_map_snd 1 layouts]
    exact List.mem_map.mpr ⟨(layout, number), hmem, rfl⟩
  have hpart : (sheetPath number, layout.markup) ∈ writtenDocuments layouts := by
    refine List.mem_cons_of_mem _ (List.mem_cons_of_mem _ (List.mem_cons_of_mem _ ?_))
    exact List.mem_map.mpr ⟨(layout, number), hmem, rfl⟩
  have hevents := events_part hpart (sound_layout layout) rfl (nest?_layout layout)
  have hadd : book.add layout.sheet = .ok (⟨book.sheets ++ [layout.sheet]⟩, book.sheets.length) :=
    Workbook.add_eq_ok_iff.mpr ⟨⟨checkName_eq_ok_iff.mp layout.name_valid, hnew⟩, rfl, rfl⟩
  simp only [addSheet, pathOf?_relations hnumber, hevents, bind, Except.bind,
    readCells_layout layout, hadd]
  rfl

lemma foldlM_addSheet {book : Workbook} {entries : List (Layout × Nat)}
    (hmem : ∀ entry ∈ entries, entry ∈ layouts.zipIdx 1)
    (hnames : (book.names ++ entries.map fun entry => entry.1.sheet.name).Nodup) :
    (entries.map fun entry => (⟨entry.1.sheet.name, relationText entry.2⟩ : SheetEntry)).foldlM
      (addSheet (writtenArchive layouts) #[]
        ((List.range' 1 layouts.length).map fun number => ⟨relationText number, sheetPath number⟩))
      book = .ok ⟨book.sheets ++ entries.map fun entry => entry.1.sheet⟩ := by
  -- The names already in the book go through the induction, so that the next name is a new one.
  induction entries generalizing book with
  | nil =>
    rw [List.map_nil, List.map_nil, List.append_nil]
    rfl
  | cons entry entries ih =>
    rw [List.map_cons] at hnames
    have hnew : entry.1.sheet.name ∉ book.names := by
      intro hm
      exact List.disjoint_of_nodup_append hnames hm List.mem_cons_self
    have hadd := addSheet_layout (hmem entry List.mem_cons_self) hnew
    have hrest : ((Workbook.mk (book.sheets ++ [entry.1.sheet])).names ++
        entries.map fun entry => entry.1.sheet.name).Nodup := by
      rw [Workbook.names, List.map_append, List.append_assoc]
      exact hnames
    rw [List.map_cons, foldlM_cons_of_pure hadd,
      ih (fun e he => hmem e (List.mem_cons_of_mem entry he)) hrest, List.map_cons,
      List.append_assoc]
    rfl

lemma read_written (layouts : List Layout)
    (hnames : (layouts.map fun layout => layout.sheet.name).Nodup) :
    read (writtenArchive layouts) = .ok ⟨layouts.map fun layout => layout.sheet⟩ := by
  have htypes : (writtenArchive layouts).part? (Text.lit "[Content_Types].xml") =
      (writtenPart (Text.lit "[Content_Types].xml") typesMarkup).part :=
    part?_of_mem (nodup_writtenArchive layouts) (mem_writtenArchive List.mem_cons_self)
  have hlist : (Text.lit "xl/workbook.xml",
      workbookMarkup (layouts.map fun layout => layout.sheet.name)) ∈ writtenDocuments layouts :=
    List.mem_cons_of_mem _ List.mem_cons_self
  have hlinks : (Text.lit "xl/_rels/workbook.xml.rels", relationsMarkup layouts.length) ∈
      writtenDocuments layouts :=
    List.mem_cons_of_mem _ (List.mem_cons_of_mem _ List.mem_cons_self)
  have hworkbook := events_part hlist (sound_workbook _) rfl (nest?_workbook _)
  have hrelations := events_part hlinks (sound_relations _) rfl (nest?_relations _)
  have hentries : ((layouts.map fun layout => layout.sheet.name).zipIdx 1).map
      (fun entry => (⟨entry.1, relationText entry.2⟩ : SheetEntry)) =
        (layouts.zipIdx 1).map fun entry => ⟨entry.1.sheet.name, relationText entry.2⟩ := by
    rw [List.zipIdx_map, List.map_map]
    rfl
  have hfirst {α : Type} (f : Layout → α) :
      (layouts.zipIdx 1).map (fun entry => f entry.1) = layouts.map f :=
    calc (layouts.zipIdx 1).map (fun entry => f entry.1)
        = ((layouts.zipIdx 1).map Prod.fst).map f := (List.map_map ..).symm
      _ = layouts.map f := by rw [List.zipIdx_map_fst]
  have hnew : (Workbook.empty.names ++
      (layouts.zipIdx 1).map fun entry => entry.1.sheet.name).Nodup := by
    rw [hfirst fun layout => layout.sheet.name]
    exact hnames
  have hfold := foldlM_addSheet (fun _ h => h) hnew
  rw [hfirst fun layout => layout.sheet] at hfold
  simp only [read, htypes, strings_writtenArchive, hworkbook, hrelations, collect_workbook,
    collect_relations, hentries, bind, Except.bind]
  exact hfold

/-- Reading a written workbook gives back its sheets. -/
theorem read_writtenArchive (layouts : List Layout)
    (hnames : (layouts.map fun layout => layout.sheet.name).Nodup) :
    read (writtenArchive layouts) = .ok ⟨layouts.map fun layout => layout.sheet⟩ :=
  read_written layouts hnames

lemma getElem?_singleton {position position' : Position} {text text' : Text}
    (h : ((∅ : CellMap).insert position text)[position']? = some text') :
    position' = position ∧ text' = text := by
  rw [Std.ExtTreeMap.getElem?_insert] at h
  split at h
  · next he => exact ⟨(Std.LawfulEqCmp.eq_of_compare he).symm, (Option.some.inj h).symm⟩
  · cases h

/-- A sheet whose name and texts hold every character that is escaped, its last cell first. -/
def escapedLayout : Layout where
  sheet :=
    { name := Text.lit "R&D <\"1\">"
      values := (∅ : CellMap).insert ⟨0, 0⟩ (Text.lit "_x0041_ 'n' &amp;")
      formulas := (∅ : CellMap).insert ⟨3, 27⟩ (Text.lit "IF(A1<\"&\",1)") }
  order := [⟨3, 27⟩, ⟨0, 0⟩]
  name_valid := by decide +kernel
  inside := by decide
  value_mem := by
    intro position text h
    obtain ⟨rfl, rfl⟩ := getElem?_singleton h
    exact ⟨by decide, by decide +kernel⟩
  formula_mem := by
    intro position source h
    obtain ⟨rfl, rfl⟩ := getElem?_singleton h
    exact ⟨by decide, by decide +kernel, by decide +kernel⟩

def emptyLayout : Layout where
  sheet := Sheet.empty (Text.lit "Notes")
  order := []
  name_valid := by decide +kernel
  inside := by decide
  value_mem := by
    intro position text h
    cases h
  formula_mem := by
    intro position source h
    cases h

/-- A workbook with a sheet of escaped texts before an empty one. -/
theorem read_writtenArchive_escaped :
    ([escapedLayout, emptyLayout].map fun layout => layout.sheet.name).Nodup ∧
      read (writtenArchive [escapedLayout, emptyLayout]) =
        .ok ⟨[escapedLayout.sheet, emptyLayout.sheet]⟩ := by
  have h : ([escapedLayout, emptyLayout].map fun layout => layout.sheet.name).Nodup := by
    decide +kernel
  exact ⟨h, read_writtenArchive [escapedLayout, emptyLayout] h⟩

end SheetGloss.Package
