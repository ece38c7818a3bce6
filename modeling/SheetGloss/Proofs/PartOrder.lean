import SheetGloss.Proofs.SheetListing

/-!
# Workbooks and the order of parts

A workbook depends on the order of its list of sheets alone. The order of the relationships, the
order of the parts, and parts to which nothing leads do not matter.
-/

namespace SheetGloss.Package

open Xml (Event Tag Markup)

/-! ### Archives in which the same parts count -/

section Parts

variable {archive archive' : Archive} {path : Text}

lemma part?_eq_some_iff (hnodup : (archive.map (·.name)).Nodup) {part : Part} :
    archive.part? path = some part ↔ ⟨path, some part⟩ ∈ archive := by
  constructor
  · intro h
    obtain ⟨entry, hfind, hpart⟩ := Option.bind_eq_some_iff.mp h
    have hname : entry.name = path := by simpa using List.find?_some hfind
    have hentry : entry = ⟨path, some part⟩ := by rw [← hname, ← hpart]
    exact hentry ▸ List.mem_reverse.mp (List.mem_of_find?_eq_some hfind)
  · exact fun h => part?_of_mem hnodup h

lemma part?_congr (hnodup : (archive.map (·.name)).Nodup) (hnodup' : (archive'.map (·.name)).Nodup)
    (h : ∀ entry : Entry, entry.name = path → (entry ∈ archive' ↔ entry ∈ archive)) :
    archive'.part? path = archive.part? path := by
  refine Option.ext fun part => ?_
  rw [part?_eq_some_iff hnodup, part?_eq_some_iff hnodup']
  exact h ⟨path, some part⟩ rfl

lemma requiredEvents_eq_ok_iff (hnodup : (archive.map (·.name)).Nodup) {events : List Event} :
    requiredEvents archive path = .ok events ↔
      ∃ part : Part, ⟨path, some part⟩ ∈ archive ∧ part.events = events := by
  rw [requiredEvents]
  split
  · next part hpart =>
    have hmem := (part?_eq_some_iff hnodup).mp hpart
    constructor
    · exact fun h => ⟨part, hmem, Except.ok.inj h⟩
    · rintro ⟨other, hother, rfl⟩
      have hsame := hpart.symm.trans ((part?_eq_some_iff hnodup).mpr hother)
      rw [Option.some.inj hsame]
  · next hnone =>
    have hmissing : ¬∃ part : Part, ⟨path, some part⟩ ∈ archive ∧ part.events = events := by
      rintro ⟨part, hpart, -⟩
      rw [(part?_eq_some_iff hnodup).mpr hpart] at hnone
      cases hnone
    simp [hmissing]

end Parts

/-! ### Relationships in another order -/

/-- The tags of the relationships in a part. -/
def relationTags (events : List Event) : List Tag :=
  (startedTags events).filter (·.is "Relationship")

def ofRelationship : Event → Bool
  | .opening tag => tag.is "Relationship"
  | .single tag => tag.is "Relationship"
  | .closing name => name == Text.lit "Relationship"
  | _ => false

/-- What stands in a part besides the starts and ends of relationships. -/
def aroundRelations (events : List Event) : List Event := events.filter (!ofRelationship ·)

lemma filterMap_relationTags (events : List Event) :
    (relationTags events).filterMap Relation.ofTag? =
      (startedTags events).filterMap Relation.ofTag? := by
  rw [relationTags, List.filterMap_filter]
  refine List.filterMap_congr fun tag _ => ?_
  split
  · rfl
  · next h => simp [Relation.ofTag?, h]

/-- Distinct identifiers of relationships are distinct where they lead to sheets. -/
lemma nodup_relations {tags : List Tag} (h : (tags.filterMap (·.attribute? "Id")).Nodup) :
    ((tags.filterMap Relation.ofTag?).map (·.id)).Nodup := by
  have hid : ∀ tag relation, Relation.ofTag? tag = some relation →
      tag.attribute? "Id" = some relation.id := fun tag relation hrelation =>
    (relation_eq_some_iff.mp hrelation).identified
  refine List.Nodup.sublist ?_ h
  clear h
  induction tags with
  | nil => exact .slnil
  | cons tag tags ih =>
    rw [List.filterMap_cons, List.filterMap_cons]
    cases hrelation : Relation.ofTag? tag with
    | some relation =>
      rw [hid tag relation hrelation]
      exact ih.cons_cons relation.id
    | none =>
      cases tag.attribute? "Id" with
      | some id => exact ih.cons id
      | none => exact ih

lemma pathOf?_perm {relations relations' : List Relation} (hnodup : (relations.map (·.id)).Nodup)
    (h : relations'.Perm relations) (id : Text) : pathOf? relations' id = pathOf? relations id := by
  have hmem {l : List Relation} (hl : (l.map (·.id)).Nodup) {path : Text} :
      pathOf? l id = some path ↔ ⟨id, path⟩ ∈ l := by
    constructor
    · intro hpath
      obtain ⟨relation, hfind, rfl⟩ := Option.map_eq_some_iff.mp hpath
      obtain rfl : relation.id = id := by simpa using List.find?_some hfind
      exact List.mem_reverse.mp (List.mem_of_find?_eq_some hfind)
    · intro hm
      rw [pathOf?, find?_reverse_of_nodup hl hm]
      rfl
  have hnodup' := (h.map (·.id)).nodup_iff.mpr hnodup
  refine Option.ext fun path => ?_
  rw [hmem hnodup', hmem hnodup, h.mem_iff]

section Around

variable {strings : Array Text} {reader : CellReader} {event : Event} {events : List Event}

/-- The starts and ends of relationships are nothing to the reader of cells. -/
lemma step_relation (h : ofRelationship event = true) : reader.step strings event = .ok reader := by
  have hother : Text.lit "Relationship" ∉ [Text.lit "c", Text.lit "v", Text.lit "f", Text.lit "is",
      Text.lit "t"] := by decide +kernel
  simp only [List.mem_cons, List.not_mem_nil, or_false, not_or] at hother
  obtain ⟨hc, hv, hf, his, ht⟩ := hother
  have htag {tag : Tag} (hrelation : tag.is "Relationship" = true) : tag.is "c" = false ∧
      tag.is "v" = false ∧ tag.is "f" = false ∧ tag.is "is" = false ∧ tag.is "t" = false := by
    have hname : tag.name = Text.lit "Relationship" := beq_iff_eq.mp hrelation
    simp only [Tag.is, hname]
    exact ⟨beq_false_of_ne hc, beq_false_of_ne hv, beq_false_of_ne hf, beq_false_of_ne his,
      beq_false_of_ne ht⟩
  cases event with
  | opening tag =>
    obtain ⟨hc, hv, hf, his, ht⟩ := htag h
    simp [CellReader.step, CellReader.opened, hc, hv, hf, his, ht]
  | single tag =>
    obtain ⟨hc, -, hf, -, -⟩ := htag h
    simp [CellReader.step, CellReader.passed, hc, hf]
  | closing name =>
    obtain rfl : name = Text.lit "Relationship" := beq_iff_eq.mp h
    simp only [CellReader.step, CellReader.closed, if_neg hc, if_neg hv, if_neg hf, if_neg his,
      if_neg ht]
  | text content => cases h
  | aside => cases h
  | fault => cases h

lemma foldlM_aroundRelations :
    (aroundRelations events).foldlM (CellReader.step strings) reader =
      events.foldlM (CellReader.step strings) reader := by
  induction events generalizing reader with
  | nil => rfl
  | cons event events ih =>
    rw [aroundRelations, List.filter_cons]
    cases h : ofRelationship event with
    | true => exact ih.trans (foldlM_cons_of_pure (step_relation h)).symm
    | false =>
      simp only [Bool.not_false, if_true, List.foldlM_cons]
      exact congrArg _ (funext fun next => ih)

lemma readCells_aroundRelations (name : Text) :
    readCells strings name (aroundRelations events) = readCells strings name events := by
  rw [readCells, foldlM_aroundRelations, readCells]

end Around

/-! ### Archives of documents -/

/-- Markup that makes a document: a declaration first, and elements that are closed in order. -/
structure IsDocument (document : List Markup) : Prop where
  declared : document.head? = some .declaration
  sound : ∀ markup ∈ document, markup.Sound
  nested : document.foldlM Markup.nest? [] = some []

instance (document : List Markup) : Decidable (IsDocument document) :=
  decidable_of_iff (document.head? = some .declaration ∧ (∀ markup ∈ document, markup.Sound) ∧
      document.foldlM Markup.nest? [] = some [])
    ⟨fun h => ⟨h.1, h.2.1, h.2.2⟩, fun h => ⟨h.declared, h.sound, h.nested⟩⟩

/-- Documents under distinct names. -/
structure AreDocuments (parts : List (Text × List Markup)) : Prop where
  nodup : (parts.map Prod.fst).Nodup
  all : ∀ part ∈ parts, IsDocument part.2

instance (parts : List (Text × List Markup)) : Decidable (AreDocuments parts) :=
  decidable_of_iff ((parts.map Prod.fst).Nodup ∧ ∀ part ∈ parts, IsDocument part.2)
    ⟨fun h => ⟨h.1, h.2⟩, fun h => ⟨h.nodup, h.all⟩⟩

def relationsPath : Text := Text.lit "xl/_rels/workbook.xml.rels"

section Documents

variable {parts : List (Text × List Markup)} {path : Text} {document list relations : List Markup}

lemma names_documents : (documents parts).map (·.name) = parts.map Prod.fst := by
  rw [documents, List.map_map]
  rfl

lemma AreDocuments.nodup_names (h : AreDocuments parts) :
    ((documents parts).map (·.name)).Nodup := by
  rw [names_documents]
  exact h.nodup

lemma AreDocuments.requiredEvents_eq (h : AreDocuments parts) (hmem : (path, document) ∈ parts) :
    requiredEvents (documents parts) path = .ok (document.flatMap Markup.events) :=
  have hdocument := h.all _ hmem
  requiredEvents_written h.nodup_names (List.mem_map_of_mem hmem) hdocument.sound
    hdocument.declared hdocument.nested

lemma AreDocuments.events_eq (h : AreDocuments parts) (hmem : (path, document) ∈ parts)
    {part : Part} (hpart : ⟨path, some part⟩ ∈ documents parts) :
    part.events = document.flatMap Markup.events := by
  have hevents := (requiredEvents_eq_ok_iff h.nodup_names).mpr ⟨part, hpart, rfl⟩
  rw [h.requiredEvents_eq hmem] at hevents
  exact (Except.ok.inj hevents).symm

lemma startedTags_written {α : Type} (ofTag? : Tag → Option α) (document : List Markup) :
    (startedTags (document.flatMap Markup.events)).filterMap ofTag? = listed ofTag? document :=
  List.filterMap_filterMap ..

/-- Archives have the same parts under some names when their documents under these are the same. -/
lemma mem_documents_congr {parts' : List (Text × List Markup)} {P : Text → Prop} [DecidablePred P]
    (h : (parts'.filter (P ·.1)).Perm (parts.filter (P ·.1))) {entry : Entry}
    (hname : P entry.name) : entry ∈ documents parts' ↔ entry ∈ documents parts := by
  have hkept (parts : List (Text × List Markup)) :
      entry ∈ documents parts ↔ entry ∈ documents (parts.filter (P ·.1)) := by
    simp only [documents, List.mem_map, List.mem_filter, decide_eq_true_eq]
    refine exists_congr fun part => and_congr_left ?_
    rintro rfl
    exact (and_iff_left hname).symm
  rw [hkept parts', hkept parts]
  exact (h.map _).mem_iff

/-- Documents without shared strings are read sheet by sheet as they are listed. -/
lemma AreDocuments.read_eq_foldlM (h : AreDocuments parts)
    (htypes : (Text.lit "[Content_Types].xml", document) ∈ parts)
    (hstrings : Text.lit "xl/sharedStrings.xml" ∉ parts.map Prod.fst)
    (hlist : (Text.lit "xl/workbook.xml", list) ∈ parts)
    (hrelations : (relationsPath, relations) ∈ parts) : Package.read (documents parts) =
      (listingOf (listed Relation.ofTag? relations) (listed SheetEntry.ofTag? list)).foldlM
        (addListed (documents parts) #[]) Workbook.empty := by
  have hpart : (documents parts).part? (Text.lit "[Content_Types].xml") = _ :=
    part?_of_mem h.nodup_names (List.mem_map_of_mem htypes)
  have htable : readStrings (documents parts) = .ok #[] := by
    rw [readStrings, part?_of_not_mem (names_documents ▸ hstrings)]
  rw [Package.read_eq_foldlM (by rw [hpart]; rfl) htable (h.requiredEvents_eq hlist)
    (fault_not_mem_events list) (h.requiredEvents_eq hrelations) (fault_not_mem_events relations),
    startedTags_written, startedTags_written]

/-- A workbook of documents without shared strings. -/
lemma AreDocuments.read_eq (h : AreDocuments parts)
    (htypes : (Text.lit "[Content_Types].xml", document) ∈ parts)
    (hstrings : Text.lit "xl/sharedStrings.xml" ∉ parts.map Prod.fst)
    (hlist : (Text.lit "xl/workbook.xml", list) ∈ parts)
    (hrelations : (relationsPath, relations) ∈ parts) {sheets : List Sheet}
    (hnamed : Workbook.WellNamed ⟨sheets⟩)
    (hsheets : List.Forall₂ (fun entry sheet => ∃ document, (entry.2, document) ∈ parts ∧
        readCells #[] entry.1 (document.flatMap Markup.events) = .ok sheet)
      (listingOf (listed Relation.ofTag? relations) (listed SheetEntry.ofTag? list)) sheets) :
    Package.read (documents parts) = .ok ⟨sheets⟩ := by
  rw [h.read_eq_foldlM htypes hstrings hlist hrelations,
    foldlM_addListed_eq_ok_iff Workbook.wellNamed_empty]
  refine ⟨hnamed, sheets, hsheets.imp ?_, rfl⟩
  rintro entry sheet ⟨document, hmem, hread⟩
  rw [readListed, h.requiredEvents_eq hmem]
  exact hread

end Documents

/-! ### The workbook from archives that differ elsewhere -/

/-- The other parts that every workbook is read from, whatever sheets it lists. -/
def fixedPaths : List Text :=
  [Text.lit "[Content_Types].xml", Text.lit "xl/sharedStrings.xml", Text.lit "xl/workbook.xml"]

/-- Archives that differ at most in the order of their parts, in parts from which no workbook and no
sheet at one of `paths` is read, and in the order of the relationships. When the relationships are
themselves the part of a sheet, all else in them stands as it was. -/
structure SameSources (paths : List Text) (archive archive' : Archive) : Prop where
  kept : ∀ entry : Entry, entry.name ∈ fixedPaths ++ paths → entry.name ≠ relationsPath →
    (entry ∈ archive' ↔ entry ∈ archive)
  reordered : ∀ relations : Part, ⟨relationsPath, some relations⟩ ∈ archive →
    ∃ relations' : Part, ⟨relationsPath, some relations'⟩ ∈ archive' ∧
      Event.fault ∉ relations'.events ∧
      (relationTags relations'.events).Perm (relationTags relations.events) ∧
      (relationsPath ∈ paths →
        aroundRelations relations'.events = aroundRelations relations.events)

section Moved

variable {archive archive' : Archive} {book : Workbook} {paths : List Text}

lemma SameSources.part?_eq (h : SameSources paths archive archive')
    (hnodup : (archive.map (·.name)).Nodup) (hnodup' : (archive'.map (·.name)).Nodup) {path : Text}
    (hpath : path ∈ fixedPaths ++ paths) (hne : path ≠ relationsPath) :
    archive'.part? path = archive.part? path :=
  part?_congr hnodup hnodup' fun entry hentry => by
    subst hentry
    exact h.kept entry hpath hne

lemma foldlM_addListed_congr {strings : Array Text} {listing : List (Text × Text)}
    (h : ∀ entry ∈ listing, readListed archive' strings entry = readListed archive strings entry) :
    listing.foldlM (addListed archive' strings) book =
      listing.foldlM (addListed archive strings) book := by
  induction listing generalizing book with
  | nil => rfl
  | cons entry listing ih =>
    obtain ⟨hentry, hlisting⟩ := List.forall_mem_cons.mp h
    rw [List.foldlM_cons, List.foldlM_cons, addListed, addListed, hentry]
    exact congrArg _ (funext fun next => ih hlisting)

/-- A sheet reads the same from both archives. -/
lemma SameSources.readListed_eq (h : SameSources paths archive archive')
    (hnodup : (archive.map (·.name)).Nodup) (hnodup' : (archive'.map (·.name)).Nodup)
    {relations relations' : Part} (hrelations : ⟨relationsPath, some relations⟩ ∈ archive)
    (hrelations' : ⟨relationsPath, some relations'⟩ ∈ archive')
    (haround : relationsPath ∈ paths →
      aroundRelations relations'.events = aroundRelations relations.events)
    (strings : Array Text) {entry : Text × Text} (hentry : entry.2 ∈ paths) :
    readListed archive' strings entry = readListed archive strings entry := by
  by_cases hpath : entry.2 = relationsPath
  · have hread := (requiredEvents_eq_ok_iff hnodup).mpr ⟨relations, hrelations, rfl⟩
    have hread' := (requiredEvents_eq_ok_iff hnodup').mpr ⟨relations', hrelations', rfl⟩
    have hcells : readCells strings entry.1 relations'.events =
        readCells strings entry.1 relations.events := by
      rw [← readCells_aroundRelations, haround (hpath ▸ hentry), readCells_aroundRelations]
    rw [readListed, readListed, hpath, hread, hread']
    exact hcells
  · rw [readListed, readListed, requiredEvents, requiredEvents,
      h.part?_eq hnodup hnodup' (List.mem_append_right _ hentry) hpath]

/-- The sheets of a workbook come as they are listed, each from the part that the last relationship
with its identifier leads to. When the identifiers of relationships are distinct, the workbook is
the same for every archive in which the same parts count, in whatever order. -/
theorem read_follows_listing (hnodup : (archive.map (·.name)).Nodup)
    (hread : Package.read archive = .ok book) :
    ∃ (list relations : Part) (strings : Array Text) (listing : List (Text × Text)),
      ⟨Text.lit "xl/workbook.xml", some list⟩ ∈ archive ∧
      ⟨relationsPath, some relations⟩ ∈ archive ∧ readStrings archive = .ok strings ∧
      Listing (startedTags relations.events) (startedTags list.events) listing ∧
      book.names = listing.map Prod.fst ∧
      List.Forall₂ (fun entry sheet => ∃ part : Part, ⟨entry.2, some part⟩ ∈ archive ∧
        readCells strings entry.1 part.events = .ok sheet) listing book.sheets ∧
      (((relationTags relations.events).filterMap (·.attribute? "Id")).Nodup →
        ∀ archive' : Archive, (archive'.map (·.name)).Nodup →
          SameSources (listing.map Prod.snd) archive archive' →
            Package.read archive' = .ok book) := by
  obtain ⟨strings, _, _, htypes, hstrings, hlist, hsound, hrelations, hsound', hrun⟩ :=
    read_eq_ok_iff.mp hread
  obtain ⟨list, hlistmem, rfl⟩ := (requiredEvents_eq_ok_iff hnodup).mp hlist
  obtain ⟨relations, hmem, rfl⟩ := (requiredEvents_eq_ok_iff hnodup).mp hrelations
  obtain ⟨-, sheets, hall, rfl⟩ :=
    (foldlM_addListed_eq_ok_iff Workbook.wellNamed_empty).mp hrun
  refine ⟨list, relations, strings, _, hlistmem, hmem, hstrings, listing_iff.mpr rfl,
    names_of_readListed hall, hall.imp fun entry sheet hsheet => ?_, ?_⟩
  · obtain ⟨_, hevents, hcells⟩ := exists_of_bind_eq_ok hsheet
    obtain ⟨part, hpart, rfl⟩ := (requiredEvents_eq_ok_iff hnodup).mp hevents
    exact ⟨part, hpart, hcells⟩
  · intro hids archive' hnodup' hsame
    obtain ⟨relations', hmem', hsound'', hperm, haround⟩ := hsame.reordered relations hmem
    have hfixed {path : Text} (hpath : path ∈ fixedPaths) (hne : path ≠ relationsPath) :
        archive'.part? path = archive.part? path :=
      hsame.part?_eq hnodup hnodup' (List.mem_append_left _ hpath) hne
    have hjoined (entries : List SheetEntry) :
        listingOf ((startedTags relations'.events).filterMap Relation.ofTag?) entries =
          listingOf ((startedTags relations.events).filterMap Relation.ofTag?) entries := by
      rw [← filterMap_relationTags, ← filterMap_relationTags, listingOf, listingOf]
      refine List.filterMap_congr fun entry _ => ?_
      rw [pathOf?_perm (nodup_relations hids) (hperm.filterMap _)]
    refine read_eq_ok_iff.mpr ⟨strings, list.events, relations'.events, ?_, ?_, ?_, hsound,
      (requiredEvents_eq_ok_iff hnodup').mpr ⟨relations', hmem', rfl⟩, hsound'', ?_⟩
    · rw [hfixed (by decide +kernel) (by decide +kernel), htypes]
    · rw [← hstrings, readStrings, readStrings, hfixed (by decide +kernel) (by decide +kernel)]
    · rw [← hlist, requiredEvents, requiredEvents,
        hfixed (by decide +kernel) (by decide +kernel)]
    · rw [hjoined, ← hrun]
      exact foldlM_addListed_congr fun entry hentry =>
        hsame.readListed_eq hnodup hnodup' hmem hmem' haround strings
          (List.mem_map_of_mem hentry)

end Moved

/-! ### Relationships that move -/

def relationsDocument (relationships : List (List Markup)) : List Markup :=
  .declaration :: .opening (Text.lit "Relationships") [] ::
    (relationships.flatten ++ [.closing (Text.lit "Relationships")])

/-- A cell at the top left whose value is an error. -/
def errorCell (value : Text) : List Markup :=
  [.opening (Text.lit "c") [(Text.lit "r", Text.lit "A1"), (Text.lit "t", Text.lit "e")],
    .leaf (Text.lit "v") value, .closing (Text.lit "c")]

def errorDocument (value : Text) : List Markup :=
  .declaration :: .opening (Text.lit "worksheet") [] ::
    (errorCell value ++ [.closing (Text.lit "worksheet")])

def errorSheet (name value : Text) : Sheet :=
  { Sheet.empty name with values := (∅ : CellMap).insert ⟨0, 0⟩ value }

/-- Two sheets, with all parts in the order of their use. -/
def orderedParts : List (Text × List Markup) :=
  [(Text.lit "[Content_Types].xml", typesMarkup),
    (Text.lit "xl/workbook.xml", workbookMarkup [Text.lit "Data", Text.lit "Notes"]),
    (relationsPath, relationsDocument [[relationMarkup 1], [relationMarkup 2]]),
    (sheetPath 1, errorDocument (Text.lit "#N/A")), (sheetPath 2, errorDocument (Text.lit "#REF!"))]

/-- The same sheets, with the parts and the relationships in another order, and one part more. -/
def shuffledParts : List (Text × List Markup) :=
  [(sheetPath 2, errorDocument (Text.lit "#REF!")), (Text.lit "docProps/app.xml", typesMarkup),
    (relationsPath, relationsDocument [[relationMarkup 2], [relationMarkup 1]]),
    (Text.lit "xl/workbook.xml", workbookMarkup [Text.lit "Data", Text.lit "Notes"]),
    (sheetPath 1, errorDocument (Text.lit "#N/A")), (Text.lit "[Content_Types].xml", typesMarkup)]

def twoSheets : Workbook :=
  ⟨[errorSheet (Text.lit "Data") (Text.lit "#N/A"), errorSheet (Text.lit "Notes") (Text.lit "#REF!")]⟩

lemma areDocuments_orderedParts : AreDocuments orderedParts := by decide +kernel

lemma areDocuments_shuffledParts : AreDocuments shuffledParts := by decide +kernel

lemma mem_orderedParts_list :
    (Text.lit "xl/workbook.xml", workbookMarkup [Text.lit "Data", Text.lit "Notes"]) ∈
      orderedParts :=
  .tail _ (.head _)

lemma mem_orderedParts_relations :
    (relationsPath, relationsDocument [[relationMarkup 1], [relationMarkup 2]]) ∈ orderedParts :=
  .tail _ (.tail _ (.head _))

lemma mem_shuffledParts_relations :
    (relationsPath, relationsDocument [[relationMarkup 2], [relationMarkup 1]]) ∈ shuffledParts :=
  .tail _ (.tail _ (.head _))

lemma listingOf_orderedParts : listingOf
    (listed Relation.ofTag? (relationsDocument [[relationMarkup 1], [relationMarkup 2]]))
    (listed SheetEntry.ofTag? (workbookMarkup [Text.lit "Data", Text.lit "Notes"])) =
      [(Text.lit "Data", sheetPath 1), (Text.lit "Notes", sheetPath 2)] := by
  decide +kernel

lemma read_orderedParts : Package.read (documents orderedParts) = .ok twoSheets := by
  have hnamed : twoSheets.WellNamed := by decide +kernel
  refine areDocuments_orderedParts.read_eq (.head _) (by decide +kernel) mem_orderedParts_list
    mem_orderedParts_relations hnamed ?_
  rw [listingOf_orderedParts]
  exact .cons ⟨_, .tail _ (.tail _ (.tail _ (.head _))), rfl⟩
    (.cons ⟨_, .tail _ (.tail _ (.tail _ (.tail _ (.head _)))), rfl⟩ .nil)

lemma sameSources_shuffledParts :
    SameSources [sheetPath 1, sheetPath 2] (documents orderedParts) (documents shuffledParts) where
  kept entry hname hne :=
    mem_documents_congr
      (P := fun name => name ∈ fixedPaths ++ [sheetPath 1, sheetPath 2] ∧ name ≠ relationsPath)
      (by decide +kernel) ⟨hname, hne⟩
  reordered relations hrelations := by
    have hevents := areDocuments_orderedParts.events_eq mem_orderedParts_relations hrelations
    have hmoved := List.mem_map_of_mem (f := fun part => writtenPart part.1 part.2)
      mem_shuffledParts_relations
    have hevents' := areDocuments_shuffledParts.events_eq mem_shuffledParts_relations hmoved
    refine ⟨_, hmoved, ?_, ?_, fun hself => absurd hself (by decide +kernel)⟩
    · rw [hevents']
      exact fault_not_mem_events _
    · rw [hevents', hevents]
      decide +kernel

/-- Two sheets whose parts and relationships come in two orders. -/
theorem read_follows_listing_shuffled :
    ((documents orderedParts).map (·.name)).Nodup ∧
      Package.read (documents orderedParts) = .ok twoSheets ∧
      Package.read (documents shuffledParts) = .ok twoSheets := by
  have hnodup := areDocuments_orderedParts.nodup_names
  obtain ⟨list, relations, _, listing, hlist, hrelations, -, hlisting, -, -, hmoved⟩ :=
    read_follows_listing hnodup read_orderedParts
  have hevents := areDocuments_orderedParts.events_eq mem_orderedParts_relations hrelations
  obtain rfl : listing = [(Text.lit "Data", sheetPath 1), (Text.lit "Notes", sheetPath 2)] := by
    rw [listing_iff.mp hlisting, hevents,
      areDocuments_orderedParts.events_eq mem_orderedParts_list hlist, startedTags_written,
      startedTags_written, listingOf_orderedParts]
  refine ⟨hnodup, read_orderedParts, hmoved ?_ _ areDocuments_shuffledParts.nodup_names
    sameSources_shuffledParts⟩
  rw [hevents]
  decide +kernel

/-- A relationship around a cell. -/
def relationAround (number : Nat) (value : Text) : List Markup :=
  .opening (Text.lit "Relationship") [(Text.lit "Id", relationText number),
      (Text.lit "Type", worksheetType), (Text.lit "Target", '/' :: relationsPath)] ::
    (errorCell value ++ [.closing (Text.lit "Relationship")])

/-- A workbook with one sheet, whose part is that of the relationships. -/
def selfListed (relationships : List (List Markup)) : List (Text × List Markup) :=
  [(Text.lit "[Content_Types].xml", typesMarkup),
    (Text.lit "xl/workbook.xml", workbookMarkup [Text.lit "Data"]),
    (relationsPath, relationsDocument relationships)]

lemma read_selfListed {relationships : List (List Markup)} {sheet : Sheet}
    (hdocument : IsDocument (relationsDocument relationships))
    (hjoined : listingOf (listed Relation.ofTag? (relationsDocument relationships))
      (listed SheetEntry.ofTag? (workbookMarkup [Text.lit "Data"])) =
        [(Text.lit "Data", relationsPath)])
    (hcells : readCells #[] (Text.lit "Data")
      ((relationsDocument relationships).flatMap Markup.events) = .ok sheet) :
    Package.read (documents (selfListed relationships)) = .ok ⟨[sheet]⟩ := by
  have hpaths : (selfListed relationships).map Prod.fst = (selfListed []).map Prod.fst := rfl
  have hnodup : ((selfListed relationships).map Prod.fst).Nodup := by
    rw [hpaths]
    decide +kernel
  have hothers : ∀ part ∈ (selfListed []).take 2, IsDocument part.2 := by decide +kernel
  have hall : AreDocuments (selfListed relationships) :=
    ⟨hnodup, List.forall_mem_append.mpr ⟨hothers, List.forall_mem_singleton.mpr hdocument⟩⟩
  have hmem : (relationsPath, relationsDocument relationships) ∈ selfListed relationships :=
    .tail _ (.tail _ (.head _))
  have hnamed : Workbook.WellNamed ⟨[sheet]⟩ := by
    have hname : Workbook.names ⟨[sheet]⟩ = [Text.lit "Data"] := by
      rw [Workbook.names, List.map_singleton, name_of_readCells hcells]
    constructor <;> rw [hname] <;> decide +kernel
  refine hall.read_eq (.head _) ?_ (.tail _ (.head _)) hmem hnamed ?_
  · rw [hpaths]
    decide +kernel
  · rw [hjoined]
    exact .cons ⟨_, hmem, hcells⟩ .nil

/-- Relationships do not move alone when their part is also the part of a sheet: with them move the
cells that they are around, of which the last one stays. -/
theorem read_swapped_relationships :
    let first := relationAround 1 (Text.lit "#N/A")
    let second := relationAround 2 (Text.lit "#REF!")
    relationText 1 ≠ relationText 2 ∧
    ((documents (selfListed [first, second])).map (·.name)).Nodup ∧
    Package.read (documents (selfListed [first, second])) =
      .ok ⟨[errorSheet (Text.lit "Data") (Text.lit "#REF!")]⟩ ∧
    Package.read (documents (selfListed [second, first])) =
      .ok ⟨[errorSheet (Text.lit "Data") (Text.lit "#N/A")]⟩ ∧
    errorSheet (Text.lit "Data") (Text.lit "#REF!") ≠
      errorSheet (Text.lit "Data") (Text.lit "#N/A") := by
  intro first second
  refine ⟨?_, ?_, ?_, ?_, ?_⟩
  · decide +kernel
  · rw [names_documents]
    decide +kernel
  · exact read_selfListed (by decide +kernel) (by decide +kernel) rfl
  · exact read_selfListed (by decide +kernel) (by decide +kernel) rfl
  · intro h
    have hv := congrArg (·.valueAt 0 0) h
    revert hv
    decide +kernel

end SheetGloss.Package
