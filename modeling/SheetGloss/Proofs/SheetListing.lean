import SheetGloss.Proofs.PackageRoundTrip
import SheetGloss.Proofs.StoredCells

/-!
# Sheets by the list of the workbook

A workbook is read from three kinds of parts: the list of its sheets, the relationships, and the
part of each sheet. Reading joins the list with the relationships, and then goes sheet by sheet.
-/

namespace SheetGloss.Package

open Xml (Event Tag Markup)

lemma dropHead?_eq_some_iff {head s rest : Text} :
    Text.dropHead? head s = some rest ↔ s = head ++ rest := by
  induction head generalizing s with
  | nil =>
    rw [Text.dropHead?, Option.some.injEq]
    rfl
  | cons c head ih =>
    cases s with
    | nil => simp [Text.dropHead?]
    | cons d s =>
      rw [Text.dropHead?]
      split
      · next h =>
        rw [ih, h, List.cons_append, List.cons.injEq]
        exact (and_iff_right rfl).symm
      · next h =>
        refine iff_of_false nofun fun he => h ?_
        exact (List.cons.inj he).1.symm

lemma endsIn_iff {tail s : Text} : Text.endsIn tail s = true ↔ tail <:+ s := by
  rw [Text.endsIn, Option.isSome_iff_exists, ← List.reverse_prefix]
  refine exists_congr fun rest => ?_
  rw [dropHead?_eq_some_iff]
  exact eq_comm

lemma targetPath_eq_iff {target path : Text} : targetPath target = path ↔
    target = '/' :: path ∨ target.head? ≠ some '/' ∧ path = Text.lit "xl/" ++ target := by
  unfold targetPath
  split
  · simp
  · next hslash =>
    have hhead : target.head? ≠ some '/' := by
      intro h
      obtain ⟨rest, rfl⟩ := List.head?_eq_some_iff.mp h
      exact hslash rest rfl
    constructor
    · exact fun h => Or.inr ⟨hhead, h.symm⟩
    · rintro (rfl | ⟨-, rfl⟩)
      · exact absurd rfl hhead
      · rfl

/-! ### What the tags of a part list -/

/-- An element that lists a sheet, by a name and the identifier of a relationship. -/
structure Lists (tag : Tag) (name id : Text) : Prop where
  kind : tag.name = Text.lit "sheet"
  named : tag.attribute? "name" = some name
  related : tag.attribute? "r:id" = some id

/-- A relationship that leads to the part of a sheet. Its target is a path from the top after a
slash, and else from the folder of the workbook. -/
structure Leads (tag : Tag) (id path : Text) : Prop where
  kind : tag.name = Text.lit "Relationship"
  identified : tag.attribute? "Id" = some id
  targeted : ∃ target, tag.attribute? "Target" = some target ∧
    (target = '/' :: path ∨ target.head? ≠ some '/' ∧ path = Text.lit "xl/" ++ target)
  typed : ∃ type, tag.attribute? "Type" = some type ∧ Text.lit "/worksheet" <:+ type

/-- The last relationship with an identifier that leads to the part of a sheet leads to a path. -/
def LeadsLast (tags : List Tag) (id path : Text) : Prop :=
  ∃ before tag after, tags = before ++ tag :: after ∧ Leads tag id path ∧
    ∀ later ∈ after, ∀ other, ¬Leads later id other

/-- The names and paths of the sheets that some tags list, in order; a sheet that no relationship
leads on from is passed over. -/
inductive Listing (relations : List Tag) : List Tag → List (Text × Text) → Prop where
  | nil : Listing relations [] []
  | sheet {tag : Tag} {tags : List Tag} {name id path : Text} {listing : List (Text × Text)}
    (h : Lists tag name id) (hpath : LeadsLast relations id path)
    (hrest : Listing relations tags listing) :
    Listing relations (tag :: tags) ((name, path) :: listing)
  | other {tag : Tag} {tags : List Tag} {listing : List (Text × Text)}
    (h : ∀ name id path, Lists tag name id → ¬LeadsLast relations id path)
    (hrest : Listing relations tags listing) : Listing relations (tag :: tags) listing

section Tags

variable {tag : Tag} {tags : List Tag} {name id path : Text}

lemma entry_eq_some_iff : SheetEntry.ofTag? tag = some ⟨name, id⟩ ↔ Lists tag name id := by
  have hkind : tag.is "sheet" = true ↔ tag.name = Text.lit "sheet" := beq_iff_eq
  constructor
  · intro h
    by_cases hsheet : tag.is "sheet" = true
    · cases hname : tag.attribute? "name" <;> cases hid : tag.attribute? "r:id" <;>
        simp [SheetEntry.ofTag?, hsheet, hname, hid] at h
      obtain ⟨rfl, rfl⟩ := h
      exact ⟨hkind.mp hsheet, hname, hid⟩
    · simp [SheetEntry.ofTag?, hsheet] at h
  · intro h
    simp [SheetEntry.ofTag?, hkind.mpr h.kind, h.named, h.related]

lemma relation_eq_some_iff : Relation.ofTag? tag = some ⟨id, path⟩ ↔ Leads tag id path := by
  have hkind : tag.is "Relationship" = true ↔ tag.name = Text.lit "Relationship" := beq_iff_eq
  constructor
  · intro h
    by_cases hrelation : tag.is "Relationship" = true
    · cases hid : tag.attribute? "Id" <;> cases htarget : tag.attribute? "Target" <;>
        cases htype : tag.attribute? "Type" <;>
        simp [Relation.ofTag?, hrelation, hid, htarget, htype] at h
      obtain ⟨hend, rfl, hpath⟩ := h
      exact ⟨hkind.mp hrelation, hid, ⟨_, htarget, targetPath_eq_iff.mp hpath⟩,
        ⟨_, htype, endsIn_iff.mp hend⟩⟩
    · simp [Relation.ofTag?, hrelation] at h
  · intro h
    obtain ⟨target, htarget, hpath⟩ := h.targeted
    obtain ⟨type, htype, hend⟩ := h.typed
    simp [Relation.ofTag?, hkind.mpr h.kind, h.identified, htarget, htype, endsIn_iff.mpr hend,
      targetPath_eq_iff.mpr hpath]

lemma pathOf?_eq_some_iff :
    pathOf? (tags.filterMap Relation.ofTag?) id = some path ↔ LeadsLast tags id path := by
  constructor
  · intro h
    obtain ⟨relation, hfind, rfl⟩ := Option.map_eq_some_iff.mp h
    obtain ⟨hid, last, first, hsplit, hlast⟩ := List.find?_eq_some_iff_append.mp hfind
    have hrelations : tags.filterMap Relation.ofTag? =
        first.reverse ++ relation :: last.reverse := by
      rw [← List.reverse_reverse (tags.filterMap Relation.ofTag?), hsplit]
      simp
    obtain ⟨before, rest, rfl, -, hrest⟩ := List.filterMap_eq_append_iff.mp hrelations
    obtain ⟨between, tag, after, rfl, -, htag, hafter⟩ := List.filterMap_eq_cons_iff.mp hrest
    obtain rfl : relation.id = id := beq_iff_eq.mp hid
    refine ⟨before ++ between, tag, after, by rw [List.append_assoc], ?_, ?_⟩
    · exact relation_eq_some_iff.mp htag
    · intro later hlater other hleads
      have hmem : (⟨relation.id, other⟩ : Relation) ∈ last.reverse :=
        hafter ▸ List.mem_filterMap.mpr ⟨later, hlater, relation_eq_some_iff.mpr hleads⟩
      have hne := hlast _ (List.mem_reverse.mp hmem)
      simp at hne
  · rintro ⟨before, tag, after, rfl, hleads, hafter⟩
    have hnone : (after.filterMap Relation.ofTag?).reverse.find? (·.id == id) = none := by
      rw [List.find?_eq_none]
      intro relation hm he
      obtain ⟨later, hlater, hrelation⟩ := List.mem_filterMap.mp (List.mem_reverse.mp hm)
      obtain rfl : relation.id = id := beq_iff_eq.mp he
      exact hafter later hlater relation.path (relation_eq_some_iff.mp hrelation)
    rw [pathOf?, List.filterMap_append, List.filterMap_cons, relation_eq_some_iff.mpr hleads]
    simp [List.find?_append, hnone]

/-- The listed sheets that a relationship leads on from, by name and path. -/
def listingOf (relations : List Relation) (entries : List SheetEntry) : List (Text × Text) :=
  entries.filterMap fun entry => (pathOf? relations entry.relation).map (entry.name, ·)

/-- The tags list exactly one list of names and paths. -/
lemma listing_iff {relations tags : List Tag} {listing : List (Text × Text)} :
    Listing relations tags listing ↔ listing =
      listingOf (relations.filterMap Relation.ofTag?) (tags.filterMap SheetEntry.ofTag?) := by
  constructor
  · intro h
    induction h with
    | nil => rfl
    | sheet h hpath _ ih =>
      rw [List.filterMap_cons, entry_eq_some_iff.mpr h, listingOf, List.filterMap_cons,
        pathOf?_eq_some_iff.mpr hpath, ih]
      rfl
    | @other tag tags listing h _ ih =>
      rw [List.filterMap_cons, ih]
      cases hentry : SheetEntry.ofTag? tag with
      | none => rfl
      | some entry =>
        rw [listingOf, listingOf, List.filterMap_cons]
        cases hpath : pathOf? (relations.filterMap Relation.ofTag?) entry.relation with
        | none => rfl
        | some path =>
          exact absurd (pathOf?_eq_some_iff.mp hpath) (h _ _ _ (entry_eq_some_iff.mp hentry))
  · rintro rfl
    induction tags with
    | nil => exact .nil
    | cons tag tags ih =>
      rw [List.filterMap_cons]
      cases hentry : SheetEntry.ofTag? tag with
      | none =>
        refine .other (fun name id path h _ => ?_) ih
        rw [entry_eq_some_iff.mpr h] at hentry
        cases hentry
      | some entry =>
        have hlists : Lists tag entry.name entry.relation := entry_eq_some_iff.mp hentry
        rw [listingOf, List.filterMap_cons]
        cases hpath : pathOf? (relations.filterMap Relation.ofTag?) entry.relation with
        | none =>
          refine .other (fun name id path h hleads => ?_) ih
          have hother := hentry.symm.trans (entry_eq_some_iff.mpr h)
          rw [Option.some.inj hother, pathOf?_eq_some_iff.mpr hleads] at hpath
          cases hpath
        | some path => exact .sheet hlists (pathOf?_eq_some_iff.mp hpath) ih

end Tags

/-! ### Reading by the list -/

/-- The tags that start elements in a part. -/
def startedTags (events : List Event) : List Tag := events.filterMap startedTag?

lemma collect_eq_ok_iff {α : Type} {ofTag? : Tag → Option α} {events : List Event} {found : List α} :
    collect ofTag? events = .ok found ↔
      Event.fault ∉ events ∧ (startedTags events).filterMap ofTag? = found := by
  rw [collect, startedTags, List.filterMap_filterMap]
  split
  · next h =>
    have hfault : Event.fault ∈ events := List.contains_iff_mem.mp h
    simp [hfault]
  · next h =>
    have hsound : Event.fault ∉ events := mt List.contains_iff_mem.mpr h
    simp [hsound]

/-- The sheet with a name, from the part with a path. -/
def readListed (archive : Archive) (strings : Array Text) (entry : Text × Text) :
    Except ReadError Sheet := do
  let events ← requiredEvents archive entry.2
  readCells strings entry.1 events

def addListed (archive : Archive) (strings : Array Text) (book : Workbook) (entry : Text × Text) :
    Except ReadError Workbook := do
  let sheet ← readListed archive strings entry
  let (book, _) ← onSheet (book.add sheet)
  return book

section Reading

variable {archive : Archive} {strings : Array Text} {book final : Workbook}
  {listing : List (Text × Text)} {name : Text} {events : List Event}

lemma foldlM_addSheet_eq (relations : List Relation) (entries : List SheetEntry) :
    entries.foldlM (addSheet archive strings relations) book =
      (listingOf relations entries).foldlM (addListed archive strings) book := by
  induction entries generalizing book with
  | nil => rfl
  | cons entry entries ih =>
    rw [List.foldlM_cons, listingOf, List.filterMap_cons]
    cases hpath : pathOf? relations entry.relation with
    | none =>
      have hskip : addSheet archive strings relations book entry = .ok book := by
        rw [addSheet, hpath]
      rw [hskip]
      exact ih
    | some path =>
      have hadd : addSheet archive strings relations book entry =
          addListed archive strings book (entry.name, path) := by
        simp only [addSheet, hpath, addListed, readListed]
        cases requiredEvents archive path <;> rfl
      rw [hadd, Option.map_some, List.foldlM_cons]
      exact congrArg _ (funext fun next => ih)

/-- When its fixed parts can be read, an archive is read sheet by sheet as they are listed. -/
lemma read_eq_foldlM {strings : Array Text} {list relations : List Event}
    (htypes : (archive.part? (Text.lit "[Content_Types].xml")).isSome)
    (hstrings : readStrings archive = .ok strings)
    (hlist : requiredEvents archive (Text.lit "xl/workbook.xml") = .ok list)
    (hsound : Event.fault ∉ list)
    (hrelations : requiredEvents archive (Text.lit "xl/_rels/workbook.xml.rels") = .ok relations)
    (hsound' : Event.fault ∉ relations) : Package.read archive =
      (listingOf ((startedTags relations).filterMap Relation.ofTag?)
        ((startedTags list).filterMap SheetEntry.ofTag?)).foldlM (addListed archive strings)
          Workbook.empty := by
  have hthere : ¬(archive.part? (Text.lit "[Content_Types].xml")).isNone = true :=
    mt Option.isNone_iff_eq_none.mp (Option.isSome_iff_ne_none.mp htypes)
  rw [Package.read, if_neg hthere, hstrings, hlist, hrelations]
  simp only [collect_eq_ok_iff.mpr ⟨hsound, rfl⟩, collect_eq_ok_iff.mpr ⟨hsound', rfl⟩, bind,
    Except.bind]
  exact foldlM_addSheet_eq _ _

/-- An archive is read if its fixed parts can be, and then sheet by sheet as they are listed. -/
lemma read_eq_ok_iff : Package.read archive = .ok book ↔ ∃ strings list relations,
    (archive.part? (Text.lit "[Content_Types].xml")).isSome ∧
    readStrings archive = .ok strings ∧
    requiredEvents archive (Text.lit "xl/workbook.xml") = .ok list ∧ Event.fault ∉ list ∧
    requiredEvents archive (Text.lit "xl/_rels/workbook.xml.rels") = .ok relations ∧
    Event.fault ∉ relations ∧
    (listingOf ((startedTags relations).filterMap Relation.ofTag?)
      ((startedTags list).filterMap SheetEntry.ofTag?)).foldlM (addListed archive strings)
        Workbook.empty = .ok book := by
  constructor
  · intro h
    unfold Package.read at h
    split at h
    · cases h
    · next htypes =>
      obtain ⟨strings, hstrings, h⟩ := exists_of_bind_eq_ok h
      obtain ⟨list, hlist, h⟩ := exists_of_bind_eq_ok h
      obtain ⟨entries, hentries, h⟩ := exists_of_bind_eq_ok h
      obtain ⟨relations, hrelations, h⟩ := exists_of_bind_eq_ok h
      obtain ⟨found, hfound, h⟩ := exists_of_bind_eq_ok h
      obtain ⟨hsound, rfl⟩ := collect_eq_ok_iff.mp hentries
      obtain ⟨hsound', rfl⟩ := collect_eq_ok_iff.mp hfound
      rw [foldlM_addSheet_eq] at h
      have hthere := Option.isSome_iff_ne_none.mpr (mt Option.isNone_iff_eq_none.mpr htypes)
      exact ⟨strings, list, relations, hthere, hstrings, hlist, hsound, hrelations, hsound', h⟩
  · rintro ⟨strings, list, relations, htypes, hstrings, hlist, hsound, hrelations, hsound', h⟩
    rw [read_eq_foldlM htypes hstrings hlist hsound hrelations hsound', h]

/-! ### The sheets that were read -/

lemma name_of_step {reader next : CellReader} {event : Event}
    (h : reader.step strings event = .ok next) : next.build.sheet.name = reader.build.sheet.name := by
  cases event with
  | opening tag =>
    cases h
    unfold CellReader.opened
    repeat' split
    all_goals rfl
  | single tag =>
    cases h
    unfold CellReader.passed
    repeat' split
    all_goals rfl
  | closing closed =>
    simp only [CellReader.step, CellReader.closed] at h
    split at h
    · split at h
      · obtain ⟨build, hstore, h⟩ := exists_of_bind_eq_ok h
        cases h
        exact name_of_store hstore
      · cases h
        rfl
    · cases h
      repeat' split
      all_goals rfl
  | text content =>
    simp only [CellReader.step, CellReader.met] at h
    repeat' split at h
    all_goals
      cases h
      try rfl
  | aside =>
    cases h
    rfl
  | fault => cases h

lemma name_of_foldlM_step {reader last : CellReader}
    (h : events.foldlM (CellReader.step strings) reader = .ok last) :
    last.build.sheet.name = reader.build.sheet.name := by
  induction events generalizing reader with
  | nil =>
    cases h
    rfl
  | cons event events ih =>
    rw [List.foldlM_cons] at h
    obtain ⟨next, hnext, h⟩ := exists_of_bind_eq_ok h
    exact (ih h).trans (name_of_step hnext)

lemma name_of_readCells {sheet : Sheet} (h : readCells strings name events = .ok sheet) :
    sheet.name = name := by
  obtain ⟨reader, hrun, h⟩ := exists_of_bind_eq_ok h
  cases h
  exact name_of_foldlM_step hrun

lemma addListed_eq_ok_iff {entry : Text × Text} : addListed archive strings book entry = .ok final ↔
    ∃ sheet, readListed archive strings entry = .ok sheet ∧
      (IsSheetName sheet.name ∧ sheet.name ∉ book.names) ∧ final = ⟨book.sheets ++ [sheet]⟩ := by
  constructor
  · intro h
    obtain ⟨sheet, hsheet, h⟩ := exists_of_bind_eq_ok h
    cases hadd : book.add sheet with
    | error error =>
      rw [hadd] at h
      cases h
    | ok added =>
      rw [hadd] at h
      cases h
      obtain ⟨next, index⟩ := added
      obtain ⟨hname, rfl, -⟩ := Workbook.add_eq_ok_iff.mp hadd
      exact ⟨sheet, hsheet, hname, rfl⟩
  · rintro ⟨sheet, hsheet, hname, rfl⟩
    have hadd := Workbook.add_eq_ok_iff.mpr ⟨hname, rfl, rfl⟩
    simp only [addListed, hsheet, hadd, bind, Except.bind]
    rfl

/-- Reading by a list makes a workbook whose sheets follow those that were there, one for each listed
entry, when their names are names that a workbook can have. -/
lemma foldlM_addListed_eq_ok_iff (hbook : book.WellNamed) :
    listing.foldlM (addListed archive strings) book = .ok final ↔ final.WellNamed ∧
      ∃ sheets, List.Forall₂ (readListed archive strings · = .ok ·) listing sheets ∧
        final = ⟨book.sheets ++ sheets⟩ := by
  induction listing generalizing book with
  | nil =>
    constructor
    · intro h
      cases h
      exact ⟨hbook, [], .nil, by rw [List.append_nil]⟩
    · rintro ⟨-, _, ⟨⟩, rfl⟩
      rw [List.append_nil]
      rfl
  | cons entry listing ih =>
    have happend (sheet : Sheet) (sheets : List Sheet) :
        book.sheets ++ sheet :: sheets = book.sheets ++ [sheet] ++ sheets :=
      List.append_cons ..
    constructor
    · intro h
      rw [List.foldlM_cons] at h
      obtain ⟨next, hnext, h⟩ := exists_of_bind_eq_ok h
      obtain ⟨sheet, hsheet, hname, rfl⟩ := addListed_eq_ok_iff.mp hnext
      obtain ⟨hfinal, sheets, hall, rfl⟩ := (ih (Workbook.wellNamed_concat.mpr ⟨hbook, hname⟩)).mp h
      exact ⟨hfinal, sheet :: sheets, .cons hsheet hall,
        congrArg Workbook.mk (happend sheet sheets).symm⟩
    · rintro ⟨hfinal, _, hsheets, rfl⟩
      obtain ⟨sheet, sheets, hsheet, hall, rfl⟩ := List.forall₂_cons_left_iff.mp hsheets
      rw [happend] at hfinal
      have hnext := hfinal.of_append
      have hname := (Workbook.wellNamed_concat.mp hnext).2
      rw [foldlM_cons_of_pure (addListed_eq_ok_iff.mpr ⟨sheet, hsheet, hname, rfl⟩), ih hnext, happend]
      exact ⟨hfinal, sheets, hall, rfl⟩

/-- The names of a workbook that was read are valid and distinct. -/
theorem wellNamed_of_read (h : Package.read archive = .ok book) : book.WellNamed := by
  obtain ⟨strings, list, relations, -, -, -, -, -, -, hrun⟩ := read_eq_ok_iff.mp h
  exact ((foldlM_addListed_eq_ok_iff Workbook.wellNamed_empty).mp hrun).1

lemma names_of_readListed {sheets : List Sheet}
    (h : List.Forall₂ (readListed archive strings · = .ok ·) listing sheets) :
    sheets.map (·.name) = listing.map Prod.fst := by
  induction h with
  | nil => rfl
  | cons hsheet _ ih =>
    obtain ⟨events, -, hsheet⟩ := exists_of_bind_eq_ok hsheet
    rw [List.map_cons, List.map_cons, ih, name_of_readCells hsheet]

end Reading

end SheetGloss.Package
