import SheetGloss.Proofs.CellSpans
import SheetGloss.Proofs.StoredCells

/-!
# Rich text, shared and in its cell

The same content can stand in the table of shared strings or in a cell itself. Two readers collect
its text: the one of the table leaves phonetic hints out, the one of the cells does not, so that the
two agree just on content whose hints do not change the text.
-/

namespace SheetGloss.Package

open Xml (Event Tag)

/-- The elements that only group what is in them. -/
def groupNames : List Text := [Text.lit "r", Text.lit "rPr", Text.lit "phoneticPr"]

/-- The elements of rich text. -/
def richNames : List Text := Text.lit "t" :: Text.lit "rPh" :: groupNames

/-- Rich text, as what comes first and what follows it. The index tells whether it stands in a
phonetic hint; there is no hint in a hint. -/
inductive RichText : Bool → Type where
  | nil {inHint : Bool} : RichText inHint
  | text {inHint : Bool} (content : Option Text) (rest : RichText inHint) : RichText inHint
  | line {inHint : Bool} (attributes : List (Text × Option Text)) (texts : List Text)
    (rest : RichText inHint) : RichText inHint
  | group {inHint : Bool} (tag : Tag) (isGroup : tag.name ∈ groupNames)
    (inner rest : RichText inHint) : RichText inHint
  | hint (attributes : List (Text × Option Text)) (inner : RichText true)
    (rest : RichText false) : RichText false
  | single {inHint : Bool} (tag : Tag) (isRich : tag.name ∈ richNames)
    (rest : RichText inHint) : RichText inHint

namespace RichText

variable {inHint : Bool}

def events {inHint : Bool} : RichText inHint → List Event
  | nil => []
  | text content rest => .text content :: rest.events
  | line attributes texts rest =>
    .opening ⟨Text.lit "t", attributes⟩ ::
      (texts.map (fun s => .text (some s)) ++ .closing (Text.lit "t") :: rest.events)
  | group tag _ inner rest =>
    .opening tag :: (inner.events ++ .closing tag.name :: rest.events)
  | hint attributes inner rest =>
    .opening ⟨Text.lit "rPh", attributes⟩ ::
      (inner.events ++ .closing (Text.lit "rPh") :: rest.events)
  | single tag _ rest => .single tag :: rest.events

/-- The texts in lines, with those of the hints or without them. -/
def lines {inHint : Bool} (hints : Bool) : RichText inHint → List Text
  | nil => []
  | text _ rest => rest.lines hints
  | line _ texts rest => texts ++ rest.lines hints
  | group _ _ inner rest => inner.lines hints ++ rest.lines hints
  | hint _ inner rest => (if hints then inner.lines hints else []) ++ rest.lines hints
  | single _ _ rest => rest.lines hints

/-- The text that is meant to be shown. -/
def shown (rich : RichText inHint) : Text := decodeEscapes (rich.lines false).flatten

/-- The text with that of its hints. -/
def whole (rich : RichText inHint) : Text := decodeEscapes (rich.lines true).flatten

end RichText

/-! ### In the table -/

/-- An item of the table, nothing when its tag is empty. -/
abbrev TableItem := Option (RichText false)

def TableItem.events : TableItem → List Event
  | none => [.single ⟨Text.lit "si", []⟩]
  | some rich =>
    .opening ⟨Text.lit "si", []⟩ :: (rich.events ++ [.closing (Text.lit "si")])

def TableItem.shown : TableItem → Text
  | none => []
  | some rich => rich.shown

def tableEvents (items : List TableItem) : List Event :=
  .opening ⟨Text.lit "sst", []⟩ :: (items.flatMap TableItem.events ++ [.closing (Text.lit "sst")])

lemma is_eq_false (name : String) {tag : Tag} {names : List Text} (h : tag.name ∈ names)
    (hname : Text.lit name ∉ names) : tag.is name = false :=
  Bool.eq_false_iff.mpr fun ht => hname (tag_is_iff.mp ht ▸ h)

section Table

def StringTable.inRich (strings : Array Text) (current : Text) (inHint : Bool) : StringTable :=
  ⟨strings, current, true, false, inHint⟩

variable {strings : Array Text}

lemma step_group {tag : Tag} (h : tag.name ∈ groupNames) (table : StringTable) :
    table.step (.opening tag) = .ok table ∧ table.step (.closing tag.name) = .ok table := by
  constructor
  · simp [StringTable.step, is_eq_false "si" h (by decide),
      is_eq_false "rPh" h (by decide), is_eq_false "t" h (by decide)]
  · have hne {other : Text} (ho : other ∉ groupNames) : tag.name ≠ other :=
      ne_of_mem_of_not_mem h ho
    rw [StringTable.step, if_neg (hne (by decide)), if_neg (hne (by decide)),
      if_neg (hne (by decide))]

lemma foldlM_texts (table : StringTable) (texts : List Text) :
    (texts.map fun s => Event.text (some s)).foldlM StringTable.step table =
      .ok (if table.inText then { table with current := table.current ++ texts.flatten }
        else table) := by
  induction texts generalizing table with
  | nil => simp [pure, Except.pure]
  | cons s texts ih =>
    cases ht : table.inText with
    | true =>
      have hstep : table.step (.text (some s)) =
          .ok { table with current := table.current ++ s } := by simp [StringTable.step, ht]
      rw [List.map_cons, foldlM_cons_of_pure hstep, ih]
      simp [ht]
    | false =>
      have hstep : table.step (.text (some s)) = .ok table := by simp [StringTable.step, ht]
      rw [List.map_cons, foldlM_cons_of_pure hstep, ih]
      simp [ht]

lemma foldlM_rich {inHint : Bool} (rich : RichText inHint) (strings : Array Text)
    (current : Text) :
    rich.events.foldlM StringTable.step (.inRich strings current inHint) =
      .ok (.inRich strings (if inHint then current else current ++ (rich.lines false).flatten)
        inHint) := by
  -- The mark for hints is the index of the content, so the cases for it are those of the tree.
  induction rich generalizing current with
  | nil => simp [RichText.events, RichText.lines, pure, Except.pure]
  | @text inHint content rest ih =>
    have hstep : (StringTable.inRich strings current inHint).step (.text content) =
        .ok (.inRich strings current inHint) := rfl
    rw [RichText.events, foldlM_cons_of_pure hstep, ih]
    rfl
  | @line inHint attributes texts rest ih =>
    have hopen : (StringTable.inRich strings current inHint).step
        (.opening ⟨Text.lit "t", attributes⟩) =
          .ok { StringTable.inRich strings current inHint with inText := !inHint } := by
      cases inHint <;> rfl
    rw [RichText.events, foldlM_cons_of_pure hopen, List.foldlM_append, foldlM_texts]
    have hclose (table : StringTable) : table.step (.closing (Text.lit "t")) =
        .ok { table with inText := false } := rfl
    refine (foldlM_cons_of_pure (hclose _)).trans ?_
    cases inHint with
    | true => exact ih current
    | false =>
      refine (ih (current ++ texts.flatten)).trans ?_
      simp [RichText.lines]
  | group tag h inner rest ihInner ihRest =>
    rw [RichText.events, foldlM_cons_of_pure (step_group h _).1,
      foldlM_append_of_pure (ihInner current), foldlM_cons_of_pure (step_group h _).2, ihRest]
    split <;> simp [RichText.lines]
  | hint attributes inner rest ihInner ihRest =>
    have hopen : (StringTable.inRich strings current false).step
        (.opening ⟨Text.lit "rPh", attributes⟩) = .ok (.inRich strings current true) := rfl
    have hclose : (StringTable.inRich strings current true).step
        (.closing (Text.lit "rPh")) = .ok (.inRich strings current false) := rfl
    rw [RichText.events, foldlM_cons_of_pure hopen, foldlM_append_of_pure (ihInner current),
      if_pos rfl, foldlM_cons_of_pure hclose, ihRest]
    rfl
  | single tag h rest ih =>
    have hstep (table : StringTable) : table.step (.single tag) = .ok table := by
      simp [StringTable.step, is_eq_false "si" h (by decide)]
    rw [RichText.events, foldlM_cons_of_pure (hstep _), ih]
    rfl

lemma foldlM_item (item : TableItem) (strings : Array Text) :
    item.events.foldlM StringTable.step ⟨strings, [], false, false, false⟩ =
      .ok ⟨strings.push item.shown, [], false, false, false⟩ := by
  cases item with
  | none => rfl
  | some rich =>
    have hopen : (⟨strings, [], false, false, false⟩ : StringTable).step
        (.opening ⟨Text.lit "si", []⟩) = .ok (.inRich strings [] false) := rfl
    rw [TableItem.events, foldlM_cons_of_pure hopen, foldlM_append_of_pure (foldlM_rich rich _ _)]
    rfl

lemma foldlM_items (items : List TableItem) (strings : Array Text) :
    (items.flatMap TableItem.events).foldlM StringTable.step ⟨strings, [], false, false, false⟩ =
      .ok ⟨strings ++ (items.map TableItem.shown).toArray, [], false, false, false⟩ := by
  induction items generalizing strings with
  | nil => simp [pure, Except.pure]
  | cons item items ih =>
    rw [List.flatMap_cons, foldlM_append_of_pure (foldlM_item item strings), ih]
    simp

/-- The strings of a table are the texts of its items, without their hints. -/
theorem sharedStrings_tableEvents (items : List TableItem) :
    sharedStrings (tableEvents items) = .ok (items.map TableItem.shown).toArray := by
  have hopen : StringTable.start.step (.opening ⟨Text.lit "sst", []⟩) =
      .ok ⟨#[], [], false, false, false⟩ := rfl
  have hrun : (tableEvents items).foldlM StringTable.step StringTable.start =
      .ok ⟨(items.map TableItem.shown).toArray, [], false, false, false⟩ := by
    rw [tableEvents, foldlM_cons_of_pure hopen, foldlM_append_of_pure (foldlM_items items #[]),
      Array.empty_append]
    rfl
  rw [sharedStrings, hrun]
  rfl

end Table

/-! ### In a cell -/

section Cell

lemma readTexts_opening (place : Place) (tag : Tag) (rest : List Event) :
    readTexts place (.opening tag :: rest) = readTexts (place.after (.opening tag)) rest := rfl

lemma readTexts_closing (place : Place) (name : Text) (rest : List Event) :
    readTexts place (.closing name :: rest) = readTexts (place.after (.closing name)) rest := rfl

lemma readTexts_append (place : Place) (events rest : List Event) :
    readTexts place (events ++ rest) =
      readTexts place events ++ readTexts (events.foldl Place.after place) rest := by
  induction events generalizing place with
  | nil => rfl
  | cons event events ih =>
    cases event with
    | text content => rw [List.cons_append, readTexts, readTexts, ih, List.append_assoc]; rfl
    | _ => exact ih _

def Place.inRich : Place := ⟨false, false, true, false⟩

lemma after_group {tag : Tag} (h : tag.name ∈ groupNames) (place : Place) :
    place.after (.opening tag) = place ∧ place.after (.closing tag.name) = place := by
  have hne {other : Text} (ho : other ∉ groupNames) : (tag.name != other) = true :=
    bne_iff_ne.mpr (ne_of_mem_of_not_mem h ho)
  constructor
  · simp [Place.after, is_eq_false "v" h (by decide),
      is_eq_false "f" h (by decide), is_eq_false "is" h (by decide),
      is_eq_false "t" h (by decide)]
  · rw [Place.after, hne (by decide), hne (by decide), hne (by decide), hne (by decide)]
    simp

lemma readTexts_line (texts : List Text) :
    readTexts ⟨false, false, true, true⟩ (texts.map fun s => Event.text (some s)) =
      texts.map (fun s => (.inline, some s)) := by
  induction texts with
  | nil => rfl
  | cons s texts ih =>
    rw [List.map_cons, readTexts, ih]
    rfl

lemma foldl_after_line (place : Place) (texts : List Text) :
    (texts.map fun s => Event.text (some s)).foldl Place.after place = place := by
  induction texts with
  | nil => rfl
  | cons s texts ih => exact ih

lemma foldl_after_rich {inHint : Bool} (rich : RichText inHint) :
    rich.events.foldl Place.after .inRich = .inRich := by
  induction rich with
  | nil => rfl
  | text content rest ih => exact ih
  | line attributes texts rest ih =>
    have hopen : Place.inRich.after (.opening ⟨Text.lit "t", attributes⟩) =
        ⟨false, false, true, true⟩ := rfl
    rw [RichText.events, List.foldl_cons, hopen, List.foldl_append, foldl_after_line]
    exact ih
  | group tag h inner rest ihInner ihRest =>
    rw [RichText.events, List.foldl_cons, (after_group h _).1, List.foldl_append, ihInner,
      List.foldl_cons, (after_group h _).2, ihRest]
  | hint attributes inner rest ihInner ihRest =>
    have hopen : Place.inRich.after (.opening ⟨Text.lit "rPh", attributes⟩) = .inRich := rfl
    rw [RichText.events, List.foldl_cons, hopen, List.foldl_append, ihInner]
    exact ihRest
  | single tag h rest ih => exact ih

lemma readTexts_rich {inHint : Bool} (rich : RichText inHint) :
    readTexts .inRich rich.events = (rich.lines true).map (fun s => (.inline, some s)) := by
  induction rich with
  | nil => rfl
  | text content rest ih => exact ih
  | line attributes texts rest ih =>
    have hopen : Place.inRich.after (.opening ⟨Text.lit "t", attributes⟩) =
        ⟨false, false, true, true⟩ := rfl
    rw [RichText.events, readTexts_opening, hopen, readTexts_append, foldl_after_line,
      readTexts_line, RichText.lines, List.map_append, ← ih]
    rfl
  | group tag h inner rest ihInner ihRest =>
    rw [RichText.events, readTexts_opening, (after_group h _).1, readTexts_append,
      foldl_after_rich, readTexts_closing, (after_group h _).2, ihInner, ihRest, RichText.lines,
      List.map_append]
  | hint attributes inner rest ihInner ihRest =>
    have hopen : Place.inRich.after (.opening ⟨Text.lit "rPh", attributes⟩) = .inRich := rfl
    have hclose : Place.inRich.after (.closing (Text.lit "rPh")) = .inRich := rfl
    rw [RichText.events, readTexts_opening, hopen, readTexts_append, foldl_after_rich,
      readTexts_closing, hclose, ihInner, ihRest, RichText.lines, if_pos rfl, List.map_append]
  | single tag h rest ih => exact ih

def inlineSpan (reference : Text) (rich : RichText false) : CellSpan where
  tag := ⟨Text.lit "c", [(Text.lit "r", some reference),
    (Text.lit "t", some (Text.lit "inlineStr"))]⟩
  body := .opening ⟨Text.lit "is", []⟩ :: (rich.events ++ [.closing (Text.lit "is")])

def sharedSpan (reference : Text) (index : Nat) : CellSpan where
  tag := ⟨Text.lit "c", [(Text.lit "r", some reference), (Text.lit "t", some (Text.lit "s"))]⟩
  body := [.opening ⟨Text.lit "v", []⟩, .text (some (Text.ofNat index)), .closing (Text.lit "v")]

def CellSpan.events (span : CellSpan) : List Event :=
  .opening span.tag :: (span.body ++ [.closing (Text.lit "c")])

variable {strings : Array Text} {reference : Text} {a : Address}

lemma isInner_rich {inHint : Bool} (rich : RichText inHint) :
    ∀ event ∈ rich.events, IsInner event := by
  have ht : Text.lit "t" ≠ Text.lit "c" := by decide
  have hrPh : Text.lit "rPh" ≠ Text.lit "c" := by decide
  induction rich with
  | nil => nofun
  | text content rest ih => exact List.forall_mem_cons.mpr ⟨trivial, ih⟩
  | line attributes texts rest ih =>
    refine List.forall_mem_cons.mpr ⟨rfl, List.forall_mem_append.mpr ⟨?_, ?_⟩⟩
    · intro event he
      obtain ⟨s, -, rfl⟩ := List.mem_map.mp he
      trivial
    · exact List.forall_mem_cons.mpr ⟨ht, ih⟩
  | group tag h inner rest ihInner ihRest =>
    have hopen : tag.is "c" = false := is_eq_false "c" h (by decide)
    have hclose : tag.name ≠ Text.lit "c" := ne_of_mem_of_not_mem h (by decide)
    exact List.forall_mem_cons.mpr ⟨hopen, List.forall_mem_append.mpr
      ⟨ihInner, List.forall_mem_cons.mpr ⟨hclose, ihRest⟩⟩⟩
  | hint attributes inner rest ihInner ihRest =>
    exact List.forall_mem_cons.mpr ⟨rfl, List.forall_mem_append.mpr
      ⟨ihInner, List.forall_mem_cons.mpr ⟨hrPh, ihRest⟩⟩⟩
  | single tag h rest ih =>
    exact List.forall_mem_cons.mpr ⟨is_eq_false "c" h (by decide), ih⟩

lemma joined_field {p : Field → Bool} {field : Field} (hp : p field = true) (texts : List Text) :
    joined p (texts.map fun s => (field, some s)) =
      if texts = [] then none else some texts.flatten := by
  induction texts with
  | nil => rfl
  | cons s texts ih =>
    rw [List.map_cons, joined_cons, if_pos hp, ih]
    cases texts <;> simp

lemma texts_inlineSpan (reference : Text) (rich : RichText false) :
    (inlineSpan reference rich).texts = (rich.lines true).map (fun s => (.inline, some s)) := by
  have hopen : Place.outside.after (.opening ⟨Text.lit "is", []⟩) = .inRich := rfl
  rw [CellSpan.texts, inlineSpan, readTexts_opening, hopen, readTexts_append, readTexts_rich,
    foldl_after_rich]
  exact List.append_nil _

/-- The text of a cell that holds rich text, when it is not empty, is the whole text. -/
lemma text_inlineSpan (strings : Array Text) (reference : Text) (rich : RichText false) :
    (inlineSpan reference rich).read = .ok (inlineSpan reference rich).cell ∧
      ∃ text, (inlineSpan reference rich).cell.text strings = .ok text ∧
        text.filter (!·.isEmpty) = (some rich.whole).filter (!·.isEmpty) := by
  have htexts := texts_inlineSpan reference rich
  constructor
  · rw [CellSpan.read, htexts, if_pos (by simp)]
  · have htype : (inlineSpan reference rich).cell.type = some (Text.lit "inlineStr") := by
      simp only [CellSpan.cell, htexts]
      split
      · rfl
      · rfl
    have hvalue : (inlineSpan reference rich).cell.value =
        if rich.lines true = [] then none else some (rich.lines true).flatten := by
      simp only [CellSpan.cell, htexts]
      exact joined_field rfl _
    rw [PendingCell.text, htype, hvalue]
    by_cases hlines : rich.lines true = []
    · rw [if_pos hlines, RichText.whole, hlines]
      have hnil : decodeEscapes [] = [] := by rw [decodeEscapes]
      exact ⟨none, rfl, by rw [List.flatten_nil, hnil]; rfl⟩
    · rw [if_neg hlines]
      exact ⟨some rich.whole, rfl, rfl⟩

lemma text_sharedSpan {strings : Array Text} {index : Nat} {text : Text}
    (hindex : index < UInt64.size) (htext : strings[index]? = some text) (reference : Text) :
    (sharedSpan reference index).read = .ok (sharedSpan reference index).cell ∧
      (sharedSpan reference index).cell.text strings = .ok (some text) := by
  have hcell : (sharedSpan reference index).cell =
      ⟨some reference, some (Text.lit "s"), some (Text.ofNat index), none, none⟩ := by
    have hgroup : (sharedSpan reference index).group? = none := rfl
    have htexts : (sharedSpan reference index).texts = [(.value, some (Text.ofNat index))] := rfl
    rw [CellSpan.cell, hgroup, htexts]
    simp [sharedSpan, joined, Tag.attribute?, Text.lit]
  refine ⟨rfl, ?_⟩
  rw [hcell, PendingCell.text]
  simp [valueText, Text.index?_ofNat hindex, htext, Except.map]

lemma foldlM_sharedSpan (strings : Array Text) (build : Build) (reference : Text) (index : Nat) :
    (sharedSpan reference index).events.foldlM (CellReader.step strings) (.inside build none) =
      (build.storeSpan strings (sharedSpan reference index)).map (.inside · none) := by
  have hinner : ∀ event ∈ (sharedSpan reference index).body, IsInner event := by
    simp [sharedSpan, IsInner, Tag.is, Text.lit]
  rw [CellSpan.events, foldlM_cell strings build rfl hinner rfl]
  rfl

lemma foldlM_inlineSpan (strings : Array Text) (build : Build) (reference : Text)
    (rich : RichText false) :
    (inlineSpan reference rich).events.foldlM (CellReader.step strings) (.inside build none) =
      (build.storeSpan strings (inlineSpan reference rich)).map (.inside · none) := by
  have his : Text.lit "is" ≠ Text.lit "c" := by decide
  have hinner : ∀ event ∈ (inlineSpan reference rich).body, IsInner event :=
    List.forall_mem_cons.mpr ⟨rfl, List.forall_mem_append.mpr
      ⟨isInner_rich rich, List.forall_mem_singleton.mpr his⟩⟩
  have hplace : (inlineSpan reference rich).body.foldl Place.after .outside = .outside := by
    have hopen : Place.outside.after (.opening ⟨Text.lit "is", []⟩) = .inRich := rfl
    rw [inlineSpan, List.foldl_cons, hopen, List.foldl_append, foldl_after_rich]
    rfl
  rw [CellSpan.events, foldlM_cell strings build rfl hinner hplace]
  rfl

/-- A fresh cell has the text that was read for it, unless that is empty. -/
lemma storeSpan_fresh {strings : Array Text} {build : Build} {span : CellSpan} {a : Address}
    {text : Option Text} (hread : span.read = .ok span.cell) (ha : span.cell.address? = some a)
    (htext : span.cell.text strings = .ok text)
    (hfresh : build.sheet.valueAt a.row a.column = none) :
    ∃ next, build.storeSpan strings span = .ok next ∧
      next.sheet.valueAt a.row a.column = text.filter (!·.isEmpty) := by
  refine ⟨build.stored a span.cell text, ?_, getElem?_change_shown hfresh text⟩
  rw [Build.storeSpan, hread]
  exact (store_of_address? ha).trans (by rw [htext]; rfl)

end Cell

section Fresh

variable {items : List TableItem} {index : Nat} {rich : RichText false} {reference : Text}
  {a : Address} {build : Build}

lemma valueAt_shared_and_inline (hitem : items[index]? = some (some rich))
    (hindex : index < UInt64.size) (ha : Address.parse reference = .ok a)
    (hfresh : build.sheet.valueAt a.row a.column = none) :
    ∃ strings shared inline, sharedStrings (tableEvents items) = .ok strings ∧
      (sharedSpan reference index).events.foldlM (CellReader.step strings) (.inside build none) =
        .ok (.inside shared none) ∧
      (inlineSpan reference rich).events.foldlM (CellReader.step strings) (.inside build none) =
        .ok (.inside inline none) ∧
      shared.sheet.valueAt a.row a.column = (some rich.shown).filter (!·.isEmpty) ∧
      inline.sheet.valueAt a.row a.column = (some rich.whole).filter (!·.isEmpty) := by
  let strings := (items.map TableItem.shown).toArray
  have hstring : strings[index]? = some rich.shown := by
    simp [strings, hitem, TableItem.shown]
  have haddress (span : CellSpan) (h : span.cell.reference = some reference) :
      span.cell.address? = some a := by
    rw [PendingCell.address?, h, Option.bind_some, ha]
    rfl
  obtain ⟨hread, htext⟩ := text_sharedSpan hindex hstring reference
  obtain ⟨shared, hshared, hvalue⟩ := storeSpan_fresh hread (haddress _ rfl) htext hfresh
  obtain ⟨hread', text, htext', hfilter⟩ := text_inlineSpan strings reference rich
  obtain ⟨inline, hinline, hvalue'⟩ := storeSpan_fresh hread' (haddress _ rfl) htext' hfresh
  refine ⟨strings, shared, inline, sharedStrings_tableEvents items, ?_, ?_, hvalue,
    hvalue'.trans hfilter⟩
  · rw [foldlM_sharedSpan, hshared]
    rfl
  · rw [foldlM_inlineSpan, hinline]
    rfl

lemma filter_nonempty_inj {s t : Text} :
    (some s).filter (!·.isEmpty) = (some t).filter (!·.isEmpty) ↔ s = t := by
  constructor
  · intro h
    cases s <;> cases t <;> simp_all [Option.filter]
  · exact congrArg fun s : Text => (some s).filter (!·.isEmpty)

/-- Two fresh cells, one with rich text and one that names the shared string with the same content,
show the same if and only if the hints in it do not change the text. -/
theorem valueAt_shared_eq_inline_iff (hitem : items[index]? = some (some rich))
    (hindex : index < UInt64.size) (ha : Address.parse reference = .ok a)
    (hfresh : build.sheet.valueAt a.row a.column = none) :
    ∃ strings shared inline, sharedStrings (tableEvents items) = .ok strings ∧
      (sharedSpan reference index).events.foldlM (CellReader.step strings) (.inside build none) =
        .ok (.inside shared none) ∧
      (inlineSpan reference rich).events.foldlM (CellReader.step strings) (.inside build none) =
        .ok (.inside inline none) ∧
      (shared.sheet.valueAt a.row a.column = inline.sheet.valueAt a.row a.column ↔
        rich.shown = rich.whole) := by
  obtain ⟨strings, shared, inline, htable, hshared, hinline, hvalue, hvalue'⟩ :=
    valueAt_shared_and_inline hitem hindex ha hfresh
  refine ⟨strings, shared, inline, htable, hshared, hinline, ?_⟩
  rw [hvalue, hvalue', filter_nonempty_inj]

end Fresh

/-- A run with its properties, and a hint without text. -/
theorem valueAt_shared_eq_inline_run :
    let rich : RichText false :=
      .group ⟨Text.lit "r", []⟩ (by decide)
        (.group ⟨Text.lit "rPr", []⟩ (by decide) .nil (.line [] [Text.lit "Price"] .nil))
        (.hint [] (.text (some (Text.lit "praɪs")) .nil) .nil)
    ∃ strings shared inline, sharedStrings (tableEvents [none, some rich]) = .ok strings ∧
      (sharedSpan (Text.lit "B2") 1).events.foldlM (CellReader.step strings)
        (.inside ⟨Sheet.empty (Text.lit "Data"), ∅⟩ none) = .ok (.inside shared none) ∧
      (inlineSpan (Text.lit "B2") rich).events.foldlM (CellReader.step strings)
        (.inside ⟨Sheet.empty (Text.lit "Data"), ∅⟩ none) = .ok (.inside inline none) ∧
      shared.sheet.valueAt 1 1 = inline.sheet.valueAt 1 1 := by
  intro rich
  have ha : Address.parse (Text.lit "B2") = .ok ⟨1, 1, false, false⟩ := by decide +kernel
  let items : List TableItem := [none, some rich]
  let build : Build := ⟨Sheet.empty (Text.lit "Data"), ∅⟩
  have hitem : items[1]? = some (some rich) := rfl
  have hfresh : build.sheet.valueAt 1 1 = none := rfl
  obtain ⟨strings, shared, inline, htable, hshared, hinline, hiff⟩ :=
    valueAt_shared_eq_inline_iff hitem (by decide) ha hfresh
  exact ⟨strings, shared, inline, htable, hshared, hinline, hiff.mpr rfl⟩

/-- A hint with text is shown with the cell that holds it, and left out of the shared string. -/
theorem valueAt_shared_ne_inline_hint :
    let rich : RichText false :=
      .line [] [Text.lit "ph"] (.hint [] (.line [] [Text.lit "on"] .nil) .nil)
    ∃ strings shared inline, sharedStrings (tableEvents [some rich]) = .ok strings ∧
      (sharedSpan (Text.lit "A1") 0).events.foldlM (CellReader.step strings)
        (.inside ⟨Sheet.empty (Text.lit "Data"), ∅⟩ none) = .ok (.inside shared none) ∧
      (inlineSpan (Text.lit "A1") rich).events.foldlM (CellReader.step strings)
        (.inside ⟨Sheet.empty (Text.lit "Data"), ∅⟩ none) = .ok (.inside inline none) ∧
      shared.sheet.valueAt 0 0 = some (Text.lit "ph") ∧
      inline.sheet.valueAt 0 0 = some (Text.lit "phon") := by
  intro rich
  have ha : Address.parse (Text.lit "A1") = .ok ⟨0, 0, false, false⟩ := by decide +kernel
  let items : List TableItem := [some rich]
  let build : Build := ⟨Sheet.empty (Text.lit "Data"), ∅⟩
  have hitem : items[0]? = some (some rich) := rfl
  have hfresh : build.sheet.valueAt 0 0 = none := rfl
  obtain ⟨strings, shared, inline, htable, hshared, hinline, hvalue, hvalue'⟩ :=
    valueAt_shared_and_inline hitem (by decide) ha hfresh
  have hshown : rich.shown = Text.lit "ph" := by
    simp [rich, RichText.shown, RichText.lines, decodeEscapes, Text.lit]
  have hwhole : rich.whole = Text.lit "phon" := by
    simp [rich, RichText.whole, RichText.lines, decodeEscapes, Text.lit]
  refine ⟨strings, shared, inline, htable, hshared, hinline, ?_, ?_⟩
  · rw [hvalue, hshown]
    rfl
  · rw [hvalue', hwhole]
    rfl

end SheetGloss.Package
