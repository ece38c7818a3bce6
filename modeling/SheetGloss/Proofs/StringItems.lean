import SheetGloss.Proofs.RichText

/-!
# The items of the table of shared strings

The reader of the table keeps one text and three marks from one event to the next. Each string is
nevertheless that of its own item: an item leaves no text and no mark behind, whatever it holds and
whatever stands between two items, and it adds exactly one string.
-/

namespace SheetGloss.Package

open Xml (Event Markup)

/-- Whether text is shown inside the elements with some names, innermost first: directly in a line,
and in no phonetic hint. -/
def IsShown (names : List Text) : Prop :=
  names.head? = some (Text.lit "t") ∧ Text.lit "rPh" ∉ names

instance : DecidablePred IsShown := fun _ => inferInstanceAs (Decidable (_ ∧ _))

/-- The texts that are shown, in order, of events inside the elements with some names. -/
def shownTexts (names : List Text) : List Event → List Text
  | [] => []
  | .opening tag :: rest => shownTexts (tag.name :: names) rest
  | .closing _ :: rest => shownTexts names.tail rest
  | .text content :: rest =>
    (if IsShown names then content.toList else []) ++ shownTexts names rest
  | _ :: rest => shownTexts names rest

/-- An item of the table with its attributes; it has no content when its tag is empty. -/
structure StringItem where
  attributes : List (Text × Option Text)
  content : Option (RichText false)

def StringItem.events (item : StringItem) : List Event :=
  match item.content with
  | none => [.single ⟨Text.lit "si", item.attributes⟩]
  | some rich =>
    .opening ⟨Text.lit "si", item.attributes⟩ :: (rich.events ++ [.closing (Text.lit "si")])

/-- What may stand between two items: anything that neither is an item nor begins a hint. -/
def IsBetween : Event → Prop
  | .opening tag => tag.name ≠ Text.lit "si" ∧ tag.name ≠ Text.lit "rPh"
  | .single tag => tag.name ≠ Text.lit "si"
  | .closing name => name ≠ Text.lit "si"
  | .text _ | .aside => True
  | .fault => False

/-- A part that is a sequence of items. -/
structure StringPart where
  /-- Each item, with what stands before it. -/
  entries : List (List Event × StringItem)
  tail : List Event
  between : ∀ entry ∈ entries, ∀ event ∈ entry.1, IsBetween event
  between_tail : ∀ event ∈ tail, IsBetween event

def StringPart.items (part : StringPart) : List StringItem := part.entries.map Prod.snd

def StringPart.events (part : StringPart) : List Event :=
  part.entries.flatMap (fun entry => entry.1 ++ entry.2.events) ++ part.tail

/-! ### Shown texts -/

lemma shownTexts_texts (names texts : List Text) (rest : List Event) :
    shownTexts names (texts.map (fun s => .text (some s)) ++ rest) =
      (if IsShown names then texts else []) ++ shownTexts names rest := by
  induction texts with
  | nil => simp
  | cons s texts ih =>
    rw [List.map_cons, List.cons_append, shownTexts, ih]
    split <;> rfl

/-- The lines of rich text are what is shown of it, unless it stands in a line itself. -/
lemma shownTexts_rich {names : List Text} {inHint : Bool} (rich : RichText inHint)
    (rest : List Event) (hline : names.head? ≠ some (Text.lit "t"))
    (hhint : Text.lit "rPh" ∈ names ↔ inHint = true) :
    shownTexts names (rich.events ++ rest) =
      (if inHint then [] else rich.lines false) ++ shownTexts names rest := by
  induction rich generalizing names rest with
  | nil => split <;> rfl
  | text content tail ih =>
    have hnot : ¬IsShown names := fun h => hline h.1
    rw [RichText.events, List.cons_append, shownTexts, if_neg hnot, ih rest hline hhint]
    rfl
  | @line inHint attributes texts tail ih =>
    have hshown : IsShown (Text.lit "t" :: names) ↔ ¬inHint = true := by
      rw [← hhint, IsShown, List.mem_cons, or_iff_right (by decide)]
      exact and_iff_right rfl
    rw [RichText.events, List.cons_append, List.append_assoc, shownTexts, shownTexts_texts,
      List.cons_append, shownTexts, List.tail_cons, ih rest hline hhint]
    cases inHint with
    | true =>
      rw [if_neg (by simp [hshown])]
      rfl
    | false =>
      rw [if_pos (by simp [hshown]), if_neg (by decide), if_neg (by decide), RichText.lines,
        List.append_assoc]
  | @group inHint tag h inner tail ihInner ihTail =>
    have hne (name : Text) (hname : name ∉ groupNames) : tag.name ≠ name :=
      ne_of_mem_of_not_mem h hname
    have hline' : (tag.name :: names).head? ≠ some (Text.lit "t") := by
      simpa using hne (Text.lit "t") (by decide)
    have hhint' : Text.lit "rPh" ∈ tag.name :: names ↔ inHint = true := by
      rw [← hhint, List.mem_cons, or_iff_right (hne (Text.lit "rPh") (by decide)).symm]
    rw [RichText.events, List.cons_append, List.append_assoc, shownTexts, ihInner _ hline' hhint',
      List.cons_append, shownTexts, List.tail_cons, ihTail rest hline hhint]
    split
    · rfl
    · rw [RichText.lines, List.append_assoc]
  | hint attributes inner tail ihInner ihTail =>
    have hline' : (Text.lit "rPh" :: names).head? ≠ some (Text.lit "t") := by simp [Text.lit]
    rw [RichText.events, List.cons_append, List.append_assoc, shownTexts,
      ihInner _ hline' (by simp), if_pos rfl, List.nil_append, List.cons_append, shownTexts,
      List.tail_cons, ihTail rest hline hhint]
    rfl
  | single tag h tail ih => exact ih rest hline hhint

/-! ### Reading items -/

def StringItem.text (item : StringItem) : Text :=
  decodeEscapes (shownTexts [] item.events).flatten

/-- The table between two items. -/
def StringTable.between (strings : Array Text) : StringTable := ⟨strings, [], false, false, false⟩

lemma StringItem.text_of_single {item : StringItem} (h : item.content = none) :
    item.text = [] := by
  rw [StringItem.text, StringItem.events, h]
  exact decodeEscapes.eq_1

lemma StringItem.text_of_rich {item : StringItem} {rich : RichText false}
    (h : item.content = some rich) : item.text = rich.shown := by
  have hline : [Text.lit "si"].head? ≠ some (Text.lit "t") := by decide
  have hhint : Text.lit "rPh" ∈ [Text.lit "si"] ↔ false = true := by decide
  rw [StringItem.text, StringItem.events, h]
  change decodeEscapes (shownTexts [Text.lit "si"] (rich.events ++ _)).flatten = rich.shown
  rw [shownTexts_rich rich _ hline hhint, if_neg (by decide), RichText.shown]
  exact congrArg (fun texts => decodeEscapes (List.flatten texts)) (List.append_nil _)

lemma step_between {event : Event} (h : IsBetween event) (strings : Array Text) :
    (StringTable.between strings).step event = .ok (.between strings) := by
  cases event with
  | opening tag =>
    have hitem : tag.is "si" = false := Bool.eq_false_iff.mpr fun ht => h.1 (tag_is_iff.mp ht)
    have hhint : tag.is "rPh" = false := Bool.eq_false_iff.mpr fun ht => h.2 (tag_is_iff.mp ht)
    simp [StringTable.step, StringTable.between, hitem, hhint]
  | single tag =>
    have hitem : tag.is "si" = false := Bool.eq_false_iff.mpr fun ht => h (tag_is_iff.mp ht)
    simp [StringTable.step, hitem]
  | closing name =>
    rw [StringTable.step, if_neg h]
    split
    · rfl
    · split <;> rfl
  | text content => rfl
  | aside => rfl
  | fault => exact h.elim

lemma foldlM_idle {events : List Event} (h : ∀ event ∈ events, IsBetween event)
    (strings : Array Text) :
    events.foldlM StringTable.step (.between strings) = .ok (.between strings) := by
  induction events with
  | nil => rfl
  | cons event events ih =>
    obtain ⟨hevent, hevents⟩ := List.forall_mem_cons.mp h
    rw [foldlM_cons_of_pure (step_between hevent strings), ih hevents]

/-- An item adds its own text, and leaves the table as it was before. -/
lemma foldlM_stringItem (item : StringItem) (strings : Array Text) :
    item.events.foldlM StringTable.step (.between strings) =
      .ok (.between (strings.push item.text)) := by
  rw [StringItem.events]
  cases h : item.content with
  | none =>
    rw [StringItem.text_of_single h]
    rfl
  | some rich =>
    have hopen : (StringTable.between strings).step
        (.opening ⟨Text.lit "si", item.attributes⟩) = .ok (.inRich strings [] false) := rfl
    dsimp only
    rw [StringItem.text_of_rich h, foldlM_cons_of_pure hopen,
      foldlM_append_of_pure (foldlM_rich rich _ _)]
    rfl

lemma foldlM_entries {entries : List (List Event × StringItem)}
    (h : ∀ entry ∈ entries, ∀ event ∈ entry.1, IsBetween event) (strings : Array Text) :
    (entries.flatMap fun entry => entry.1 ++ entry.2.events).foldlM StringTable.step
      (.between strings) =
        .ok (.between (strings ++ (entries.map fun entry => entry.2.text).toArray)) := by
  induction entries generalizing strings with
  | nil => simp [pure, Except.pure]
  | cons entry entries ih =>
    obtain ⟨hentry, hentries⟩ := List.forall_mem_cons.mp h
    rw [List.flatMap_cons, List.append_assoc, foldlM_append_of_pure (foldlM_idle hentry strings),
      foldlM_append_of_pure (foldlM_stringItem entry.2 strings), ih hentries]
    simp

/-- A part that is a sequence of items gives as many strings as it has items, and each string is the
text of its item: the lines outside the hints one after another, with their escapes decoded. -/
theorem readStrings_follows_items {archive : Archive} {part : Part} {table : StringPart}
    (hpart : archive.part? (Text.lit "xl/sharedStrings.xml") = some part)
    (hevents : part.events = table.events) :
    ∃ strings, readStrings archive = .ok strings ∧ strings.size = table.items.length ∧
      ∀ (i : Nat) (item : StringItem), table.items[i]? = some item →
        strings[i]? = some (decodeEscapes (shownTexts [] item.events).flatten) := by
  have hrun : table.events.foldlM StringTable.step .start =
      .ok (.between (table.items.map StringItem.text).toArray) := by
    have hentries := foldlM_entries table.between #[]
    rw [StringPart.events, show StringTable.start = .between #[] from rfl,
      foldlM_append_of_pure hentries, foldlM_idle table.between_tail, Array.empty_append,
      StringPart.items, List.map_map]
    rfl
  refine ⟨(table.items.map StringItem.text).toArray, ?_, by simp, ?_⟩
  · rw [readStrings, hpart]
    dsimp only
    rw [hevents, sharedStrings, hrun]
    rfl
  · intro i item hitem
    simp [hitem, StringItem.text]

/-- Four items of a written part: one without content, a run of two lines that share an escape, an
empty line beside a hint, and a line behind a hint. -/
theorem readStrings_follows_items_mixed :
    let si := Text.lit "si"
    let t := Text.lit "t"
    let document : List Markup :=
      [.declaration, .opening (Text.lit "sst") [(Text.lit "count", Text.lit "4")], .single si [],
        .opening si [], .opening (Text.lit "r") [], .opening (Text.lit "rPr") [],
        .closing (Text.lit "rPr"), .leaf t (Text.lit "To_x00"), .leaf t (Text.lit "0a_tal"),
        .closing (Text.lit "r"), .closing si,
        .opening si [], .single t [], .opening (Text.lit "rPh") [(Text.lit "sb", Text.lit "0")],
        .leaf t (Text.lit "hint"), .closing (Text.lit "rPh"), .closing si,
        .opening si [], .opening (Text.lit "rPh") [], .closing (Text.lit "rPh"),
        .single (Text.lit "phoneticPr") [], .leaf t (Text.lit "Price"), .closing si,
        .closing (Text.lit "sst")]
    ∃ strings, readStrings [writtenPart (Text.lit "xl/sharedStrings.xml") document] = .ok strings ∧
      strings.size = 4 ∧ strings[0]? = some [] ∧ strings[1]? = some (Text.lit "To\ntal") ∧
      strings[2]? = some [] ∧ strings[3]? = some (Text.lit "Price") := by
  intro si t document
  let part : Part := ⟨chunks (Utf8.encode (Xml.documentText document)), true⟩
  let run : RichText false :=
    .group ⟨Text.lit "r", []⟩ (by decide)
      (.group ⟨Text.lit "rPr", []⟩ (by decide) .nil
        (.line [] [Text.lit "To_x00"] (.line [] [Text.lit "0a_tal"] .nil))) .nil
  let hinted : RichText false :=
    .single ⟨t, []⟩ (by decide)
      (.hint [(Text.lit "sb", some (Text.lit "0"))] (.line [] [Text.lit "hint"] .nil) .nil)
  let behind : RichText false :=
    .hint [] .nil (.single ⟨Text.lit "phoneticPr", []⟩ (by decide)
      (.line [] [Text.lit "Price"] .nil))
  let table : StringPart :=
    { entries := [([.aside, .opening ⟨Text.lit "sst", [(Text.lit "count", some (Text.lit "4"))]⟩],
          ⟨[], none⟩), ([], ⟨[], some run⟩), ([], ⟨[], some hinted⟩), ([], ⟨[], some behind⟩)]
      tail := [.closing (Text.lit "sst")]
      between := by simp [IsBetween, Text.lit]
      between_tail := by simp [IsBetween, Text.lit] }
  have hevents : part.events = table.events := by
    refine (events_written ?_ rfl ?_).trans ?_
    · decide +kernel
    · decide +kernel
    · rfl
  have hpart : Archive.part? [writtenPart (Text.lit "xl/sharedStrings.xml") document]
      (Text.lit "xl/sharedStrings.xml") = some part := rfl
  obtain ⟨strings, hread, hsize, hstrings⟩ := readStrings_follows_items hpart hevents
  refine ⟨strings, hread, hsize, ?_, ?_, ?_, ?_⟩
  · exact (hstrings 0 ⟨[], none⟩ rfl).trans (by decide +kernel)
  · exact (hstrings 1 ⟨[], some run⟩ rfl).trans (by decide +kernel)
  · exact (hstrings 2 ⟨[], some hinted⟩ rfl).trans (by decide +kernel)
  · exact (hstrings 3 ⟨[], some behind⟩ rfl).trans (by decide +kernel)

end SheetGloss.Package
