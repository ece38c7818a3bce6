import SheetGloss.Package.Contents
import SheetGloss.Proofs.SheetRoundTrip

/-!
# The cells of a part, each on its own

A part is read in one pass, and the reader keeps a cell and four marks from one event to the next.
What it finds is the same as if every cell were cut out of the part and read alone: a part that
nests its elements has the reader between two cells with no cell and no mark, whatever stands
between them, so that reading the part stores its cells one after another.
-/

namespace SheetGloss.Package

open Xml (Event Tag)

/-! ### A cell on its own -/

inductive Field where
  | value
  | formula
  | inline
  deriving DecidableEq, Repr

/-- The parts of a cell that are open. -/
structure Place where
  inValue : Bool
  inFormula : Bool
  inInline : Bool
  inInlineText : Bool
  deriving DecidableEq, Repr

namespace Place

def outside : Place := ⟨false, false, false, false⟩

def after (place : Place) : Event → Place
  | .opening tag =>
    { inValue := place.inValue || tag.is "v"
      inFormula := place.inFormula || tag.is "f"
      inInline := place.inInline || tag.is "is"
      inInlineText := place.inInlineText || (tag.is "t" && place.inInline) }
  | .closing name =>
    { inValue := place.inValue && name != Text.lit "v"
      inFormula := place.inFormula && name != Text.lit "f"
      inInline := place.inInline && name != Text.lit "is"
      inInlineText := place.inInlineText && name != Text.lit "t" }
  | _ => place

/-- The field of a text here; elsewhere texts are not read. -/
def field? (place : Place) : Option Field :=
  if place.inValue then some .value
  else if place.inFormula then some .formula
  else if place.inInlineText then some .inline
  else none

end Place

/-- The texts that are read, each with its field; nothing for one that cannot be read. -/
def readTexts (place : Place) : List Event → List (Field × Option Text)
  | [] => []
  | .text content :: rest =>
    (place.field?.map fun field => (field, content)).toList ++ readTexts place rest
  | event :: rest => readTexts (place.after event) rest

/-- The texts of some fields as one, nothing when there are none. -/
def joined (p : Field → Bool) (texts : List (Field × Option Text)) : Option Text :=
  if texts.any (p ·.1) then some ((texts.filter (p ·.1)).flatMap (·.2.getD [])) else none

/-- A cell in its part: its tag, and the events up to its end. -/
structure CellSpan where
  tag : Tag
  body : List Event
  deriving DecidableEq, Repr

namespace CellSpan

def texts (span : CellSpan) : List (Field × Option Text) := readTexts .outside span.body

/-- The group that the last formula in the cell names. -/
def group? (span : CellSpan) : Option Text :=
  ((span.body.filterMap startedTag?).filter (·.is "f")).getLast?.bind sharedGroup?

/-- What a cell tells of itself, from its tag and its body alone. -/
def cell (span : CellSpan) : PendingCell where
  reference := span.tag.attribute? "r"
  type :=
    if span.texts.any (·.1 == .inline) then some (Text.lit "inlineStr")
    else span.tag.attribute? "t"
  value := joined (· != .formula) span.texts
  formula := joined (· == .formula) span.texts
  group := span.group?

def read (span : CellSpan) : Except ReadError PendingCell :=
  if span.texts.all (·.2.isSome) then .ok span.cell else .error .markup

end CellSpan

/-- The cells in a part, in order. An empty element is none: it holds nothing. -/
def cellSpans : List Event → List CellSpan
  | [] => []
  | .opening tag :: rest =>
    if tag.is "c" then ⟨tag, rest.takeWhile (· != .closing (Text.lit "c"))⟩ :: cellSpans rest
    else cellSpans rest
  | _ :: rest => cellSpans rest

def Build.storeSpan (strings : Array Text) (build : Build) (span : CellSpan) :
    Except ReadError Build := do
  let cell ← span.read
  build.store strings cell

/-- The names of the elements that are open after an event, innermost first. There are none where an
end does not match its start, a cell starts inside another, or the document breaks off. -/
def openAfter? (names : List Text) : Event → Option (List Text)
  | .opening tag =>
    if tag.is "c" && names.contains (Text.lit "c") then none else some (tag.name :: names)
  | .single tag => if tag.is "c" && names.contains (Text.lit "c") then none else some names
  | .closing name =>
    match names with
    | [] => none
    | innermost :: outer => if innermost = name then some outer else none
  | .text _ => some names
  | .aside => some names
  | .fault => none

/-- Events of a part whose elements are all closed, and in which no cell lies inside another. -/
def WellNested (events : List Event) : Prop := events.foldlM openAfter? [] = some []

/-! ### The reader in a cell -/

lemma tag_is_iff {tag : Tag} {name : String} : tag.is name = true ↔ tag.name = Text.lit name :=
  beq_iff_eq

def PendingCell.add (cell : PendingCell) (content : Text) : Field → PendingCell
  | .value => { cell with value := extend cell.value content }
  | .formula => { cell with formula := extend cell.formula content }
  | .inline =>
    { cell with value := extend cell.value content, type := some (Text.lit "inlineStr") }

def groupAfter (group : Option Text) (tag : Tag) : Option Text :=
  if tag.is "f" then sharedGroup? tag else group

def CellReader.at (build : Build) (cell : PendingCell) (place : Place) : CellReader :=
  ⟨build, some cell, place.inValue, place.inFormula, place.inInline, place.inInlineText⟩

/-- An event in a cell that neither ends it nor starts another. -/
def IsInner : Event → Prop
  | .opening tag => tag.is "c" = false
  | .single tag => tag.is "c" = false
  | .closing name => name ≠ Text.lit "c"
  | .text _ => True
  | .aside => True
  | .fault => False

section Inside

variable {strings : Array Text} {build : Build} {cell : PendingCell} {place : Place}

lemma opened_at {tag : Tag} (h : tag.is "c" = false) :
    (CellReader.at build cell place).opened tag =
      .at build { cell with group := groupAfter cell.group tag } (place.after (.opening tag)) := by
  by_cases hv : tag.is "v" = true
  · simp [CellReader.opened, CellReader.at, Place.after, groupAfter, Tag.is, tag_is_iff.mp hv,
      Text.lit]
  by_cases hf : tag.is "f" = true
  · simp [CellReader.opened, CellReader.at, Place.after, groupAfter, Tag.is, tag_is_iff.mp hf,
      Text.lit]
  by_cases hi : tag.is "is" = true
  · simp [CellReader.opened, CellReader.at, Place.after, groupAfter, Tag.is, tag_is_iff.mp hi,
      Text.lit]
  by_cases ht : tag.is "t" = true
  · simp [CellReader.opened, CellReader.at, Place.after, groupAfter, Tag.is, tag_is_iff.mp ht,
      Text.lit]
  · simp [CellReader.opened, CellReader.at, Place.after, groupAfter, h, hv, hf, hi, ht]

lemma passed_at {tag : Tag} (h : tag.is "c" = false) :
    (CellReader.at build cell place).passed tag =
      .at build { cell with group := groupAfter cell.group tag } place := by
  by_cases hf : tag.is "f" = true
  · simp [CellReader.passed, CellReader.at, groupAfter, h, hf]
  · simp [CellReader.passed, CellReader.at, groupAfter, h, hf]

lemma closed_at {name : Text} (h : name ≠ Text.lit "c") :
    (CellReader.at build cell place).closed strings name =
      .ok (.at build cell (place.after (.closing name))) := by
  unfold CellReader.closed
  rw [if_neg h]
  by_cases hv : name = Text.lit "v"
  · simp [CellReader.at, Place.after, hv, Text.lit]
  by_cases hf : name = Text.lit "f"
  · simp [CellReader.at, Place.after, hf, Text.lit]
  by_cases hi : name = Text.lit "is"
  · simp [CellReader.at, Place.after, hi, Text.lit]
  by_cases ht : name = Text.lit "t"
  · simp [CellReader.at, Place.after, ht, Text.lit]
  · rw [if_neg hv, if_neg hf, if_neg hi, if_neg ht]
    simp only [CellReader.at, Place.after, bne_iff_ne.mpr hv, bne_iff_ne.mpr hf,
      bne_iff_ne.mpr hi, bne_iff_ne.mpr ht, Bool.and_true]

lemma step_aside (strings : Array Text) (reader : CellReader) :
    reader.step strings .aside = .ok reader := rfl

lemma met_at (content : Option Text) :
    (CellReader.at build cell place).met content =
      match place.field?, content with
      | none, _ => .ok (.at build cell place)
      | some field, some s => .ok (.at build (cell.add s field) place)
      | some _, none => .error .markup := by
  obtain ⟨inValue, inFormula, inInline, inInlineText⟩ := place
  cases inValue <;> cases inFormula <;> cases inInlineText <;> cases content <;> rfl

/-- A cell after some texts and the tags that started in it. -/
def PendingCell.filled (cell : PendingCell) (texts : List (Field × Option Text))
    (tags : List Tag) : PendingCell where
  reference := cell.reference
  type := if texts.any (·.1 == .inline) then some (Text.lit "inlineStr") else cell.type
  value := ((joined (· != .formula) texts).map (cell.value.getD [] ++ ·)).or cell.value
  formula := ((joined (· == .formula) texts).map (cell.formula.getD [] ++ ·)).or cell.formula
  group := tags.foldl groupAfter cell.group

lemma joined_cons (p : Field → Bool) (field : Field) (s : Text)
    (texts : List (Field × Option Text)) :
    joined p ((field, some s) :: texts) =
      if p field then some (s ++ (joined p texts).getD []) else joined p texts := by
  cases hp : p field with
  | false =>
    rw [joined, List.any_cons, List.filter_cons, hp]
    rfl
  | true =>
    by_cases ht : texts.any (p ·.1) = true
    · simp [joined, hp, ht]
    · have hnil : texts.filter (p ·.1) = [] := by
        simpa [List.filter_eq_nil_iff] using ht
      simp [joined, hp, ht, hnil]

lemma map_joined_or (before : Option Text) (s : Text) (after : Option Text) :
    (after.map ((extend before s).getD [] ++ ·)).or (extend before s) =
      ((some (s ++ after.getD [])).map (before.getD [] ++ ·)).or before := by
  cases after <;> simp [extend]

lemma filled_add (field : Field) (s : Text) (texts : List (Field × Option Text))
    (tags : List Tag) :
    (cell.add s field).filled texts tags = cell.filled ((field, some s) :: texts) tags := by
  cases field with
  | value =>
    simp only [PendingCell.add, PendingCell.filled, joined_cons, map_joined_or]
    rfl
  | formula =>
    simp only [PendingCell.add, PendingCell.filled, joined_cons, map_joined_or]
    rfl
  | inline =>
    simp [PendingCell.add, PendingCell.filled, joined_cons, map_joined_or]

lemma foldlM_inner {body : List Event} (h : ∀ event ∈ body, IsInner event) :
    body.foldlM (CellReader.step strings) (.at build cell place) =
      if (readTexts place body).all (·.2.isSome) then
        .ok (.at build (cell.filled (readTexts place body) (body.filterMap startedTag?))
          (body.foldl Place.after place))
      else .error .markup := by
  induction body generalizing cell place with
  | nil => rfl
  | cons event rest ih =>
    obtain ⟨hevent, hrest⟩ := List.forall_mem_cons.mp h
    cases event with
    | opening tag =>
      rw [foldlM_cons_of_pure (congrArg Except.ok (opened_at hevent)), ih hrest]
      rfl
    | single tag =>
      rw [foldlM_cons_of_pure (congrArg Except.ok (passed_at hevent)), ih hrest]
      rfl
    | closing name =>
      have hstep : CellReader.step strings (.at build cell place) (.closing name) =
          .ok (.at build cell (place.after (.closing name))) := closed_at hevent
      rw [foldlM_cons_of_pure hstep, ih hrest]
      rfl
    | text content =>
      have hstep : CellReader.step strings (.at build cell place) (.text content) = _ :=
        met_at content
      cases hfield : place.field? with
      | none =>
        rw [hfield] at hstep
        have htexts : readTexts place (.text content :: rest) = readTexts place rest := by
          simp [readTexts, hfield]
        rw [foldlM_cons_of_pure hstep, ih hrest, htexts]
        rfl
      | some field =>
        rw [hfield] at hstep
        have htexts : readTexts place (.text content :: rest) =
            (field, content) :: readTexts place rest := by
          simp [readTexts, hfield]
        rw [htexts]
        cases content with
        | none => rw [List.foldlM_cons, hstep]; rfl
        | some s =>
          rw [foldlM_cons_of_pure hstep, ih hrest, filled_add]
          rfl
    | aside =>
      rw [foldlM_cons_of_pure (step_aside _ _), ih hrest]
      rfl
    | fault => exact hevent.elim

end Inside

/-! ### Nesting -/

/-- Every open part of a cell belongs to one of these elements. -/
structure Place.Within (place : Place) (names : List Text) : Prop where
  value : place.inValue = true → Text.lit "v" ∈ names
  formula : place.inFormula = true → Text.lit "f" ∈ names
  inline : place.inInline = true → Text.lit "is" ∈ names
  inlineText : place.inInlineText = true → Text.lit "t" ∈ names

lemma Place.Within.eq_outside {place : Place} (h : place.Within []) : place = outside := by
  have hnone {flag : Bool} {name : Text} (hflag : flag = true → name ∈ []) : flag = false :=
    Bool.eq_false_iff.mpr fun ht => List.not_mem_nil (hflag ht)
  obtain ⟨inValue, inFormula, inInline, inInlineText⟩ := place
  rw [outside, Place.mk.injEq]
  exact ⟨hnone h.value, hnone h.formula, hnone h.inline, hnone h.inlineText⟩

lemma Place.within_outside (names : List Text) : outside.Within names :=
  ⟨nofun, nofun, nofun, nofun⟩

lemma Place.Within.opening {place : Place} {names : List Text} (h : place.Within names)
    (tag : Tag) : (place.after (.opening tag)).Within (tag.name :: names) := by
  have hopen {flag : Bool} {name : String} (hflag : flag = true → Text.lit name ∈ names)
      (hor : (flag || tag.is name) = true) : Text.lit name ∈ tag.name :: names := by
    rcases Bool.or_eq_true_iff.mp hor with ht | ht
    · exact List.mem_cons_of_mem _ (hflag ht)
    · exact List.mem_cons.mpr (Or.inl (tag_is_iff.mp ht).symm)
  refine ⟨hopen h.value, hopen h.formula, hopen h.inline, ?_⟩
  intro ht
  refine hopen h.inlineText ?_
  rcases Bool.or_eq_true_iff.mp ht with ht | ht
  · rw [ht, Bool.true_or]
  · rw [(Bool.and_eq_true_iff.mp ht).1, Bool.or_true]

lemma Place.Within.closing {place : Place} {names : List Text} {name : Text}
    (h : place.Within (name :: names)) : (place.after (.closing name)).Within names := by
  have hclose {flag : Bool} {other : Text} (hflag : flag = true → other ∈ name :: names)
      (hand : (flag && name != other) = true) : other ∈ names := by
    obtain ⟨ht, hne⟩ := Bool.and_eq_true_iff.mp hand
    exact (List.mem_cons.mp (hflag ht)).resolve_left (Ne.symm (bne_iff_ne.mp hne))
  exact ⟨hclose h.value, hclose h.formula, hclose h.inline, hclose h.inlineText⟩

/-- One event inside a cell leaves the cell open, and every open part of it in an open element. -/
lemma openAfter?_inner {place : Place} {names outer after : List Text} {event : Event}
    (hend : event ≠ .closing (Text.lit "c")) (hplace : place.Within names)
    (hcell : Text.lit "c" ∉ names)
    (h : openAfter? (names ++ Text.lit "c" :: outer) event = some after) :
    IsInner event ∧ ∃ names', after = names' ++ Text.lit "c" :: outer ∧
      Text.lit "c" ∉ names' ∧ (place.after event).Within names' := by
  have hopen : (names ++ Text.lit "c" :: outer).contains (Text.lit "c") = true := by simp
  cases event with
  | opening tag =>
    simp only [openAfter?, hopen, Bool.and_true] at h
    split at h
    · cases h
    next hc =>
      obtain rfl := Option.some.inj h
      refine ⟨Bool.eq_false_iff.mpr hc, tag.name :: names, rfl, ?_, hplace.opening tag⟩
      rw [List.mem_cons, not_or]
      exact ⟨fun he => hc (tag_is_iff.mpr he.symm), hcell⟩
  | single tag =>
    simp only [openAfter?, hopen, Bool.and_true] at h
    split at h
    · cases h
    next hc =>
      obtain rfl := Option.some.inj h
      exact ⟨Bool.eq_false_iff.mpr hc, names, rfl, hcell, hplace⟩
  | closing name =>
    have hname : name ≠ Text.lit "c" := fun he => hend (congrArg Event.closing he)
    cases names with
    | nil =>
      simp only [List.nil_append, openAfter?] at h
      rw [if_neg (Ne.symm hname)] at h
      cases h
    | cons innermost names =>
      simp only [List.cons_append, openAfter?] at h
      split at h
      · next he =>
        obtain rfl := Option.some.inj h
        subst he
        exact ⟨hname, names, rfl, fun hm => hcell (List.mem_cons_of_mem _ hm), hplace.closing⟩
      · cases h
  | text content =>
    obtain rfl := Option.some.inj h
    exact ⟨trivial, names, rfl, hcell, hplace⟩
  | aside =>
    obtain rfl := Option.some.inj h
    exact ⟨trivial, names, rfl, hcell, hplace⟩
  | fault => cases h

lemma foldlM_openAfter?_inner {place : Place} {names outer after : List Text} {body : List Event}
    (hend : ∀ event ∈ body, event ≠ .closing (Text.lit "c")) (hplace : place.Within names)
    (hcell : Text.lit "c" ∉ names)
    (h : body.foldlM openAfter? (names ++ Text.lit "c" :: outer) = some after) :
    (∀ event ∈ body, IsInner event) ∧ ∃ names', after = names' ++ Text.lit "c" :: outer ∧
      Text.lit "c" ∉ names' ∧ (body.foldl Place.after place).Within names' := by
  induction body generalizing place names with
  | nil =>
    obtain rfl := Option.some.inj h
    exact ⟨by simp, names, rfl, hcell, hplace⟩
  | cons event rest ih =>
    obtain ⟨hevent, hrest⟩ := List.forall_mem_cons.mp hend
    rw [List.foldlM_cons] at h
    obtain ⟨middle, hmiddle, h⟩ := Option.bind_eq_some_iff.mp h
    obtain ⟨hinner, names', rfl, hcell', hplace'⟩ :=
      openAfter?_inner hevent hplace hcell hmiddle
    obtain ⟨hall, hfinal⟩ := ih hrest hplace' hcell' h
    exact ⟨List.forall_mem_cons.mpr ⟨hinner, hall⟩, hfinal⟩

/-- A cell that is closed again ends at the first end of a cell, and with it all its parts. -/
lemma exists_cellEnd {outer final : List Text} {rest : List Event}
    (h : rest.foldlM openAfter? (Text.lit "c" :: outer) = some final)
    (hfinal : Text.lit "c" ∉ final) :
    ∃ body after, rest = body ++ .closing (Text.lit "c") :: after ∧
      rest.takeWhile (· != .closing (Text.lit "c")) = body ∧ (∀ event ∈ body, IsInner event) ∧
      body.foldl Place.after .outside = .outside ∧
      after.foldlM openAfter? outer = some final := by
  have hsplit := List.takeWhile_append_dropWhile
    (p := (· != Event.closing (Text.lit "c"))) (l := rest)
  have hend : ∀ event ∈ rest.takeWhile (· != .closing (Text.lit "c")),
      event ≠ .closing (Text.lit "c") := fun event he =>
    bne_iff_ne.mp (List.all_eq_true.mp List.all_takeWhile event he)
  have hhead : ∀ event ∈ (rest.dropWhile (· != .closing (Text.lit "c"))).head?,
      event = .closing (Text.lit "c") := by
    intro event he
    have hd := List.head?_dropWhile_not (· != Event.closing (Text.lit "c")) rest
    rw [Option.mem_def.mp he] at hd
    simpa using hd
  -- From here on the body is any list without an end of a cell, and the rest one that begins with it.
  generalize rest.takeWhile (· != .closing (Text.lit "c")) = body at hsplit hend ⊢
  generalize rest.dropWhile (· != .closing (Text.lit "c")) = tail at hsplit hhead
  subst hsplit
  rw [List.foldlM_append] at h
  obtain ⟨names, hbody, htail⟩ := Option.bind_eq_some_iff.mp h
  have hstart : body.foldlM openAfter? ([] ++ Text.lit "c" :: outer) = some names := hbody
  obtain ⟨hinner, names, rfl, hcell, hplace⟩ := foldlM_openAfter?_inner hend
    (Place.within_outside []) List.not_mem_nil hstart
  cases tail with
  | nil =>
    obtain rfl := Option.some.inj htail
    exact absurd (by simp) hfinal
  | cons event after =>
    obtain rfl := hhead event rfl
    rw [List.foldlM_cons] at htail
    obtain ⟨middle, hmiddle, hafter⟩ := Option.bind_eq_some_iff.mp htail
    cases names with
    | nil =>
      obtain rfl : outer = middle := by simpa [openAfter?] using hmiddle
      exact ⟨body, after, rfl, rfl, hinner, hplace.eq_outside, hafter⟩
    | cons innermost names =>
      simp only [List.cons_append, openAfter?] at hmiddle
      split at hmiddle
      · next he => exact absurd (he ▸ List.mem_cons_self) hcell
      · cases hmiddle

lemma cellSpans_inner {body : List Event} (h : ∀ event ∈ body, IsInner event)
    (rest : List Event) : cellSpans (body ++ rest) = cellSpans rest := by
  induction body with
  | nil => rfl
  | cons event body ih =>
    obtain ⟨hevent, hbody⟩ := List.forall_mem_cons.mp h
    cases event with
    | opening tag =>
      rw [List.cons_append, cellSpans, if_neg (Bool.eq_false_iff.mp hevent), ih hbody]
    | _ => exact ih hbody

/-! ### The reader between two cells -/

lemma foldl_groupAfter (tags : List Tag) (group : Option Text) :
    tags.foldl groupAfter group =
      ((tags.filter (·.is "f")).getLast?.map sharedGroup?).getD group := by
  induction tags generalizing group with
  | nil => rfl
  | cons tag tags ih =>
    rw [List.foldl_cons, ih, List.filter_cons, groupAfter]
    split
    · rw [List.getLast?_cons]
      cases (tags.filter (·.is "f")).getLast? <;> rfl
    · rfl

lemma filled_eq_cell (tag : Tag) (body : List Event) :
    (PendingCell.ofTag tag).filled (readTexts .outside body) (body.filterMap startedTag?) =
      (⟨tag, body⟩ : CellSpan).cell := by
  have hgroup : (body.filterMap startedTag?).foldl groupAfter none =
      (⟨tag, body⟩ : CellSpan).group? := by
    rw [foldl_groupAfter, CellSpan.group?]
    cases ((body.filterMap startedTag?).filter (·.is "f")).getLast? <;> rfl
  have hjoined (text : Option Text) :
      (text.map ((none : Option Text).getD [] ++ ·)).or none = text := by
    cases text <;> rfl
  simp only [PendingCell.filled, PendingCell.ofTag, hjoined, hgroup]
  rfl

/-- A cell is stored as it would be if it were read on its own. -/
lemma foldlM_cell (strings : Array Text) (build : Build) {tag : Tag} (htag : tag.is "c" = true)
    {body : List Event} (hbody : ∀ event ∈ body, IsInner event)
    (hplace : body.foldl Place.after .outside = .outside) (after : List Event) :
    (.opening tag :: (body ++ .closing (Text.lit "c") :: after)).foldlM (CellReader.step strings)
        (.inside build none) =
      (build.storeSpan strings ⟨tag, body⟩).bind fun build =>
        after.foldlM (CellReader.step strings) (.inside build none) := by
  have hopen : CellReader.step strings (.inside build none) (.opening tag) =
      .ok (.at build (.ofTag tag) .outside) := by
    simp [CellReader.step, CellReader.opened, htag, CellReader.inside, CellReader.at,
      Place.outside]
  have hinner : body.foldlM (CellReader.step strings) (.at build (.ofTag tag) .outside) = _ :=
    foldlM_inner hbody
  rw [hplace, filled_eq_cell] at hinner
  rw [foldlM_cons_of_pure hopen, List.foldlM_append, hinner, Build.storeSpan, CellSpan.read,
    CellSpan.texts]
  by_cases htexts : (readTexts .outside body).all (·.2.isSome) = true
  · rw [if_pos htexts, if_pos htexts]
    generalize CellSpan.cell _ = cell
    have hclose : CellReader.step strings (.at build cell .outside) (.closing (Text.lit "c")) =
        (build.store strings cell).map (.inside · none) := by
      simp only [CellReader.step, CellReader.closed, CellReader.at, if_true]
      cases build.store strings cell <;> rfl
    simp only [bind, Except.bind, List.foldlM_cons, hclose]
    cases build.store strings cell <;> rfl
  · rw [if_neg htexts, if_neg htexts]
    rfl

/-- Between two cells the reader has stored those before, and it is in none. -/
theorem foldlM_between {strings : Array Text} {names final : List Text} {events : List Event}
    (h : events.foldlM openAfter? names = some final) (hnames : Text.lit "c" ∉ names)
    (hfinal : Text.lit "c" ∉ final) (build : Build) :
    events.foldlM (CellReader.step strings) (.inside build none) =
      ((cellSpans events).foldlM (Build.storeSpan strings) build).map (.inside · none) := by
  -- By length and not event by event: a cell is one step, and what follows it is any shorter list.
  induction hlength : events.length using Nat.strong_induction_on
    generalizing events names build with
  | _ length ih =>
    cases events with
    | nil => rfl
    | cons event rest =>
      have hrest : rest.length < length := by
        rw [← hlength]
        exact Nat.lt_succ_self _
      have hclosed : names.contains (Text.lit "c") = false := by simpa using hnames
      rw [List.foldlM_cons] at h
      obtain ⟨middle, hmiddle, h⟩ := Option.bind_eq_some_iff.mp h
      cases event with
      | opening tag =>
        simp only [openAfter?, hclosed, Bool.and_false] at hmiddle
        obtain rfl := Option.some.inj hmiddle
        by_cases hc : tag.is "c" = true
        · rw [tag_is_iff.mp hc] at h
          obtain ⟨body, after, rfl, htake, hinner, hplace, hafter⟩ := exists_cellEnd h hfinal
          have hspans : cellSpans (.opening tag :: (body ++ .closing (Text.lit "c") :: after)) =
              ⟨tag, body⟩ :: cellSpans after := by
            rw [cellSpans, if_pos hc, htake, cellSpans_inner hinner]
            rfl
          have hshort : after.length < length := by
            rw [List.length_append, List.length_cons] at hrest
            omega
          rw [hspans, foldlM_cell strings build hc hinner hplace, List.foldlM_cons]
          cases hstore : build.storeSpan strings ⟨tag, body⟩ with
          | error e => rfl
          | ok build' => exact ih _ hshort hafter hnames build' rfl
        · have hstep : CellReader.step strings (.inside build none) (.opening tag) =
              .ok (.inside build none) := by
            simp [CellReader.step, CellReader.opened, CellReader.inside, hc]
          have hnames' : Text.lit "c" ∉ tag.name :: names := by
            rw [List.mem_cons, not_or]
            exact ⟨fun he => hc (tag_is_iff.mpr he.symm), hnames⟩
          rw [foldlM_cons_of_pure hstep, cellSpans, if_neg hc]
          exact ih _ hrest h hnames' build rfl
      | single tag =>
        simp only [openAfter?, hclosed, Bool.and_false] at hmiddle
        obtain rfl := Option.some.inj hmiddle
        have hstep : CellReader.step strings (.inside build none) (.single tag) =
            .ok (.inside build none) := by
          simp [CellReader.step, CellReader.passed, CellReader.inside]
        rw [foldlM_cons_of_pure hstep]
        exact ih _ hrest h hnames build rfl
      | closing name =>
        cases names with
        | nil => cases hmiddle
        | cons innermost outer =>
          simp only [openAfter?] at hmiddle
          split at hmiddle
          · next he =>
            obtain rfl := Option.some.inj hmiddle
            obtain ⟨hne, houter⟩ := List.ne_and_not_mem_of_not_mem_cons hnames
            have hstep : CellReader.step strings (.inside build none) (.closing name) =
                .ok (.inside build none) := by
              simp [CellReader.step, CellReader.closed, CellReader.inside, ← he]
            rw [foldlM_cons_of_pure hstep]
            exact ih _ hrest h houter build rfl
          · cases hmiddle
      | text content =>
        obtain rfl := Option.some.inj hmiddle
        have hstep : CellReader.step strings (.inside build none) (.text content) =
            .ok (.inside build none) := rfl
        rw [foldlM_cons_of_pure hstep]
        exact ih _ hrest h hnames build rfl
      | aside =>
        obtain rfl := Option.some.inj hmiddle
        rw [foldlM_cons_of_pure (step_aside _ _)]
        exact ih _ hrest h hnames build rfl
      | fault => cases hmiddle

end SheetGloss.Package
