import SheetGloss.CommandLine.Run
import SheetGloss.Proofs.ArchiveRoundTrip
import SheetGloss.Proofs.ExchangeText
import SheetGloss.Proofs.FolderFiles
import SheetGloss.Proofs.MemoPass
import SheetGloss.Proofs.SheetListing

/-!
# Selections of sheets

A sheet is selected by its name, by its index, as the first one, or together with all others. It is
explained the same in each way: in lines by the same text, and in JSON by the same value, which is
that up to the order of fields.
-/

namespace SheetGloss

namespace Json

/-- Values that differ at most in the order of the members of their objects. -/
inductive Same : Json → Json → Prop where
  | refl (json : Json) : Same json json
  | array {k l : List Json} (h : List.Forall₂ Same k l) : Same (.array k) (.array l)
  | object {k l m : Members} (hkeys : (k.map Prod.fst).Nodup) (hperm : k.Perm l)
    (hnames : l.map Prod.fst = m.map Prod.fst)
    (hvalues : List.Forall₂ Same (l.map Prod.snd) (m.map Prod.snd)) :
    Same (.object k) (.object m)

lemma Same.map {α : Type} {f g : α → Json} (h : ∀ a, (f a).Same (g a)) (l : List α) :
    (Json.array (l.map f)).Same (.array (l.map g)) := by
  refine .array ?_
  rw [List.forall₂_map_left_iff, List.forall₂_map_right_iff, List.forall₂_same]
  exact fun a _ => h a

lemma Same.record_swap {name other : String} {a a' b b' : Json} (hne : name ≠ other)
    (ha : a.Same a') (hb : b.Same b') :
    (record [(name, a), (other, b)]).Same (.record [(other, b'), (name, a')]) := by
  have hkeys : some name.toList ≠ some other.toList := fun h =>
    hne (String.toList_inj.mp (Option.some.inj h))
  exact .object (List.nodup_cons.mpr ⟨by simpa using hkeys, List.nodup_singleton _⟩)
    (List.Perm.swap ..) rfl (.cons hb (.cons ha .nil))

end Json

lemma Explanation.getLast?_report (rows : List Explanation) :
    report rows = [] ∨ (report rows).getLast? = some '\n' := by
  rcases List.eq_nil_or_concat rows with rfl | ⟨rows, last, rfl⟩
  · exact Or.inl rfl
  · right
    rw [report, List.concat_eq_append, List.flatMap_append, List.flatMap_singleton,
      ← List.append_assoc, List.getLast?_append]
    rfl

namespace CommandLine

/-! ### The objects of all sheets -/

lemma sortedJson_same (e : Explanation) : (sortedJson e).Same e.toJson :=
  .record_swap (by decide) (.refl _) (.refl _)

/-- A sheet as an object of its name and its explanations, as they are written for it alone. -/
def sheetJson (name : Text) (formulas : Json) : Json :=
  .record [("sheet", .ofText name), ("formulas", formulas)]

lemma sheetsJson_same (sheets : List (Text × List Explanation)) :
    (sheetsJson sheets).Same
      (.array (sheets.map fun sheet => sheetJson sheet.1 (Explanation.listToJson sheet.2))) := by
  rw [sheetsJson]
  refine .map ?_ sheets
  rintro ⟨name, rows⟩
  exact .record_swap (by decide) (.map sortedJson_same rows) (.refl _)

lemma plain_sheetsJson (sheets : List (Text × List Explanation)) : (sheetsJson sheets).Plain := by
  have hrow (e : Explanation) : (sortedJson e).Plain := by
    refine .record fun member hm => ?_
    simp only [List.mem_cons, List.not_mem_nil, or_false] at hm
    rcases hm with rfl | rfl <;> exact .string _
  refine .array fun item hm => ?_
  obtain ⟨⟨name, rows⟩, -, rfl⟩ := List.mem_map.mp hm
  refine .record fun member hm => ?_
  simp only [List.mem_cons, List.not_mem_nil, or_false] at hm
  rcases hm with rfl | rfl
  · refine .array fun item hm => ?_
    obtain ⟨e, -, rfl⟩ := List.mem_map.mp hm
    exact hrow e
  · exact .string _

/-! ### One selected sheet -/

/-- The output for one sheet. -/
def sheetOutput (sheet : Sheet) (repeats : Repeats) (json : Bool) : Text :=
  if json then (Answer.toJson ⟨sheet.explain repeats⟩).pretty 0 ++ ['\n']
  else Explanation.report (sheet.explain repeats)

section Book

variable {book : Workbook} {sheet : Sheet} {name : Text} {index : Nat}

lemma isEmpty_of_sheet? (h : book.sheet? index = some sheet) : ¬book.sheets.isEmpty = true := by
  have hmem : sheet ∈ book.sheets := List.mem_of_getElem? h
  rw [List.isEmpty_iff]
  exact List.ne_nil_of_mem hmem

lemma explainBook_at (h : book.sheet? index = some sheet) (repeats : Repeats) (json : Bool) :
    explainBook book (.at index) repeats json = .ok (sheetOutput sheet repeats json) := by
  have hselect : selectSheet book (.at index) = .ok sheet := by
    simp only [selectSheet, if_neg (isEmpty_of_sheet? h), h]
  simp only [explainBook, hselect, if_neg (Selection.noConfusion : ¬Selection.at index = .all)]
  rfl

/-- A name and the index that it has select the same sheet. -/
lemma explainBook_named (h : book.indexOf? name = some index) (repeats : Repeats) (json : Bool) :
    explainBook book (.named name) repeats json = explainBook book (.at index) repeats json := by
  obtain ⟨hlt, -⟩ := List.findIdx?_eq_some_iff_getElem.mp h
  have hsheet : book.sheet? index = some book.sheets[index] := List.getElem?_eq_getElem hlt
  have hselect : selectSheet book (.named name) = .ok book.sheets[index] := by
    simp only [selectSheet, if_neg (isEmpty_of_sheet? hsheet), Workbook.sheetNamed?_of_indexOf? h,
      hsheet]
  rw [explainBook_at hsheet]
  simp only [explainBook, hselect, if_neg (Selection.noConfusion : ¬Selection.named name = .all)]
  rfl

lemma explainBook_first (book : Workbook) (repeats : Repeats) (json : Bool) :
    explainBook book .first repeats json = explainBook book (.at 0) repeats json := rfl

lemma explainBook_at_of_le (hsome : book.sheets ≠ []) (h : book.sheets.length ≤ index)
    (repeats : Repeats) (json : Bool) : explainBook book (.at index) repeats json =
      .error (.noSheetAt index book.sheets.length) := by
  have hnone : book.sheet? index = none := List.getElem?_eq_none h
  have hselect : selectSheet book (.at index) = .error (.noSheetAt index book.sheets.length) := by
    simp only [selectSheet, if_neg (mt List.isEmpty_iff.mp hsome), hnone]
  simp only [explainBook, hselect, if_neg (Selection.noConfusion : ¬Selection.at index = .all)]
  rfl

lemma explainBook_named_of_not_mem (hsome : book.sheets ≠ []) (h : name ∉ book.names)
    (repeats : Repeats) (json : Bool) :
    explainBook book (.named name) repeats json = .error (.noSheetNamed name) := by
  have hnone : book.sheetNamed? name = none := by
    rw [Workbook.sheetNamed?, List.find?_eq_none]
    intro sheet hm heq
    exact h (List.mem_map.mpr ⟨sheet, hm, beq_iff_eq.mp heq⟩)
  have hselect : selectSheet book (.named name) = .error (.noSheetNamed name) := by
    simp only [selectSheet, if_neg (mt List.isEmpty_iff.mp hsome), hnone]
  simp only [explainBook, hselect, if_neg (Selection.noConfusion : ¬Selection.named name = .all)]
  rfl

end Book

/-! ### A workbook that was opened -/

section Opened

variable {read : FileReader} {input : Text} {book : Workbook}

/-- Whatever the format of a file, a workbook that was read from it has valid and distinct names. -/
lemma wellNamed_of_format {format : FileFormat} {bytes : Bytes}
    (h : format.read bytes = .ok book) : book.WellNamed := by
  cases format with
  | package =>
    simp only [FileFormat.read, Package.readArchive] at h
    split at h
    · next hread =>
      cases h
      split at hread
      · exact Package.wellNamed_of_read hread
      · cases hread
    · cases h
  | records =>
    simp only [FileFormat.read] at h
    split at h
    · cases h
    · split at h
      · next hadd =>
        cases h
        exact Workbook.wellNamed_empty.add hadd
      · cases h

lemma wellNamed_of_openBook (h : openBook read input = .ok book) : book.WellNamed := by
  unfold openBook Workbook.open? at h
  split at h
  · next hread =>
    cases h
    split at hread
    · cases hread
    · split at hread
      · exact wellNamed_of_format hread
      · cases hread
      · cases hread
  · cases h

lemma output_explain (h : openBook read input = .ok book) (selection : Selection)
    (repeats : Repeats) (json : Bool) (stdin : Bytes) :
    (Command.explain input selection repeats json).output read stdin =
      explainBook book selection repeats json := by
  rw [Command.output, h]
  rfl

end Opened

/-! ### All sheets -/

/-- A text under a heading with the name of its sheet. -/
def headed (name text : Text) : Text := '[' :: (name ++ [']', '\n']) ++ text

/-- What goes over the names and the sheets of a workbook goes over the sheets. -/
lemma zipWith_names {α β : Type} (g : Text → α → β) (f : Sheet → α) (book : Workbook) :
    List.zipWith g book.names (book.sheets.map f) =
      book.sheets.map fun sheet => g sheet.name (f sheet) := by
  rw [Workbook.names, List.zipWith_map, List.zipWith_self]

lemma explainBook_all_text (book : Workbook) (repeats : Repeats) :
    explainBook book .all repeats false = .ok (['\n'].intercalate
      (List.zipWith headed book.names (book.sheets.map (sheetOutput · repeats false)))) := by
  rw [zipWith_names]
  have htext : explainBook book .all repeats false =
      .ok (sheetsText (book.explainAll repeats)) := rfl
  rw [htext, sheetsText, Workbook.explainAll, List.map_map]
  rfl

lemma explainBook_all_json (book : Workbook) (repeats : Repeats) :
    ∃ text value, explainBook book .all repeats true = .ok text ∧ Json.parse? text = some value ∧
      value.Same (.array (List.zipWith sheetJson book.names
        (book.sheets.map fun sheet => Explanation.listToJson (sheet.explain repeats)))) := by
  refine ⟨_, _, rfl, (plain_sheetsJson (book.explainAll repeats)).parse?_pretty.2, ?_⟩
  have hsame := sheetsJson_same (book.explainAll repeats)
  rw [zipWith_names]
  rw [Workbook.explainAll, List.map_map] at hsame
  exact hsame

lemma forall₂_indices {α : Type} {P : Nat → α → Prop} {book : Workbook} {f : Sheet → α}
    (h : ∀ index sheet, book.sheet? index = some sheet → P index (f sheet)) :
    List.Forall₂ P (List.range book.names.length) (book.sheets.map f) := by
  have hlength : book.names.length = book.sheets.length := List.length_map ..
  refine List.forall₂_iff_get.mpr ⟨by simp [hlength], fun index hindex hlt => ?_⟩
  have hsheet : index < book.sheets.length := by simpa using hlt
  simpa using h index book.sheets[index] (List.getElem?_eq_getElem hsheet)

/-! ### A workbook in a folder -/

open Package (Layout)

/-- A stored workbook that is written to a folder, inside of other folders or not, is opened from
its path with all its sheets. -/
theorem openBook_stored (layouts : List Layout) (folder : Folder) (names : List Text)
    (hsheets : (layouts.map fun layout => layout.sheet.name).Nodup)
    (hstorable : Zip.Storable (Package.documentBytes (Package.writtenDocuments layouts)))
    (hclear : folder.Clear names) (hpath : Path.IsFilePath names)
    (hformat : FileFormat.ofPath? (Path.ofNames names) = some .package) :
    openBook (Folder.read (folder ++ [(Path.ofNames names,
      Zip.store (Package.documentBytes (Package.writtenDocuments layouts)))]))
        (Path.ofNames names) = .ok ⟨layouts.map fun layout => layout.sheet⟩ := by
  have hread := Folder.read_written hclear hpath
    (Zip.store (Package.documentBytes (Package.writtenDocuments layouts)))
  have harchive := Package.readArchive_store layouts hsheets hstorable
  generalize Zip.store _ = bytes at hread harchive ⊢
  simp only [openBook, Workbook.open?, hformat, hread, FileFormat.read, harchive]

/-- A sheet of a label with a formula under it. -/
def ledgerLayout (name label source : Text) (hname : checkName name = .ok ())
    (hlabel : label ≠ []) (hsource : source ≠ [] ∧ source.head? ≠ some '=') : Layout where
  sheet :=
    { name
      values := (∅ : CellMap).insert ⟨0, 0⟩ label
      formulas := (∅ : CellMap).insert ⟨1, 0⟩ source }
  order := [⟨0, 0⟩, ⟨1, 0⟩]
  name_valid := hname
  inside := by decide
  value_mem := by
    intro position text h
    obtain ⟨rfl, rfl⟩ := Package.getElem?_singleton h
    exact ⟨by decide, hlabel⟩
  formula_mem := by
    intro position text h
    obtain ⟨rfl, rfl⟩ := Package.getElem?_singleton h
    exact ⟨by decide, hsource⟩

/-- Two sheets with a formula each, and between them one without any. -/
def ledgerLayouts : List Layout :=
  [ledgerLayout (Text.lit "Sales") (Text.lit "Qty") (Text.lit "SUM(A1:A1)") (by decide +kernel)
      (by decide) (by decide),
    Package.emptyLayout,
    ledgerLayout (Text.lit "Costs") (Text.lit "Fee") (Text.lit "AVERAGE(A:A)") (by decide +kernel)
      (by decide) (by decide)]

def ledgerBook : Workbook := ⟨ledgerLayouts.map fun layout => layout.sheet⟩

def ledgerNames : List Text := [Text.lit "books", Text.lit "ledger.xlsx"]

def ledgerPath : Text := Path.ofNames ledgerNames

/-- A folder with the stored workbook in a folder inside. -/
def ledgerFolder : Folder :=
  [(ledgerPath, Zip.store (Package.documentBytes (Package.writtenDocuments ledgerLayouts)))]

lemma storable_ledger :
    Zip.Storable (Package.documentBytes (Package.writtenDocuments ledgerLayouts)) where
  count_lt := by decide +kernel
  name_lt := by decide +kernel
  size_lt := by
    rw [Zip.length_store]
    decide +kernel

lemma openBook_ledger : openBook ledgerFolder.read ledgerPath = .ok ledgerBook := by
  have hclear : Folder.Clear [] ledgerNames := by
    intro entry hm
    cases hm
  have hname : ∀ name ∈ ledgerNames, Path.IsFileName name := by
    simp only [ledgerNames, List.forall_mem_cons]
    exact ⟨⟨by decide, by decide, by decide, by decide, by decide, by decide⟩,
      ⟨by decide, by decide, by decide, by decide, by decide, by decide⟩, by simp⟩
  have hpath : Path.IsFilePath ledgerNames := ⟨by decide, hname, by decide⟩
  exact openBook_stored ledgerLayouts [] ledgerNames (by decide +kernel) storable_ledger hclear
    hpath (by decide +kernel)

/-- The rows of the sheets. -/
def ledgerRows : List (List Explanation) :=
  [[⟨Text.lit "Qty", Text.lit "SUM(Qty)"⟩], [], [⟨Text.lit "Fee", Text.lit "AVERAGE(Fee)"⟩]]

lemma explain_ledger : ledgerBook.sheets.map (·.explain .append) = ledgerRows := by
  simp only [Sheet.explain_eq, Sheet.headers, Sheet.headerRowIndex,
    Std.ExtTreeMap.minKey?_eq_head?_keys]
  decide +kernel

/-- What each index has one thing of is, in order, what the items at the indices have. -/
lemma eq_map_of_forall₂_range {α β : Type} {P : Nat → β → Prop} {f : α → β} {k : List β}
    {l : List α} (h : List.Forall₂ P (List.range l.length) k)
    (hf : ∀ index a b, l[index]? = some a → P index b → b = f a) : k = l.map f := by
  obtain ⟨hlength, hget⟩ := List.forall₂_iff_get.mp h
  refine List.ext_getElem (by simpa using hlength.symm) fun index hk hl => ?_
  have hlt : index < l.length := by simpa using hl
  rw [List.getElem_map]
  exact hf index _ _ (List.getElem?_eq_getElem hlt) (by simpa using hget index (by simpa) hk)

/-! ### All selections -/

/-- The ways to select sheets agree, for every file that opens as a workbook with sheets. All sheets
in lines are the texts of the single ones, each under a heading, with an empty line between two; all
sheets in JSON are objects of their names and of what is written for each alone. A name selects as
its index does, and no selection as the first index. What selects no sheet fails, with nothing
written. -/
theorem selections_agree {read : FileReader} {input : Text} {book : Workbook}
    (hopen : openBook read input = .ok book) (hsome : book.sheets ≠ []) (repeats : Repeats)
    (stdin : Bytes) :
    let output (selection : Selection) (json : Bool) :=
      (Command.explain input selection repeats json).output read stdin
    let indices := List.range book.names.length
    (∃ texts, List.Forall₂ (fun index text => output (.at index) false = .ok text) indices texts ∧
      (∀ text ∈ texts, text = [] ∨ text.getLast? = some '\n') ∧
      output .all false = .ok (['\n'].intercalate (List.zipWith headed book.names texts))) ∧
    (∃ formulas all value, List.Forall₂ (fun index rows => ∃ text,
        output (.at index) true = .ok text ∧
          Json.parse? text = some (.record [("formulas", rows)])) indices formulas ∧
      output .all true = .ok all ∧ Json.parse? all = some value ∧
      value.Same (.array (List.zipWith sheetJson book.names formulas))) ∧
    (∀ index name json, book.names[index]? = some name →
      output (.named name) json = output (.at index) json) ∧
    (∀ json, output .first json = output (.at 0) json) ∧
    (∀ index json, book.names.length ≤ index →
      output (.at index) json = .error (.noSheetAt index book.names.length)) ∧
    (∀ name json, name ∉ book.names → output (.named name) json = .error (.noSheetNamed name)) ∧
    ∀ arguments selection json failure, output selection json = .error failure →
      Invocation.ofArguments? arguments = some (.run (.explain input selection repeats json)) →
        run arguments read stdin = ⟨1, [], failure.report⟩ := by
  intro output indices
  have houtput (selection : Selection) (json : Bool) :
      output selection json = explainBook book selection repeats json :=
    output_explain hopen selection repeats json stdin
  have hlength : book.names.length = book.sheets.length := List.length_map ..
  simp only [houtput]
  refine ⟨⟨_, forall₂_indices fun _ _ h => explainBook_at h repeats false, ?_,
    explainBook_all_text book repeats⟩, ?_, ?_, explainBook_first book repeats, ?_, ?_, ?_⟩
  · intro text hm
    obtain ⟨sheet, -, rfl⟩ := List.mem_map.mp hm
    exact Explanation.getLast?_report _
  · obtain ⟨all, value, hall, hvalue, hsame⟩ := explainBook_all_json book repeats
    exact ⟨_, all, value, forall₂_indices fun _ _ h => ⟨_, explainBook_at h repeats true,
      (Answer.exchanges.plain _).parse?_pretty.2⟩, hall, hvalue, hsame⟩
  · intro index name json h
    rw [Workbook.names, List.getElem?_map, Option.map_eq_some_iff] at h
    have hindex := (Workbook.indexOf?_eq_some_iff (wellNamed_of_openBook hopen).nodup).mpr h
    exact explainBook_named hindex repeats json
  · intro index json h
    rw [hlength] at h ⊢
    exact explainBook_at_of_le hsome h repeats json
  · intro name json h
    exact explainBook_named_of_not_mem hsome h repeats json
  · intro arguments selection json failure hfail harguments
    rw [← output_explain hopen selection repeats json stdin] at hfail
    simp only [run, harguments, hfail]

/-- Three sheets in a stored workbook: the text of all of them, with an empty line between two and
nothing under the heading of the second; their JSON list; the last one by its name and by its index;
and selections of no sheet. -/
theorem selections_agree_ledger :
    let output (selection : Selection) (json : Bool) :=
      (Command.explain ledgerPath selection .append json).output ledgerFolder.read []
    openBook ledgerFolder.read ledgerPath = .ok ledgerBook ∧ ledgerBook.sheets ≠ [] ∧
      output .all false =
        .ok (Text.lit "[Sales]\nQty = SUM(Qty)\n\n[Notes]\n\n[Costs]\nFee = AVERAGE(Fee)\n") ∧
      output (.at 2) false = .ok (Text.lit "Fee = AVERAGE(Fee)\n") ∧
      (∃ all value, output .all true = .ok all ∧ Json.parse? all = some value ∧
        value.Same (.array (List.zipWith sheetJson
          [Text.lit "Sales", Text.lit "Notes", Text.lit "Costs"]
          (ledgerRows.map Explanation.listToJson)))) ∧
      (∀ json, output (.named (Text.lit "Costs")) json = output (.at 2) json) ∧
      (∀ json, output .first json = output (.at 0) json) ∧
      output (.named (Text.lit "costs")) true = .error (.noSheetNamed (Text.lit "costs")) ∧
      run [Text.lit "explain", ledgerPath, Text.lit "--append-duplicates",
        Text.lit "--index=3"] ledgerFolder.read [] = ⟨1, [], (Failure.noSheetAt 3 3).report⟩ := by
  intro output
  have hsome : ledgerBook.sheets ≠ [] := List.cons_ne_nil _ _
  have hnames : ledgerBook.names = [Text.lit "Sales", Text.lit "Notes", Text.lit "Costs"] := by
    decide +kernel
  have harguments : Invocation.ofArguments? [Text.lit "explain", ledgerPath,
      Text.lit "--append-duplicates", Text.lit "--index=3"] =
        some (.run (.explain ledgerPath (.at 3) .append false)) := by decide +kernel
  obtain ⟨⟨texts, htexts, -, hall⟩, ⟨formulas, all, value, hformulas, hjson, hvalue, hsame⟩,
    hnamed, hfirst, hindex, hname, hrun⟩ := selections_agree openBook_ledger hsome .append []
  rw [hnames] at htexts hall hformulas hsame hnamed hindex hname
  have hat (index : Nat) (rows : List Explanation) (h : ledgerRows[index]? = some rows) :
      output (.at index) false = .ok (Explanation.report rows) ∧
        ∃ text, output (.at index) true = .ok text ∧
          Json.parse? text = some (.record [("formulas", Explanation.listToJson rows)]) := by
    rw [← explain_ledger, List.getElem?_map, Option.map_eq_some_iff] at h
    obtain ⟨sheet, hsheet, rfl⟩ := h
    have houtput (json : Bool) := (output_explain openBook_ledger (.at index) .append json []).trans
      (explainBook_at hsheet .append json)
    exact ⟨houtput false, _, houtput true, (Answer.exchanges.plain _).parse?_pretty.2⟩
  -- An index writes one text only, so what the theorem says to exist is what the rows give.
  have htexts : texts = ledgerRows.map Explanation.report := by
    refine eq_map_of_forall₂_range htexts fun index rows text hrows htext => ?_
    exact Except.ok.inj (htext.symm.trans (hat index rows hrows).1)
  have hformulas : formulas = ledgerRows.map Explanation.listToJson := by
    refine eq_map_of_forall₂_range hformulas fun index rows json hrows hwritten => ?_
    obtain ⟨text, htext, hparsed⟩ := (hat index rows hrows).2
    obtain ⟨text', htext', hparsed'⟩ := hwritten
    obtain rfl : text' = text := Except.ok.inj (htext'.symm.trans htext)
    simpa [Json.record] using hparsed'.symm.trans hparsed
  refine ⟨openBook_ledger, hsome, ?_, ?_, ⟨all, value, hjson, hvalue, ?_⟩, ?_, hfirst, ?_, ?_⟩
  · rw [htexts] at hall
    exact hall.trans (congrArg Except.ok (by decide +kernel))
  · exact (hat 2 _ rfl).1
  · rwa [hformulas] at hsame
  · exact fun json => hnamed 2 _ json rfl
  · exact hname _ true (by decide +kernel)
  · exact hrun _ (.at 3) false _ (hindex 3 false (by decide)) harguments

end CommandLine

end SheetGloss
