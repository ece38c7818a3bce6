import SheetGloss.CommandLine.Run
import SheetGloss.Proofs.ExchangeText
import SheetGloss.Proofs.SheetEdits

/-!
# One explanation from every entry point

A sheet can be explained as it is, from the printed texts of its formulas, or by a request that goes
through JSON. The printed formulas of a sheet read back as they are, and so do requests and answers,
so that all ways give the same rows.
-/

namespace SheetGloss

lemma splitFirst_append {mark : Char} {before : Text} (h : mark ∉ before) (after : Text) :
    Text.splitFirst mark (before ++ mark :: after) = (before, some after) := by
  induction before with
  | nil => rw [List.nil_append, Text.splitFirst, if_pos rfl]
  | cons c before ih =>
    rw [List.mem_cons, not_or] at h
    rw [List.cons_append, Text.splitFirst, if_neg (Ne.symm h.1), ih h.2]

/-- A printed formula of a cell inside the sheet reads back as it is. -/
lemma CellFormula.parse_toText {f : CellFormula} (hr : f.cell.row.toNat < maxRows)
    (hc : f.cell.column.toNat < maxColumns) : parse f.toText = .ok f := by
  have hmark : '=' ∉ f.cell.toText := fun hm =>
    absurd ((Address.isRun_toText hr hc).all '=' hm) (by decide)
  rw [parse, toText, splitFirst_append hmark]
  simp only [Address.parse_toText hr hc]
  rfl

namespace Sheet

variable {sheet : Sheet}

lemma Sound.parse_toText (h : sheet.Sound) {f : CellFormula} (hf : f ∈ sheet.cellFormulas) :
    CellFormula.parse f.toText = .ok f := by
  obtain ⟨p, hcell, hp⟩ := mem_cellFormulas.mp hf
  obtain ⟨hrow, hcolumn⟩ := h.formula_inside p f.expression hp
  apply CellFormula.parse_toText
  · rw [hcell]
    exact hrow
  · rw [hcell]
    exact hcolumn

/-- The formulas of a sheet, printed and read again. -/
lemma Sound.filterMap_parse (h : sheet.Sound) :
    ((sheet.cellFormulas.map CellFormula.toText).filterMap fun s =>
      (CellFormula.parse s).toOption) = sheet.cellFormulas := by
  rw [List.filterMap_map]
  refine Eq.trans (List.filterMap_congr ?_) List.filterMap_some
  intro f hf
  rw [Function.comp_apply, h.parse_toText hf]
  rfl

lemma Sound.explainTexts_eq (h : sheet.Sound) (repeats : Repeats) :
    explainTexts (sheet.cellFormulas.map CellFormula.toText) sheet.headers repeats =
      sheet.explain repeats := by
  rw [explainTexts, h.filterMap_parse]
  rfl

end Sheet

/-- Answering the text of a request answers the request. -/
lemma respond_compact (request : Request) :
    CommandLine.respond request.toJson.compact = .ok (request.answer .overwrite) := by
  rw [CommandLine.respond, request.parse?_compact]

/-- Whatever edits made a sheet, explaining it, explaining its printed formulas under its headers,
answering the request that holds them, and answering the JSON text of that request give the same
rows. -/
theorem explain_ofEdits_eq (name : Text) (edits : List Edit) (repeats : Repeats) :
    let sheet := Sheet.ofEdits name edits
    let formulas := sheet.cellFormulas.map CellFormula.toText
    let request : Request := ⟨formulas, sheet.headers.toList⟩
    sheet.explain repeats = explainTexts formulas sheet.headers repeats ∧
      sheet.explain repeats = (request.answer repeats).rows ∧
      ∃ answer, CommandLine.respond request.toJson.compact = .ok answer ∧
        (Json.parse? answer.toJson.compact).bind Answer.ofJson? =
          some ⟨sheet.explain .overwrite⟩ := by
  intro sheet formulas request
  have hsound : sheet.Sound := Sheet.sound_ofEdits name edits
  have hanswer (rule : Repeats) : request.answer rule = ⟨sheet.explain rule⟩ :=
    congrArg Answer.mk (hsound.explainTexts_eq rule)
  refine ⟨(hsound.explainTexts_eq repeats).symm, ?_, request.answer .overwrite,
    respond_compact request, ?_⟩
  · rw [hanswer]
  · rw [Answer.parse?_compact, hanswer]

end SheetGloss
