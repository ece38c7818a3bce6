import Mathlib.Data.List.Induction
import SheetGloss.Proofs.SheetEdits

/-!
# The store of a sheet

Which entry a call sets, and to what, does not depend on the sheet. Whatever calls made a sheet,
each of its entries is therefore what the last call that set this entry made it, and the formulas
are listed in reading order.
-/

namespace SheetGloss

namespace Edit

/-- Whether a call is about a cell of the sheet, by an address or by its place. -/
def InSheet : Edit → Prop
  | .value address _ | .formula address _ => ∃ a, Address.parse address = .ok a
  | .valueAt row column _ | .formulaAt row column _ => Position.Inside ⟨row, column⟩

end Edit

namespace Sheet

variable {sheet next : Sheet}

/-! ### One call -/

/-- What the last of some calls that set an entry made it. -/
def lastText? (edits : List Edit) (entry : Entry) : Option Text :=
  ((edits.filter (·.target.toOption = some entry)).getLast?).bind Edit.text?

lemma lastText?_append (edits : List Edit) (edit : Edit) (entry : Entry) :
    lastText? (edits ++ [edit]) entry =
      if edit.target.toOption = some entry then edit.text? else lastText? edits entry := by
  rw [lastText?, lastText?, List.filter_append]
  by_cases h : edit.target.toOption = some entry
  · rw [if_pos h, List.filter_cons_of_pos (by simpa using h), List.filter_nil,
      List.getLast?_concat, Option.bind_some]
  · rw [if_neg h, List.filter_cons_of_neg (by simpa using h), List.filter_nil, List.append_nil]

lemma textAt?_edited (sheet : Sheet) (edit : Edit) (entry : Entry) :
    (sheet.edited edit).textAt? entry =
      if edit.target.toOption = some entry then edit.text? else sheet.textAt? entry := by
  rw [edited_eq, apply_eq]
  cases edit.target with
  | error e => rfl
  | ok entry' =>
    simp only [Except.map, Except.toOption, Option.getD_some, textAt?_withText, Option.some.injEq]

/-- Every entry is what the last call that set it made it. -/
lemma textAt?_ofEdits (name : Text) (edits : List Edit) (entry : Entry) :
    (ofEdits name edits).textAt? entry = lastText? edits entry := by
  induction edits using List.reverseRecOn with
  | nil =>
    obtain ⟨layer, position⟩ := entry
    cases layer <;> rfl
  | append_singleton edits edit ih =>
    rw [lastText?_append, ← ih, ← textAt?_edited, ofEdits, List.foldl_append]
    rfl

/-- Whatever a sheet holds was put there by one of its calls. -/
lemma exists_target_of_textAt? {name : Text} {edits : List Edit} {entry : Entry} {text : Text}
    (h : (ofEdits name edits).textAt? entry = some text) :
    ∃ edit ∈ edits, edit.target = .ok entry ∧ edit.text? = some text := by
  rw [textAt?_ofEdits, lastText?, Option.bind_eq_some_iff] at h
  obtain ⟨edit, hlast, htext⟩ := h
  obtain ⟨hm, htarget⟩ := List.mem_filter.mp (List.mem_of_getLast? hlast)
  exact ⟨edit, hm, eq_ok_of_toOption (of_decide_eq_true htarget), htext⟩

end Sheet

end SheetGloss
