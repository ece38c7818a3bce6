import Mathlib.Data.List.Nodup
import SheetGloss.Exchange.Codec
import SheetGloss.Proofs.JsonText

/-!
# Reading written requests and answers

What is exchanged survives its JSON form: each type reads back what it writes, from the value and
from its text. Types are put together from those of their fields, and so are these facts.
-/

namespace SheetGloss

namespace Json

/-- A writer and a reader of one type that agree: what the writer makes is plain, and the reader
gets it back. -/
structure Exchanges {α : Type} (toJson : α → Json) (ofJson? : Json → Option α) : Prop where
  plain : ∀ a, (toJson a).Plain
  reads : ∀ a, ofJson? (toJson a) = some a

namespace Exchanges

variable {α : Type} {toJson : α → Json} {ofJson? : Json → Option α}

lemma parse?_compact (h : Exchanges toJson ofJson?) (a : α) :
    (parse? (toJson a).compact).bind ofJson? = some a := by
  rw [(h.plain a).parse?_compact]
  exact h.reads a

lemma parse?_pretty (h : Exchanges toJson ofJson?) (a : α) :
    (parse? ((toJson a).pretty 0)).bind ofJson? = some a ∧
      (parse? ((toJson a).pretty 0 ++ ['\n'])).bind ofJson? = some a := by
  obtain ⟨htext, hline⟩ := (h.plain a).parse?_pretty
  rw [htext, hline]
  exact ⟨h.reads a, h.reads a⟩

lemma text : Exchanges ofText text? := ⟨.string, fun _ => rfl⟩

lemma list (h : Exchanges toJson ofJson?) :
    Exchanges (fun l : List α => .array (l.map toJson)) (list? ofJson?) where
  plain l := by
    refine .array fun item hm => ?_
    obtain ⟨a, -, rfl⟩ := List.mem_map.mp hm
    exact h.plain a
  reads l := by
    have hmap : (l.map toJson).mapM ofJson? = some (l.map id) := mapM_map_of_some fun a _ => h.reads a
    rw [List.map_id] at hmap
    exact hmap

end Exchanges

lemma natBelow?_ofNat {n bound : Nat} (h : n < bound) : (ofNat n).natBelow? bound = some n := by
  have hdigits : (Text.ofNat n).all Char.isDigit = true :=
    List.all_eq_true.mpr fun _ hc => Text.isDigit_of_mem_ofNat hc
  rw [ofNat, natBelow?, if_pos hdigits, Text.decimalValue_ofNat]
  exact if_pos h

lemma filter_key {members : List (String × Json)} (hnodup : (members.map Prod.fst).Nodup)
    {name : String} {value : Json} (h : (name, value) ∈ members) :
    (members.map fun (name, value) => (some name.toList, value)).filter
      (·.1 == some name.toList) = [(some name.toList, value)] := by
  induction members with
  | nil => cases h
  | cons member members ih =>
    obtain ⟨other, first⟩ := member
    rw [List.map_cons, List.nodup_cons] at hnodup
    obtain ⟨hother, hrest⟩ := hnodup
    rw [List.map_cons, List.filter_cons]
    rcases List.mem_cons.mp h with he | hm
    · obtain ⟨rfl, rfl⟩ := Prod.mk.inj he
      have hnone : (members.map fun (name, value) => (some name.toList, value)).filter
          (·.1 == some name.toList) = [] := by
        rw [List.filter_eq_nil_iff]
        intro entry hentry
        obtain ⟨member, hmember, rfl⟩ := List.mem_map.mp hentry
        intro heq
        have hname : member.1 = name :=
          String.toList_inj.mp (Option.some.inj (beq_iff_eq.mp heq))
        exact hother (hname ▸ List.mem_map.mpr ⟨member, hmember, rfl⟩)
      rw [if_pos (beq_self_eq_true _), hnone]
    · have hne : other ≠ name := by
        rintro rfl
        exact hother (List.mem_map.mpr ⟨_, hm, rfl⟩)
      have hkey : ¬(some other.toList == some name.toList) = true := fun heq =>
        hne (String.toList_inj.mp (Option.some.inj (beq_iff_eq.mp heq)))
      rw [if_neg hkey, ih hrest hm]

/-- The fields of a record, by its own names. -/
lemma fields?_record {members : List (String × Json)} (hnodup : (members.map Prod.fst).Nodup) :
    (record members).fields? (members.map Prod.fst) = some (members.map (some ·.2)) := by
  have hkeys : (members.map fun (name, value) => (some name.toList, value)).any
      (·.1.isNone) = false := by
    simp
  rw [record, fields?, hkeys]
  refine mapM_map_of_some fun member hm => ?_
  rw [member?, filter_key hnodup hm]

end Json

open Json (Exchanges)

lemma Address.exchanges : Exchanges toJson ofJson? where
  plain a := by
    refine .record fun member hm => ?_
    simp only [List.mem_cons, List.not_mem_nil, or_false] at hm
    rcases hm with rfl | rfl | rfl | rfl
    · exact .number _
    · exact .number _
    · exact .boolean _
    · exact .boolean _
  reads a := by
    have hnodup : ["row", "col", "row_absolute", "col_absolute"].Nodup := by decide
    have hfields : a.toJson.fields? ["row", "col", "row_absolute", "col_absolute"] = _ :=
      @Json.fields?_record [("row", _), ("col", _), ("row_absolute", _), ("col_absolute", _)] hnodup
    have hrow := Json.natBelow?_ofNat a.row.toNat_lt
    have hcolumn := Json.natBelow?_ofNat a.column.toNat_lt
    rw [ofJson?, hfields]
    simp [UInt32.size, UInt16.size, hrow, hcolumn, Json.boolean?]

lemma ColumnSpan.exchanges : Exchanges toJson ofJson? where
  plain span := by
    refine .record fun member hm => ?_
    simp only [List.mem_cons, List.not_mem_nil, or_false] at hm
    rcases hm with rfl | rfl
    · exact .number _
    · exact .number _
  reads span := by
    have hnodup : ["start", "end"].Nodup := by decide
    have hfields : span.toJson.fields? ["start", "end"] = _ :=
      @Json.fields?_record [("start", _), ("end", _)] hnodup
    have hfirst := Json.natBelow?_ofNat span.first.toNat_lt
    have hlast := Json.natBelow?_ofNat span.last.toNat_lt
    rw [ofJson?, hfields]
    simp [UInt16.size, hfirst, hlast]

lemma CellFormula.exchanges : Exchanges toJson ofJson? where
  plain f := by
    refine .record fun member hm => ?_
    simp only [List.mem_cons, List.not_mem_nil, or_false] at hm
    rcases hm with rfl | rfl
    · exact Address.exchanges.plain _
    · exact .string _
  reads f := by
    have hnodup : ["cell", "expression"].Nodup := by decide
    have hfields : f.toJson.fields? ["cell", "expression"] = _ :=
      @Json.fields?_record [("cell", _), ("expression", _)] hnodup
    rw [ofJson?, hfields]
    simp [Address.exchanges.reads, Exchanges.text.reads]

lemma HeaderRow.exchanges : Exchanges toJson ofJson? where
  plain headers := Exchanges.text.list.plain headers.toList
  reads headers := by
    have hlabels : (Json.array (headers.toList.map .ofText)).list? Json.text? =
        some headers.toList := Exchanges.text.list.reads headers.toList
    rw [toJson, ofJson?, hlabels]
    rfl

namespace Request

lemma exchanges : Exchanges toJson ofJson? where
  plain request := by
    refine .record fun member hm => ?_
    simp only [List.mem_cons, List.not_mem_nil, or_false] at hm
    rcases hm with rfl | rfl
    · exact Exchanges.text.list.plain _
    · exact Exchanges.text.list.plain _
  reads request := by
    have hnodup : ["formulas", "headers"].Nodup := by decide
    have hfields : request.toJson.fields? ["formulas", "headers"] = _ :=
      @Json.fields?_record [("formulas", _), ("headers", _)] hnodup
    have htexts (texts : List Text) :
        textsOrNone? (some (.array (texts.map .ofText))) = some texts :=
      Exchanges.text.list.reads texts
    rw [ofJson?, hfields]
    simp [htexts]

/-- The text of a request reads back as the request. -/
theorem parse?_compact (request : Request) :
    (Json.parse? request.toJson.compact).bind ofJson? = some request :=
  exchanges.parse?_compact request

end Request

namespace Explanation

lemma exchanges : Exchanges toJson ofJson? where
  plain e := by
    refine .record fun member hm => ?_
    simp only [List.mem_cons, List.not_mem_nil, or_false] at hm
    rcases hm with rfl | rfl
    · exact .string _
    · exact .string _
  reads e := by
    have hnodup : ["header", "formula"].Nodup := by decide
    have hfields : e.toJson.fields? ["header", "formula"] = _ :=
      @Json.fields?_record [("header", _), ("formula", _)] hnodup
    rw [ofJson?, hfields]
    rfl

lemma exchanges_list : Exchanges listToJson listOfJson? := exchanges.list

end Explanation

namespace Answer

lemma exchanges : Exchanges toJson ofJson? where
  plain answer := by
    refine .record fun member hm => ?_
    obtain rfl := List.mem_singleton.mp hm
    exact Explanation.exchanges_list.plain answer.rows
  reads answer := by
    have hnodup : ["formulas"].Nodup := by decide
    have hfields : answer.toJson.fields? ["formulas"] = _ :=
      @Json.fields?_record [("formulas", _)] hnodup
    rw [ofJson?, hfields]
    simp [Explanation.exchanges_list.reads]

/-- The text of an answer reads back as the answer. -/
theorem parse?_compact (answer : Answer) :
    (Json.parse? answer.toJson.compact).bind ofJson? = some answer :=
  exchanges.parse?_compact answer

end Answer

/-- The JSON text of every exchanged value reads back as the value, and so does the text over
indented lines in which a command prints an answer. -/
theorem exchanged_texts_read_back :
    (∀ request : Request, (Json.parse? request.toJson.compact).bind Request.ofJson? = some request) ∧
    (∀ answer : Answer, (Json.parse? answer.toJson.compact).bind Answer.ofJson? = some answer) ∧
    (∀ answer : Answer, (Json.parse? (answer.toJson.pretty 0)).bind Answer.ofJson? = some answer ∧
      (Json.parse? (answer.toJson.pretty 0 ++ ['\n'])).bind Answer.ofJson? = some answer) ∧
    (∀ rows : List Explanation, (Json.parse? (Explanation.listToJson rows).compact).bind
      Explanation.listOfJson? = some rows) ∧
    (∀ e : Explanation, (Json.parse? e.toJson.compact).bind Explanation.ofJson? = some e) ∧
    (∀ headers : HeaderRow,
      (Json.parse? headers.toJson.compact).bind HeaderRow.ofJson? = some headers) ∧
    (∀ f : CellFormula, (Json.parse? f.toJson.compact).bind CellFormula.ofJson? = some f) ∧
    (∀ a : Address, (Json.parse? a.toJson.compact).bind Address.ofJson? = some a) ∧
    ∀ span : ColumnSpan, (Json.parse? span.toJson.compact).bind ColumnSpan.ofJson? = some span :=
  ⟨Request.parse?_compact, Answer.parse?_compact, Answer.exchanges.parse?_pretty,
    Explanation.exchanges_list.parse?_compact, Explanation.exchanges.parse?_compact,
    HeaderRow.exchanges.parse?_compact, CellFormula.exchanges.parse?_compact,
    Address.exchanges.parse?_compact, ColumnSpan.exchanges.parse?_compact⟩

end SheetGloss
