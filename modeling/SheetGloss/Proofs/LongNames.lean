import SheetGloss.Proofs.FormulaCuts
import SheetGloss.Proofs.OpenSpans

/-!
# Names with letters of all alphabets

A name in a formula may hold letters beyond ASCII, which a fill does not take for parts of names. It
cuts such a name at them, and moves every part that is a reference. The name is kept exactly when
no part moves; a name of ASCII characters alone is one part, and is kept unless it is an address.
-/

namespace SheetGloss.Formula

/-- A class of characters of which names are made: all that a fill takes for parts of names, and
others, but no quotes. -/
structure NameClass (wide : Char → Bool) : Prop where
  name : ∀ c, isNameChar c = true → wide c = true
  no_quote : ∀ c, isQuote c = true → wide c = false

/-- A longest run of characters of a class, outside quoted spans, between the rest of a formula. -/
structure NameAt (wide : Char → Bool) (before name after : Text) : Prop where
  ne_nil : name ≠ []
  all : ∀ c ∈ name, wide c = true
  left : ∀ c ∈ before.getLast?, wide c = false
  right : ∀ c ∈ after.head?, wide c = false
  outside : inSpan (before ++ (name ++ after)) before.length = false

variable {wide : Char → Bool} {rows columns : Int} {before name after : Text}

lemma NameClass.isNameChar_eq_false (hwide : NameClass wide) {c : Char} (hc : wide c = false) :
    isNameChar c = false := by
  rw [← Bool.not_eq_true]
  intro hn
  rw [hwide.name c hn] at hc
  cases hc

lemma NameClass.isQuote_eq_false (hwide : NameClass wide) {c : Char} (hc : wide c = true) :
    isQuote c = false := by
  rw [← Bool.not_eq_true]
  intro hq
  rw [hwide.no_quote c hq] at hc
  cases hc

lemma NameAt.fill_before (hwide : NameClass wide) (h : NameAt wide before name after) :
    fill (before ++ (name ++ after)) rows columns =
      fill before rows columns ++ fill (name ++ after) rows columns := by
  -- A name outside spans stands behind closed spans only.
  have hopen : openAfter none before = none := by
    obtain ⟨c, rest, hname⟩ := List.exists_cons_of_ne_nil h.ne_nil
    have hget : (before ++ (name ++ after))[before.length]? = some c := by
      rw [List.getElem?_append_right (Nat.le_refl _), Nat.sub_self, hname]
      rfl
    have hc : isQuote c = false := hwide.isQuote_eq_false (h.all c (by simp [hname]))
    have hbefore := openAfter_of_not_inSpan hget hc h.outside
    rwa [List.take_left] at hbefore
  have hcut : fillWithin none (before ++ (name ++ after)) rows columns =
      fillWithin none before rows columns ++
        fillWithin (openAfter none before) (name ++ after) rows columns :=
    fillWithin_append (by simp) (Or.inr fun c hc => hwide.isNameChar_eq_false (h.left c hc))
  rw [hopen] at hcut
  exact hcut

lemma filled_eq_text_iff {piece : Piece} : piece.filled rows columns = piece.text ↔
    ∀ a, piece.reference? = some a → movedText rows columns a = piece.text := by
  rw [Piece.filled]
  cases piece.reference? with
  | none => simp
  | some a => simp

/-- In front of a character that no name holds, a changed run changes the text. -/
lemma filled_append_eq_iff {run s t : Text} {d : Char} (hrun : IsRun run)
    (hd : isNameChar d = false) (next : Option Char) :
    (Piece.run run next).filled rows columns ++ d :: s = run ++ d :: t ↔
      (Piece.run run next).filled rows columns = run ∧ s = t := by
  constructor
  · intro h
    have hhead {u : Text} : ∀ c ∈ (d :: u).head?, isNameChar c = false :=
      Text.forall_head?_cons.mpr hd
    have hfilled : (Piece.run run next).filled rows columns = run := by
      rcases filled_cases hrun next rows columns with himage | hlost
      · rw [← Text.takeWhile_run himage.all hhead, h, Text.takeWhile_run hrun.all hhead]
      · obtain ⟨c, run, rfl⟩ := List.exists_cons_of_ne_nil hrun.ne_nil
        rw [hlost] at h
        have hc := hrun.all c List.mem_cons_self
        rw [← (List.cons.inj h).1] at hc
        cases hc
    rw [hfilled] at h
    exact ⟨hfilled, (List.cons.inj (List.append_cancel_left h)).2⟩
  · rintro ⟨hfilled, rfl⟩
    rw [hfilled]

/-- The parts of a name, up to the character behind it, and when all of them are kept. -/
lemma exists_parts (hname : ∀ c ∈ name, isQuote c = false)
    (hafter : ∀ c ∈ after.head?, isNameChar c = false) :
    ∃ parts, pieces (name ++ after) = parts ++ pieces after ∧ parts.flatMap Piece.text = name ∧
      ∀ rows columns, parts.flatMap (Piece.filled rows columns) = name ↔
        ∀ piece ∈ parts, piece.filled rows columns = piece.text := by
  have hread : Read none name := read_text (by simp) name
  generalize hspan : (none : Option Char) = span at hread
  induction hread with
  | nil => exact ⟨[], rfl, rfl, by simp⟩
  | @char span c s hquote hc h ih =>
    subst hspan
    obtain ⟨hq, hs⟩ := List.forall_mem_cons.mp hname
    obtain ⟨parts, hpieces, htext, hkept⟩ := ih hs (spanBehind_of_isQuote hq).symm
    refine ⟨.mark c :: parts, ?_, ?_, ?_⟩
    · rw [List.cons_append, pieces_mark hq (hc rfl), hpieces, List.cons_append]
    · rw [List.flatMap_cons, htext]
      rfl
    · intro rows columns
      rw [List.forall_mem_cons, ← hkept rows columns, List.flatMap_cons]
      exact ⟨fun h => ⟨rfl, (List.cons.inj h).2⟩, fun ⟨_, h⟩ => congrArg (c :: ·) h⟩
  | @last run hrun =>
    refine ⟨[.run run after.head?], pieces_run_append hrun hafter, by simp [Piece.text], ?_⟩
    intro rows columns
    simp [Piece.text]
  | @run run d s hrun hd h ih =>
    obtain ⟨-, hq, hs⟩ : _ ∧ _ ∧ _ := by
      simpa only [List.forall_mem_append, List.forall_mem_cons] using hname
    obtain ⟨parts, hpieces, htext, hkept⟩ := ih hs (spanBehind_of_isQuote hq).symm
    have hhead : ∀ c ∈ (d :: (s ++ after)).head?, isNameChar c = false :=
      Text.forall_head?_cons.mpr hd
    refine ⟨.run run (some d) :: .mark d :: parts, ?_, ?_, ?_⟩
    · rw [List.append_assoc, List.cons_append, pieces_run_append hrun hhead, pieces_mark hq hd,
        hpieces]
      rfl
    · rw [List.flatMap_cons, List.flatMap_cons, htext]
      rfl
    · intro rows columns
      rw [List.forall_mem_cons, List.forall_mem_cons, ← hkept rows columns, List.flatMap_cons,
        List.flatMap_cons]
      refine (filled_append_eq_iff hrun hd (some d)).trans ?_
      exact and_congr_right fun _ => ⟨fun h => ⟨rfl, h⟩, fun h => h.2⟩

lemma filled_run_of_parse (next : Option Char) (h : ∀ a, Address.parse name ≠ .ok a) :
    (Piece.run name next).filled rows columns = name := by
  refine filled_eq_text_iff.mpr fun a ha => ?_
  exact absurd (reference?_run_eq_some_iff.mp ha).1 (h a)

/-- A fill takes a name apart at the letters beyond ASCII. It keeps the name exactly when each part
that is a reference moves to its own text, and so always keeps a name of ASCII characters that is no
address. -/
theorem fill_name_kept_iff (hwide : NameClass wide) (h : NameAt wide before name after)
    (rows columns : Int) :
    ∃ parts, pieces (name ++ after) = parts ++ pieces after ∧ parts.flatMap Piece.text = name ∧
      fill (before ++ (name ++ after)) rows columns = fill before rows columns ++
        (parts.flatMap (Piece.filled rows columns) ++ fill after rows columns) ∧
      (parts.flatMap (Piece.filled rows columns) = name ↔ ∀ piece ∈ parts, ∀ a,
        piece.reference? = some a → movedText rows columns a = piece.text) ∧
      ((∀ c ∈ name, isNameChar c = true) → (∀ a, Address.parse name ≠ .ok a) →
        parts.flatMap (Piece.filled rows columns) = name) := by
  have hafter : ∀ c ∈ after.head?, isNameChar c = false :=
    fun c hc => hwide.isNameChar_eq_false (h.right c hc)
  obtain ⟨parts, hpieces, htext, hkept⟩ :=
    exists_parts (fun c hc => hwide.isQuote_eq_false (h.all c hc)) hafter
  refine ⟨parts, hpieces, htext, ?_, ?_, ?_⟩
  · rw [h.fill_before hwide, fill_eq_flatMap (name ++ after), hpieces, List.flatMap_append,
      ← fill_eq_flatMap]
  · simp only [hkept, filled_eq_text_iff]
  · intro hall hparse
    have hone : parts ++ pieces after = [.run name after.head?] ++ pieces after := by
      rw [← hpieces, pieces_run_append ⟨h.ne_nil, hall⟩ hafter, List.singleton_append]
    rw [List.append_cancel_right hone, List.flatMap_singleton, filled_run_of_parse _ hparse]

/-- A name with letters beyond ASCII of which no part is a reference. -/
theorem fill_name_kept_of_parts :
    let wide := fun c : Char => Text.isWord c || c == '.' || c == '$'
    let before := Text.lit "'A1'!B2+"
    let name := Text.lit "Größe_2.A1"
    let after := Text.lit "*C3"
    NameClass wide ∧ NameAt wide before name after ∧
      fill (before ++ (name ++ after)) 1 0 = fill before 1 0 ++ (name ++ fill after 1 0) := by
  intro wide before name after
  have hwide : NameClass wide := by
    refine ⟨fun c hc => ?_, fun c hc => ?_⟩
    · have hascii : ∀ n < 128, isNameChar (Char.ofNat n) = true → wide (Char.ofNat n) = true := by
        decide +kernel
      have hlt : c.toNat < 128 := by
        have hrange := isNameChar_iff.mp hc
        omega
      have hw := hascii c.toNat hlt
      rw [Char.ofNat_toNat] at hw
      exact hw hc
    · rcases isQuote_iff.mp hc with rfl | rfl <;> decide +kernel
  have h : NameAt wide before name after := by
    refine ⟨by decide, List.all_eq_true.mp (by decide +kernel), ?_, ?_, by decide +kernel⟩
    · rintro c ⟨⟩
      decide +kernel
    · rintro c ⟨⟩
      decide +kernel
  obtain ⟨parts, hpieces, htext, hfill, hkept, -⟩ := fill_name_kept_iff hwide h 1 0
  have hparts : parts = [.run (Text.lit "Gr") (some 'ö'), .mark 'ö', .mark 'ß',
      .run (Text.lit "e_2.A1") (some '*')] := by
    have hall : parts ++ pieces after = [.run (Text.lit "Gr") (some 'ö'), .mark 'ö', .mark 'ß',
        .run (Text.lit "e_2.A1") (some '*')] ++ pieces after := by
      rw [← hpieces]
      decide +kernel
    exact List.append_cancel_right hall
  refine ⟨hwide, h, ?_⟩
  rw [hfill, hkept.mpr]
  have hnone : ∀ piece ∈ parts, piece.reference? = none := by
    rw [hparts]
    decide +kernel
  intro piece hp a ha
  rw [hnone piece hp] at ha
  cases ha

/-- With whichever class of letters, a fill does not keep all names: the end of this one is moved as
a reference. -/
theorem not_fill_keeps_accented_name : ¬∃ wide, NameClass wide ∧ wide 'é' = true ∧
    ∀ (before name after : Text) (rows columns : Int), NameAt wide before name after →
      (∀ a, Address.parse name ≠ .ok a) → fill (before ++ (name ++ after)) rows columns =
        fill before rows columns ++ (name ++ fill after rows columns) := by
  rintro ⟨wide, hwide, hletter, hkeep⟩
  have hname : NameAt wide [] (Text.lit "éA1") [] := by
    refine ⟨by decide, ?_, by simp, by simp, by decide +kernel⟩
    intro c hc
    rcases List.mem_cons.mp hc with rfl | hc
    · exact hletter
    · exact hwide.name c (List.all_eq_true.mp (by decide) c hc)
  have hparse : ∀ a, Address.parse (Text.lit "éA1") ≠ .ok a := by
    intro a ha
    have hnone : (Address.parse (Text.lit "éA1")).toOption = none := by decide +kernel
    rw [ha] at hnone
    cases hnone
  have hsame := hkeep [] (Text.lit "éA1") [] 1 0 hname hparse
  have hmoved : fill ([] ++ (Text.lit "éA1" ++ [])) 1 0 = Text.lit "éA2" := by decide +kernel
  rw [hmoved] at hsame
  exact absurd hsame (by decide +kernel)

end SheetGloss.Formula
