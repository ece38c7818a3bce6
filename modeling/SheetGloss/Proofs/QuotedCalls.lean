import SheetGloss.Proofs.FilledCalls
import SheetGloss.Proofs.SpanGloss

/-!
# Calls in strings

The search for a call does not look at quotes. A call that has a gloss is nevertheless never torn by
a string: it stands outside all quoted spans or inside one, and then the text of that span, read on
its own, has the call as its first one.
-/

namespace SheetGloss

namespace Formula

variable {quote : Char} {k : Nat}

/-! ### Places and pieces -/

lemma pieceAt_append (before ps : List Piece) (k : Nat) :
    pieceAt (before ++ ps) ((before.flatMap Piece.text).length + k) = pieceAt ps k := by
  induction before with
  | nil => rw [List.nil_append, List.flatMap_nil, List.length_nil, Nat.zero_add]
  | cons other before ih =>
    rw [List.cons_append, pieceAt, List.flatMap_cons, List.length_append, if_neg (by omega),
      Nat.add_assoc, Nat.add_sub_cancel_left, ih]

lemma exists_of_pieceAt {ps : List Piece} {piece : Piece} (h : pieceAt ps k = some piece) :
    ∃ before after j, ps = before ++ piece :: after ∧ j < piece.text.length ∧
      k = (before.flatMap Piece.text).length + j := by
  induction ps generalizing k with
  | nil => cases h
  | cons other ps ih =>
    rw [pieceAt] at h
    split at h
    · next hk =>
      cases h
      exact ⟨[], ps, k, rfl, hk, (Nat.zero_add k).symm⟩
    · next hk =>
      obtain ⟨before, after, j, rfl, hj, hplace⟩ := ih h
      refine ⟨other :: before, after, j, rfl, hj, ?_⟩
      rw [List.flatMap_cons, List.length_append]
      omega

lemma head?_of_pieceAt_zero {ps : List Piece} {piece : Piece} (h : pieceAt ps 0 = some piece) :
    (ps.flatMap Piece.text).head? = piece.text.head? := by
  induction ps with
  | nil => cases h
  | cons other ps ih =>
    rw [pieceAt] at h
    rw [List.flatMap_cons, List.head?_append]
    split at h
    · next hlength =>
      cases h
      rw [List.head?_eq_getElem?, List.getElem?_eq_getElem hlength, Option.some_or]
    · next hlength =>
      have hnil : other.text = [] := List.eq_nil_of_length_eq_zero (Nat.eq_zero_of_not_pos hlength)
      rw [hnil] at h ⊢
      exact ih h

lemma Piece.quote?_eq_some_iff {piece : Piece} :
    piece.quote? = some quote ↔ ∃ inside, piece = .quoted (quote :: inside) := by
  cases piece with
  | quoted span =>
    rw [Piece.quote?, List.head?_eq_some_iff]
    simp
  | run name next => simp [Piece.quote?]
  | mark c => simp [Piece.quote?]

/-- A span that goes up to a cut between two pieces has its quote there. -/
lemma getElem?_of_spanAt_cut {formula : Text} {front after : List Piece}
    (hpieces : pieces formula = front ++ after)
    (h : spanAt formula (front.flatMap Piece.text).length = some quote) :
    formula[(front.flatMap Piece.text).length]? = some quote := by
  have hplace := pieceAt_append front after 0
  rw [spanAt, hpieces, ← Nat.add_zero (List.length _), hplace] at h
  obtain ⟨piece, hpiece, hquote⟩ := Option.bind_eq_some_iff.mp h
  obtain ⟨inside, rfl⟩ := Piece.quote?_eq_some_iff.mp hquote
  rw [← flatMap_text_pieces formula, hpieces, List.flatMap_append,
    List.getElem?_append_right (Nat.le_refl _), Nat.sub_self, ← List.head?_eq_getElem?,
    head?_of_pieceAt_zero hpiece]
  rfl

end Formula

namespace Aggregate

open Formula

variable {before : Option Char} {s v w argument : Text} {j k : Nat} {aggregate : Aggregate}

/-- The text of a call, from its name to the parenthesis that closes it. -/
def callText (aggregate : Aggregate) (argument : Text) : Text :=
  aggregate.name ++ '(' :: (argument ++ [')'])

lemma CallAt.exists_split (h : CallAt before s k aggregate argument) :
    ∃ front rest, s = front ++ (callText aggregate argument ++ rest) ∧
      front.length + aggregate.name.length = k := by
  obtain ⟨rest, hrest⟩ := h.parentheses
  obtain ⟨p, -, -, hname⟩ := h.named
  obtain ⟨hk, -⟩ := List.getElem?_eq_some_iff.mp h.getElem?_paren
  refine ⟨(s.take k).take p, rest, ?_, ?_⟩
  · have hsplit : (s.take k).take p ++ (s.take k).drop p ++ s.drop k = s := by
      rw [List.take_append_drop, List.take_append_drop]
    rw [hname, hrest] at hsplit
    refine hsplit.symm.trans ?_
    simp [callText]
  · rw [← hname, ← List.length_append, List.take_append_drop, List.length_take,
      Nat.min_eq_left (Nat.le_of_lt hk)]

lemma isCallChar_of_isQuote {c : Char} (h : isQuote c = true) : isCallChar c = false := by
  rw [← Bool.not_eq_true]
  intro hcall
  rw [isQuote_of_isNameChar (isNameChar_of_isCallChar hcall)] at h
  cases h

/-- A call in the front of a text is a call of the whole text, and the other way round. -/
lemma callAt_append_left_iff (hj : j + argument.length + 2 ≤ s.length) :
    CallAt before (s ++ v) j aggregate argument ↔ CallAt before s j aggregate argument := by
  have hle : j ≤ s.length := by omega
  rw [callAt_iff, callAt_iff, List.take_append_of_le_length hle, List.drop_append_of_le_length hle]
  refine and_congr_left fun _ => ?_
  have hsplit {u : Text} : (∃ rest, u = '(' :: (argument ++ ')' :: rest)) ↔
      '(' :: (argument ++ [')']) <+: u := by
    simp [List.prefix_iff_exists_eq_append]
  rw [hsplit, hsplit]
  constructor
  · intro h
    refine List.prefix_of_prefix_length_le h (List.prefix_append _ v) ?_
    simp only [List.length_cons, List.length_append, List.length_nil, List.length_drop]
    omega
  · exact fun h => h.trans (List.prefix_append _ v)

lemma CallAt.length_le (h : CallAt before s j aggregate argument) :
    j + argument.length + 2 ≤ s.length := by
  obtain ⟨front, rest, rfl, rfl⟩ := h.exists_split
  simp only [callText, List.length_append, List.length_cons, List.length_nil]
  omega

/-- Every character of a call at place `k` lies in a span with one quote, or outside all spans. -/
def CallWithin (formula : Text) (k : Nat) (aggregate : Aggregate) (argument : Text)
    (quote? : Option Char) : Prop :=
  ∀ p, k ≤ p + aggregate.name.length → p ≤ k + argument.length + 1 → spanAt formula p = quote?

variable {formula : Text} {quote : Char}

lemma isQuote_of_mem_callText (hargument : ∀ c ∈ argument, isQuote c = false) :
    ∀ c ∈ callText aggregate argument, isQuote c = false := by
  have hname : ∀ c ∈ aggregate.name, isNameChar c = true := by
    apply List.all_eq_true.mp
    cases aggregate <;> decide
  have hclose : ∀ c ∈ [')'], isQuote c = false := List.forall_mem_singleton.mpr rfl
  refine List.forall_mem_append.mpr ⟨fun c hc => isQuote_of_isNameChar (hname c hc), ?_⟩
  exact List.forall_mem_cons.mpr ⟨rfl, List.forall_mem_append.mpr ⟨hargument, hclose⟩⟩

/-- At every place of a call without quotes the same span is open. -/
lemma CallAt.open_place {p : Nat} (h : CallAt before s k aggregate argument)
    (hargument : ∀ c ∈ argument, isQuote c = false) (hfirst : k ≤ p + aggregate.name.length)
    (hlast : p ≤ k + argument.length + 1) : ∃ c, s[p]? = some c ∧ isQuote c = false ∧
      openAfter none (s.take p) = openAfter none (s.take (k - aggregate.name.length)) := by
  obtain ⟨front, rest, rfl, rfl⟩ := h.exists_split
  obtain ⟨i, rfl⟩ := Nat.exists_eq_add_of_le (show front.length ≤ p by omega)
  have hquote : ∀ c ∈ callText aggregate argument, isQuote c = false :=
    isQuote_of_mem_callText hargument
  have hi : i < (callText aggregate argument).length := by
    simp only [callText, List.length_append, List.length_cons, List.length_nil]
    omega
  refine ⟨(callText aggregate argument)[i], ?_, hquote _ (List.getElem_mem hi), ?_⟩
  · rw [List.getElem?_append_right (Nat.le_add_right _ i), Nat.add_sub_cancel_left,
      List.getElem?_append_left hi, List.getElem?_eq_getElem hi]
  · rw [Nat.add_sub_cancel, List.take_left, List.take_length_add_append,
      List.take_append_of_le_length (Nat.le_of_lt hi), openAfter_append]
    exact openAfter_of_not_quote (isQuote_openAfter (by simp) front)
      fun c hc => hquote c (List.mem_of_mem_take hc)

/-- A call without quotes is not torn: where its parenthesis lies, there it lies as a whole. -/
lemma CallAt.within (h : CallAt none formula k aggregate argument)
    (hargument : ∀ c ∈ argument, isQuote c = false) :
    CallWithin formula k aggregate argument (spanAt formula k) := by
  intro p hfirst hlast
  obtain ⟨c, hp, hc, hopen⟩ := h.open_place hargument hfirst hlast
  obtain ⟨d, hk, hd, hopen'⟩ := h.open_place hargument (Nat.le_add_right k _) (by omega)
  rw [spanAt_eq_openAfter hp hc, spanAt_eq_openAfter hk hd, hopen, hopen']

/-- No span with a quote goes up to a cut inside such a call. -/
lemma CallAt.spanAt_ne_of_cut {front after : List Piece}
    (h : CallAt none formula k aggregate argument) (hargument : ∀ c ∈ argument, isQuote c = false)
    (hq : isQuote quote = true) (hpieces : pieces formula = front ++ after)
    (hfirst : k ≤ (front.flatMap Piece.text).length)
    (hlast : (front.flatMap Piece.text).length ≤ k + argument.length + 1) :
    spanAt formula k ≠ some quote := by
  intro hspan
  have hfirst' : k ≤ (front.flatMap Piece.text).length + aggregate.name.length :=
    Nat.le_add_right_of_le hfirst
  obtain ⟨c, hget, hc, -⟩ := h.open_place hargument hfirst' hlast
  have hplace := h.within hargument _ hfirst' hlast
  rw [getElem?_of_spanAt_cut hpieces (hplace.trans hspan)] at hget
  cases hget
  rw [hq] at hc
  cases hc

/-- The first call of a formula lies in a span exactly when it is the first call of the text of that
span. -/
lemma FirstCallAt.spanAt_eq_some_iff (h : FirstCallAt none formula k aggregate argument)
    (hargument : ∀ c ∈ argument, isQuote c = false) (quote : Char) :
    spanAt formula k = some quote ↔
      ∃ before inside after j, pieces formula = before ++ .quoted (quote :: inside) :: after ∧
        k = (before.flatMap Piece.text).length + 1 + j ∧
        FirstCallAt (some quote) inside j aggregate argument := by
  constructor
  · intro hspan
    obtain ⟨c, hparen, hc, -⟩ := h.call.open_place hargument (Nat.le_add_right k _) (by omega)
    have hq : isQuote quote = true := by
      have hnone : ∀ quote ∈ (none : Option Char), isQuote quote = true := by simp
      apply isQuote_openAfter hnone (formula.take k)
      rw [← spanAt_eq_openAfter hparen hc]
      exact hspan
    obtain ⟨piece, hpiece, hquote⟩ := Option.bind_eq_some_iff.mp hspan
    obtain ⟨inside, rfl⟩ := Piece.quote?_eq_some_iff.mp hquote
    obtain ⟨front, after, i, hpieces, hi, rfl⟩ := exists_of_pieceAt hpiece
    obtain ⟨j, rfl⟩ : ∃ j, i = 1 + j := by
      apply Nat.exists_eq_add_of_le
      by_contra hzero
      exact h.call.spanAt_ne_of_cut hargument hq hpieces (by omega) (by omega) hspan
    -- The call ends in the span: else it would hold the quote of the next one.
    have hend : j + argument.length + 2 ≤ inside.length := by
      by_contra hlong
      have hcut : pieces formula = (front ++ [Piece.quoted (quote :: inside)]) ++ after := by
        rw [hpieces, List.append_assoc, List.singleton_append]
      have hlength : ((front ++ [Piece.quoted (quote :: inside)]).flatMap Piece.text).length =
          (front.flatMap Piece.text).length + (inside.length + 1) := by
        simp [Piece.text]
      rw [Piece.text, List.length_cons] at hi
      exact h.call.spanAt_ne_of_cut hargument hq hcut (by omega) (by omega) hspan
    have htext : formula = front.flatMap Piece.text ++
        quote :: (inside ++ after.flatMap Piece.text) := by
      rw [← flatMap_text_pieces formula, hpieces]
      simp [Piece.text]
    have hcall {j : Nat} {other : Aggregate} {text : Text}
        (hlength : j + text.length + 2 ≤ inside.length) :
        CallAt none formula ((front.flatMap Piece.text).length + 1 + j) other text ↔
          CallAt (some quote) inside j other text := by
      rw [htext, callAt_behind_iff (isCallChar_of_isQuote hq), callAt_append_left_iff hlength]
    refine ⟨front, inside, after, j, hpieces, (Nat.add_assoc _ 1 j).symm, ?_, ?_⟩
    · rw [← hcall hend, Nat.add_assoc]
      exact h.call
    · intro l hl other text hother
      exact h.first _ (by omega) other text ((hcall hother.length_le).mpr hother)
  · rintro ⟨front, inside, after, j, hpieces, rfl, hfirst⟩
    have hlength := hfirst.call.length_le
    rw [spanAt, hpieces, Nat.add_assoc, pieceAt_append, pieceAt,
      if_pos (by simp [Piece.text]; omega)]
    rfl

end Aggregate

/-! ### The call of a gloss -/

open Formula Aggregate

lemma Address.isQuote_of_parseColumn {s : Text} {column : UInt16}
    (h : parseColumn s = .ok column) : ∀ c ∈ s, isQuote c = false := by
  obtain ⟨before, after, hsplit, hb, ha⟩ := Text.exists_trim s
  have hrun := isRun_of_parseColumn h
  rw [hsplit]
  refine List.forall_mem_append.mpr ⟨?_, List.forall_mem_append.mpr ⟨?_, ?_⟩⟩
  · exact fun c hc => isQuote_of_isBlank (hb c hc)
  · exact fun c hc => isQuote_of_isNameChar (hrun.all c hc)
  · exact fun c hc => isQuote_of_isBlank (ha c hc)

lemma ColumnSpan.isQuote_of_parse {s : Text} {span : ColumnSpan} (h : parse s = .ok span) :
    ∀ c ∈ s, isQuote c = false := by
  obtain ⟨left, right, rfl, -, -, hfirst, hlast, -⟩ := parse_eq_ok_iff.mp h
  exact List.forall_mem_append.mpr ⟨Address.isQuote_of_parseColumn hfirst,
    List.forall_mem_cons.mpr ⟨rfl, Address.isQuote_of_parseColumn hlast⟩⟩

/-- The call that a gloss says lies as a whole in one quoted span, or outside all spans. It lies in
a span exactly when the text of that span, read on its own, has it as its first call: formulas whose
strings hold no such call are explained by a call outside them. -/
theorem gloss?_call_within {e gloss : Text} {headers : HeaderRow}
    (h : gloss? e headers = some gloss) : ∃ k aggregate argument span quote?,
      FirstCallAt none e k aggregate argument ∧ ColumnSpan.parse argument = .ok span ∧
      gloss = aggregate.gloss span headers ∧ CallWithin e k aggregate argument quote? ∧
      (∀ quote, quote? = some quote ↔
        ∃ before inside after j, pieces e = before ++ .quoted (quote :: inside) :: after ∧
          k = (before.flatMap Piece.text).length + 1 + j ∧
          FirstCallAt (some quote) inside j aggregate argument) ∧
      ∀ quote, (∀ inside, .quoted (quote :: inside) ∈ pieces e →
        firstCallFrom? (some quote) inside = none) → quote? ≠ some quote := by
  simp only [gloss?, Option.bind_eq_bind, Option.bind_eq_some_iff, Option.pure_def,
    Option.some.injEq, Prod.exists] at h
  obtain ⟨aggregate, argument, hcall, span, hspan, hgloss⟩ := h
  have hparse := eq_ok_of_toOption hspan
  have hargument := ColumnSpan.isQuote_of_parse hparse
  obtain ⟨k, hfirst⟩ := exists_firstCallAt hcall
  have hiff := hfirst.spanAt_eq_some_iff hargument
  refine ⟨k, aggregate, argument, span, spanAt e k, hfirst, hparse, hgloss.symm,
    hfirst.call.within hargument, hiff, ?_⟩
  intro quote hnone hquote
  obtain ⟨before, inside, after, j, hpieces, -, hinside⟩ := (hiff quote).mp hquote
  have hno := finds_firstCallFrom? (some quote) inside
  rw [hnone inside (by rw [hpieces]; simp)] at hno
  exact hno j aggregate argument hinside.call

/-- A string that holds parentheses but no call, and a call behind it. -/
theorem gloss?_call_within_behind_string :
    let e := Text.lit "\"(no \"\"SUM\"\")\"&SUM(A2:B2)"
    let headers := HeaderRow.ofList [Text.lit "Price", Text.lit "Qty"]
    gloss? e headers = some (Text.lit "SUM(Price + Qty)") ∧
      ∃ k aggregate argument, FirstCallAt none e k aggregate argument ∧
        CallWithin e k aggregate argument none := by
  intro e headers
  have hgloss : gloss? e headers = some (Text.lit "SUM(Price + Qty)") := by decide +kernel
  obtain ⟨k, aggregate, argument, -, quote?, hcall, -, -, hwithin, -, hno⟩ :=
    gloss?_call_within hgloss
  have hpieces : pieces e = [.quoted (Text.lit "\"(no \"\"SUM\"\")\""), .mark '&',
      .run (Text.lit "SUM") (some '('), .mark '(', .run (Text.lit "A2") (some ':'), .mark ':',
      .run (Text.lit "B2") (some ')'), .mark ')'] := by decide +kernel
  have hnone : quote? = none := by
    rw [Option.eq_none_iff_forall_ne_some]
    intro quote
    apply hno
    intro inside hinside
    rw [hpieces] at hinside
    obtain ⟨rfl, rfl⟩ : quote = '"' ∧ inside = Text.lit "(no \"\"SUM\"\")\"" := by
      simpa [Text.lit] using hinside
    decide +kernel
  rw [hnone] at hwithin
  exact ⟨hgloss, k, aggregate, argument, hcall, hwithin⟩

/-- The search takes the inside of a string for a call. -/
theorem not_gloss?_calls_outside_strings :
    ¬∀ e headers gloss, gloss? e headers = some gloss → ∀ k aggregate argument,
      FirstCallAt none e k aggregate argument → spanAt e k ≠ some '"' := by
  intro hall
  let e := Text.lit "\"SUM(A1:B1)\""
  let headers := HeaderRow.ofList [Text.lit "Price", Text.lit "Qty"]
  have hgloss : gloss? e headers = some (Text.lit "SUM(Price + Qty)") := by decide +kernel
  have hcall : firstCallFrom? none e = some (.sum, Text.lit "A1:B1") := by decide +kernel
  have hplace : ∀ j < e.length, e[j]? = some '(' → spanAt e j = some '"' := by decide +kernel
  obtain ⟨k, hfirst⟩ := exists_firstCallAt hcall
  have hget := hfirst.call.getElem?_paren
  obtain ⟨hlt, -⟩ := List.getElem?_eq_some_iff.mp hget
  exact hall e headers _ hgloss k .sum _ hfirst (hplace k hlt hget)

end SheetGloss
