import SheetGloss.Proofs.CallSearch

/-!
# Where a call stands

A call of an aggregate stands at an opening parenthesis that the next parenthesis closes, with the
name of the aggregate right before it. The search finds the first place where one stands: calls of
other functions that it passes over never hide a later call.
-/

namespace SheetGloss.Aggregate

/-- The character before place `p` of a text that stands behind the character `before`. -/
def charBefore (before : Option Char) (s : Text) : Nat → Option Char
  | 0 => before
  | p + 1 => s[p]?

/-- At place `p` begins what may be the name of a call, up to the end of the text: a capital at a
word boundary, and from there on call characters only. -/
structure BeginsName (before : Option Char) (s : Text) (p : Nat) : Prop where
  upper : ∃ c ∈ s[p]?, c.isUpper = true
  boundary : ∀ c ∈ charBefore before s p, Text.isWord c = false
  call : ∀ c ∈ s.drop p, isCallChar c = true

/-- At place `k` of a text that stands behind the character `before`, an aggregate is called with
an argument: the next parenthesis closes the one at `k`, and the name up to it, from the first place
where one begins, is the name of the aggregate. -/
structure CallAt (before : Option Char) (s : Text) (k : Nat) (aggregate : Aggregate)
    (argument : Text) : Prop where
  parentheses : ∃ rest, s.drop k = '(' :: (argument ++ ')' :: rest)
  plain : ∀ c ∈ argument, isPlain c = true
  named : ∃ p, BeginsName before (s.take k) p ∧ (∀ q < p, ¬BeginsName before (s.take k) q) ∧
    (s.take k).drop p = aggregate.name

/-- The first call of a text stands at place `k`. -/
structure FirstCallAt (before : Option Char) (s : Text) (k : Nat) (aggregate : Aggregate)
    (argument : Text) : Prop where
  call : CallAt before s k aggregate argument
  first : ∀ j < k, ∀ other text, ¬CallAt before s j other text

/-- The result of a search is the first call of a text, or there is none. -/
def Finds (before : Option Char) (s : Text) : Option (Aggregate × Text) → Prop
  | none => ∀ k aggregate argument, ¬CallAt before s k aggregate argument
  | some (aggregate, argument) => ∃ k, CallAt before s k aggregate argument ∧
      ∀ j < k, ∀ other text, ¬CallAt before s j other text

variable {before : Option Char} {s w argument rest : Text} {j k : Nat} {aggregate : Aggregate}

/-! ### The name before a parenthesis -/

lemma beginsName_zero {c : Char} : BeginsName before (c :: s) 0 ↔
    (c.isUpper && !before.any Text.isWord && s.all isCallChar) = true := by
  have hboundary : (!before.any Text.isWord) = true ↔ ∀ d ∈ before, Text.isWord d = false := by
    cases before <;> simp
  rw [Bool.and_eq_true, Bool.and_eq_true, hboundary, List.all_eq_true]
  constructor
  · rintro ⟨⟨d, hd, hupper⟩, hbefore, hcall⟩
    cases hd
    exact ⟨⟨hupper, hbefore⟩, (List.forall_mem_cons.mp hcall).2⟩
  · rintro ⟨⟨hupper, hbefore⟩, hcall⟩
    exact ⟨⟨c, rfl, hupper⟩, hbefore,
      List.forall_mem_cons.mpr ⟨isCallChar_of_isUpper hupper, hcall⟩⟩

lemma beginsName_succ {c : Char} {p : Nat} :
    BeginsName before (c :: s) (p + 1) ↔ BeginsName (some c) s p := by
  have hbefore : charBefore before (c :: s) (p + 1) = charBefore (some c) s p := by
    cases p <;> rfl
  constructor
  · rintro ⟨hupper, hboundary, hcall⟩
    exact ⟨hupper, hbefore ▸ hboundary, hcall⟩
  · rintro ⟨hupper, hboundary, hcall⟩
    exact ⟨hupper, hbefore ▸ hboundary, hcall⟩

/-- The name in which a text ends is the one from the first place where one begins. -/
lemma nameEnding?_eq_some_iff {name : Text} : nameEnding? before s = some name ↔
    ∃ p, BeginsName before s p ∧ (∀ q < p, ¬BeginsName before s q) ∧ s.drop p = name := by
  induction s generalizing before with
  | nil =>
    rw [nameEnding?]
    refine iff_of_false (by simp) ?_
    rintro ⟨p, ⟨⟨c, hc, -⟩, -, -⟩, -⟩
    cases hc
  | cons c s ih =>
    rw [nameEnding?]
    by_cases hzero : BeginsName before (c :: s) 0
    · rw [if_pos (beginsName_zero.mp hzero)]
      constructor
      · intro h
        exact ⟨0, hzero, by simp, Option.some.inj h⟩
      · rintro ⟨p, -, hfirst, rfl⟩
        cases p with
        | zero => rfl
        | succ p => exact absurd hzero (hfirst 0 (Nat.succ_pos p))
    · rw [if_neg (mt beginsName_zero.mpr hzero), ih]
      constructor
      · rintro ⟨p, hp, hfirst, rfl⟩
        refine ⟨p + 1, beginsName_succ.mpr hp, ?_, rfl⟩
        intro q hq
        cases q with
        | zero => exact hzero
        | succ q => exact mt beginsName_succ.mp (hfirst q (Nat.lt_of_succ_lt_succ hq))
      · rintro ⟨p, hp, hfirst, rfl⟩
        cases p with
        | zero => exact absurd hp hzero
        | succ p =>
          refine ⟨p, beginsName_succ.mp hp, ?_, rfl⟩
          exact fun q hq => mt beginsName_succ.mpr (hfirst (q + 1) (Nat.succ_lt_succ hq))

lemma ofName?_eq_some_iff : ofName? s = some aggregate ↔ s = aggregate.name := by
  constructor
  · intro h
    rw [ofName?] at h
    have hname := List.find?_some h
    exact (beq_iff_eq.mp hname).symm
  · rintro rfl
    cases aggregate <;> decide

/-! ### One parenthesis -/

lemma callAt_iff : CallAt before s k aggregate argument ↔
    (∃ rest, s.drop k = '(' :: (argument ++ ')' :: rest)) ∧ (∀ c ∈ argument, isPlain c = true) ∧
      (nameEnding? before (s.take k)).bind ofName? = some aggregate := by
  simp only [Option.bind_eq_some_iff, ofName?_eq_some_iff, exists_eq_right, nameEnding?_eq_some_iff]
  exact ⟨fun h => ⟨h.parentheses, h.plain, h.named⟩, fun ⟨hp, ha, hn⟩ => ⟨hp, ha, hn⟩⟩

lemma eq_of_append_paren {a b s t : Text} {c d : Char} (ha : ∀ x ∈ a, isPlain x = true)
    (hb : ∀ x ∈ b, isPlain x = true) (hc : isPlain c = false) (hd : isPlain d = false)
    (h : a ++ c :: s = b ++ d :: t) : a = b ∧ c = d := by
  have hab : a = b := by
    rw [← Text.takeWhile_run ha (Text.forall_head?_cons.mpr hc), h,
      Text.takeWhile_run hb (Text.forall_head?_cons.mpr hd)]
  subst hab
  exact ⟨rfl, (List.cons.inj (List.append_cancel_left h)).1⟩

lemma CallAt.unique {other : Aggregate} {text : Text} (h : CallAt before s k aggregate argument)
    (h' : CallAt before s k other text) : aggregate = other ∧ argument = text := by
  obtain ⟨⟨rest, hrest⟩, hplain, hname⟩ := callAt_iff.mp h
  obtain ⟨⟨rest', hrest'⟩, hplain', hname'⟩ := callAt_iff.mp h'
  rw [hname] at hname'
  rw [hrest] at hrest'
  exact ⟨Option.some.inj hname',
    (eq_of_append_paren hplain hplain' rfl rfl (List.cons.inj hrest').2).1⟩

lemma CallAt.getElem?_paren (h : CallAt before s k aggregate argument) : s[k]? = some '(' := by
  obtain ⟨rest, hrest⟩ := h.parentheses
  rw [← List.head?_drop, hrest, List.head?_cons]

lemma CallAt.mem (h : CallAt before s k aggregate argument) : '(' ∈ s.drop k := by
  obtain ⟨rest, hrest⟩ := h.parentheses
  rw [hrest]
  exact List.mem_cons_self

/-- Behind a character that no name of a call holds the calls are those of the rest. -/
lemma callAt_behind_iff {d : Char} (hd : isCallChar d = false) :
    CallAt before (w ++ d :: s) (w.length + 1 + j) aggregate argument ↔
      CallAt (some d) s j aggregate argument := by
  have hdrop : (w ++ d :: s).drop (w.length + 1 + j) = s.drop j := by
    rw [← List.drop_drop, ← List.drop_drop, List.drop_left, List.drop_one, List.tail_cons]
  have htake : (w ++ d :: s).take (w.length + 1 + j) = w ++ d :: s.take j := by
    rw [Nat.add_assoc, List.take_length_add_append, Nat.add_comm 1 j, List.take_succ_cons]
  rw [callAt_iff, callAt_iff, hdrop, htake, nameEnding?_append hd]

/-- Behind a parenthesis the calls are those of the rest. -/
lemma callAt_append_iff {d : Char} (hd : isPlain d = false) :
    CallAt before (w ++ d :: s) (w.length + 1 + j) aggregate argument ↔
      CallAt (some d) s j aggregate argument := callAt_behind_iff (isCallChar_paren hd)

/-- Up to the first parenthesis no call stands: a call is at this parenthesis or behind it. -/
lemma CallAt.cases {d : Char} (hw : ∀ c ∈ w, isPlain c = true) (hd : isPlain d = false)
    (h : CallAt before (w ++ d :: s) k aggregate argument) :
    k = w.length ∨ ∃ j, k = w.length + 1 + j ∧ CallAt (some d) s j aggregate argument := by
  rcases Nat.lt_trichotomy k w.length with hlt | heq | hgt
  · obtain ⟨rest, hrest⟩ := h.parentheses
    rw [List.drop_append_of_le_length (Nat.le_of_lt hlt), List.drop_eq_getElem_cons hlt] at hrest
    have hparen := hw w[k] (List.getElem_mem hlt)
    rw [(List.cons.inj hrest).1] at hparen
    cases hparen
  · exact Or.inl heq
  · right
    obtain ⟨j, rfl⟩ := Nat.exists_eq_add_of_le hgt
    exact ⟨j, rfl, (callAt_append_iff hd).mp h⟩

lemma callAt_length_iff {d : Char} : CallAt before (w ++ d :: s) w.length aggregate argument ↔
    (d = '(' ∧ ∃ rest, s = argument ++ ')' :: rest) ∧ (∀ c ∈ argument, isPlain c = true) ∧
      (nameEnding? before w).bind ofName? = some aggregate := by
  simp only [callAt_iff, List.drop_left, List.take_left, List.cons.injEq, exists_and_left]

lemma not_callAt_close : ¬CallAt before (w ++ ')' :: s) w.length aggregate argument := by
  intro h
  obtain ⟨⟨hparen, -⟩, -, -⟩ := callAt_length_iff.mp h
  cases hparen

lemma not_callAt_unclosed (hs : ∀ c ∈ s, isPlain c = true) :
    ¬CallAt before (w ++ '(' :: s) w.length aggregate argument := by
  intro h
  obtain ⟨⟨-, rest, rfl⟩, -, -⟩ := callAt_length_iff.mp h
  have hparen := hs ')' (by simp)
  cases hparen

lemma not_callAt_reopen (hs : ∀ c ∈ s, isPlain c = true) :
    ¬CallAt before (w ++ '(' :: (s ++ '(' :: rest)) w.length aggregate argument := by
  intro h
  obtain ⟨⟨-, rest', hrest⟩, htext, -⟩ := callAt_length_iff.mp h
  have hparen := (eq_of_append_paren hs htext rfl rfl hrest).2
  cases hparen

lemma not_callAt_of_name {d : Char} (hname : (nameEnding? before w).bind ofName? = none) :
    ¬CallAt before (w ++ d :: s) w.length aggregate argument := by
  intro h
  obtain ⟨-, -, hcall⟩ := callAt_length_iff.mp h
  rw [hname] at hcall
  cases hcall

/-- When no call stands at the first parenthesis, the first call of the rest is the first one. -/
lemma FirstCallAt.behind {d : Char} (hw : ∀ c ∈ w, isPlain c = true) (hd : isPlain d = false)
    (hno : ∀ aggregate argument, ¬CallAt before (w ++ d :: s) w.length aggregate argument)
    (h : FirstCallAt (some d) s k aggregate argument) :
    FirstCallAt before (w ++ d :: s) (w.length + 1 + k) aggregate argument := by
  refine ⟨(callAt_append_iff hd).mpr h.call, ?_⟩
  intro j hj other text hcall
  rcases hcall.cases hw hd with rfl | ⟨i, rfl, hi⟩
  · exact hno other text hcall
  · exact h.first i (by omega) other text hi

lemma FirstCallAt.here {d : Char} (hw : ∀ c ∈ w, isPlain c = true) (hd : isPlain d = false)
    (h : CallAt before (w ++ d :: s) w.length aggregate argument) :
    FirstCallAt before (w ++ d :: s) w.length aggregate argument := by
  refine ⟨h, ?_⟩
  intro j hj other text hcall
  rcases hcall.cases hw hd with rfl | ⟨i, rfl, -⟩ <;> omega

namespace Finds

lemma of_plain (hs : ∀ c ∈ s, isPlain c = true) : Finds before s none := by
  intro k aggregate argument h
  have hparen := hs '(' (List.mem_of_mem_drop h.mem)
  cases hparen

/-- When no call stands at the first parenthesis, the first call is the one of the rest. -/
lemma behind {d : Char} {result : Option (Aggregate × Text)} (hw : ∀ c ∈ w, isPlain c = true)
    (hd : isPlain d = false)
    (hno : ∀ aggregate argument, ¬CallAt before (w ++ d :: s) w.length aggregate argument)
    (h : Finds (some d) s result) : Finds before (w ++ d :: s) result := by
  cases result with
  | none =>
    intro k aggregate argument hk
    rcases hk.cases hw hd with rfl | ⟨j, rfl, hj⟩
    · exact hno aggregate argument hk
    · exact h j aggregate argument hj
  | some call =>
    obtain ⟨k, hk, hfirst⟩ := h
    obtain ⟨hcall, hbefore⟩ := FirstCallAt.behind hw hd hno ⟨hk, hfirst⟩
    exact ⟨w.length + 1 + k, hcall, hbefore⟩

lemma here {d : Char} (hw : ∀ c ∈ w, isPlain c = true) (hd : isPlain d = false)
    (h : CallAt before (w ++ d :: s) w.length aggregate argument) :
    Finds before (w ++ d :: s) (some (aggregate, argument)) := by
  obtain ⟨hcall, hbefore⟩ := FirstCallAt.here hw hd h
  exact ⟨w.length, hcall, hbefore⟩

lemma unique {result other : Option (Aggregate × Text)} (h : Finds before s result)
    (h' : Finds before s other) : result = other := by
  rcases result with _ | ⟨aggregate, argument⟩ <;> rcases other with _ | ⟨aggregate', argument'⟩
  · rfl
  · obtain ⟨k, hk, -⟩ := h'
    exact absurd hk (h k aggregate' argument')
  · obtain ⟨k, hk, -⟩ := h
    exact absurd hk (h' k aggregate argument)
  · obtain ⟨j, hj, hfirst⟩ := h
    obtain ⟨k, hk, hfirst'⟩ := h'
    rcases Nat.lt_trichotomy j k with hlt | rfl | hgt
    · exact absurd hj (hfirst' j hlt aggregate argument)
    · obtain ⟨rfl, rfl⟩ := hj.unique hk
      rfl
    · exact absurd hk (hfirst k hgt aggregate' argument')

lemma eq_iff {result other : Option (Aggregate × Text)} (h : Finds before s result) :
    result = other ↔ Finds before s other :=
  ⟨fun heq => heq ▸ h, h.unique⟩

end Finds

/-! ### The search -/

/-- The search goes from parenthesis to parenthesis, and finds the first call. -/
theorem finds_firstCallFrom? (before : Option Char) (s : Text) :
    Finds before s (firstCallFrom? before s) := by
  rcases plain_or_paren s with hs | ⟨w, d, tail, rfl, hw, rfl | rfl⟩
  · rw [firstCallFrom?_of_plain hs]
    exact Finds.of_plain hs
  · rcases plain_or_paren tail with ha | ⟨argument, d, rest, rfl, ha, rfl | rfl⟩
    · rw [firstCallFrom?_unclosed hw ha]
      exact Finds.behind hw rfl (fun _ _ => not_callAt_unclosed ha) (Finds.of_plain ha)
    · rw [firstCallFrom?_reopen hw ha]
      exact Finds.behind hw rfl (fun _ _ => not_callAt_reopen ha)
        (finds_firstCallFrom? (some '(') (argument ++ '(' :: rest))
    · rw [firstCallFrom?_call hw ha]
      have hrest := finds_firstCallFrom? (some ')') rest
      cases hname : (nameEnding? before w).bind ofName? with
      | some aggregate =>
        exact Finds.here hw rfl (callAt_length_iff.mpr ⟨⟨rfl, rest, rfl⟩, ha, hname⟩)
      | none =>
        -- The call of another function is passed over, and no call stands inside it.
        exact Finds.behind hw rfl (fun _ _ => not_callAt_of_name hname)
          (Finds.behind ha rfl (fun _ _ => not_callAt_close) hrest)
  · rw [firstCallFrom?_close hw]
    exact Finds.behind hw rfl (fun _ _ => not_callAt_close)
      (finds_firstCallFrom? (some ')') tail)
termination_by s.length
decreasing_by all_goals (subst_vars; simp only [List.length_append, List.length_cons]; omega)

lemma exists_firstCallAt (h : firstCallFrom? before s = some (aggregate, argument)) :
    ∃ k, FirstCallAt before s k aggregate argument := by
  have hfinds := finds_firstCallFrom? before s
  rw [h] at hfinds
  obtain ⟨k, hcall, hfirst⟩ := hfinds
  exact ⟨k, hcall, hfirst⟩

/-- The first call of a formula is at the first place where a call stands, and there is none exactly
when no call stands anywhere. -/
theorem firstCall?_first (e : Text) :
    (∀ aggregate argument, firstCall? e = some (aggregate, argument) ↔
      ∃ k, CallAt none e k aggregate argument ∧
        ∀ j < k, ∀ other text, ¬CallAt none e j other text) ∧
    (firstCall? e = none ↔ ∀ k aggregate argument, ¬CallAt none e k aggregate argument) := by
  have h := finds_firstCallFrom? none e
  exact ⟨fun _ _ => h.eq_iff, h.eq_iff⟩

/-- A call of another function, two names that are only part of a longer one, and a call. -/
example : firstCall? (Text.lit "MAX(B1)+A.SUM(B1)+éSUM(C1)-1.SUM(D1:E1)") =
    some (.sum, Text.lit "D1:E1") := by
  decide +kernel

end SheetGloss.Aggregate
