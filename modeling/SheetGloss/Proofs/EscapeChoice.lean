import SheetGloss.Proofs.CellEscapes

/-!
# Which escapes are decoded

Escapes can overlap: the underscore that closes one may open another. Decoding replaces the leftmost
escapes that do not overlap and keeps every other character in its place, whatever it resembles. A
single pass that never goes back over what it has read gives the same text.
-/

namespace SheetGloss

namespace Text

lemma toNat_lt_of_hexDigit? {c : Char} {value : Nat} (h : hexDigit? c = some value) :
    c.toNat < 128 := by
  have hall : ∀ last ∈ ['9', 'f', 'F'], c ≤ last → c.toNat < 128 := by
    intro last hlast hle
    have hcode : c.toNat ≤ last.toNat := UInt32.le_iff_toNat_le.mp hle
    simp only [List.mem_cons, List.not_mem_nil, or_false] at hlast
    rcases hlast with rfl | rfl | rfl <;> exact Nat.lt_of_le_of_lt hcode (by decide)
  simp only [hexDigit?, Bool.and_eq_true, decide_eq_true_eq] at h
  split at h
  · next hc => exact hall '9' (by decide) hc.2
  split at h
  · next hc => exact hall 'f' (by decide) hc.2
  split at h
  · next hc => exact hall 'F' (by decide) hc.2
  · cases h

lemma toLower_of_hexDigit? {c : Char} {value : Nat} (h : hexDigit? c = some value) :
    value < 16 ∧ c.toLower = hexDigit value :=
  forall_ascii (P := fun c => ∀ value ∈ hexDigit? c, value < 16 ∧ c.toLower = hexDigit value)
    (by decide +kernel) c (toNat_lt_of_hexDigit? h) value h

lemma toNat_of_charOfCode? {code : Nat} {c : Char} (h : charOfCode? code = some c) :
    c.toNat = code := by
  unfold charOfCode? at h
  by_cases hvalid : code.isValidChar
  · rw [dif_pos hvalid] at h
    cases h
    rfl
  · rw [dif_neg hvalid] at h
    cases h

end Text

namespace Package

/-- An escape of a character begins at a place of a text. -/
def EscapeAt (s : Text) (place : Nat) (c : Char) : Prop :=
  ∃ e : Escape c, (Written.escaped c e).text <+: s.drop place

/-- The leftmost escapes behind a place that do not overlap, in their order: each is the first that
begins behind the one before it. An escape has seven characters. -/
inductive Leftmost (s : Text) : Nat → List (Nat × Char) → Prop where
  | none {start : Nat} (h : ∀ place c, start ≤ place → ¬EscapeAt s place c) : Leftmost s start []
  | next {start place : Nat} {c : Char} {chosen : List (Nat × Char)} (hle : start ≤ place)
      (hat : EscapeAt s place c) (hfirst : ∀ p d, start ≤ p → EscapeAt s p d → place ≤ p)
      (hrest : Leftmost s (place + 7) chosen) : Leftmost s start ((place, c) :: chosen)

/-- The text behind a place with a character in the place of each chosen escape. -/
def replaced (s : Text) (start : Nat) : List (Nat × Char) → Text
  | [] => s.drop start
  | (place, c) :: chosen =>
    (s.drop start).take (place - start) ++ c :: replaced s (place + 7) chosen

/-- As many hexadecimal digits as stand at the front of a text, but no more than four. -/
def digitRun (s : Text) : Text := (s.take 4).takeWhile fun c => (Text.hexDigit? c).isSome

/-- The character of an escape that has these digits, if they are four and an underscore follows. -/
def closed? (digits behind : Text) : Option Char :=
  if digits.length = 4 ∧ behind.head? = some '_' then
    (Text.hexValue? digits).bind Text.charOfCode?
  else none

/-- The text with its escapes decoded in a single pass, in which digits that turn out to belong to
no escape have been read all the same. -/
def onePass : Text → Text
  | '_' :: 'x' :: rest =>
    match closed? (digitRun rest) (rest.drop (digitRun rest).length) with
    | some c => c :: onePass (rest.drop ((digitRun rest).length + 1))
    | none => '_' :: 'x' :: (digitRun rest ++ onePass (rest.drop (digitRun rest).length))
  | c :: rest => c :: onePass rest
  | [] => []
termination_by s => s.length
decreasing_by all_goals (simp only [List.length_drop, List.length_cons]; omega)

variable {s rest : Text} {c d : Char} {start place : Nat} {chosen : List (Nat × Char)}

/-! ### Escapes at a place -/

/-- Four digits that name a character are an escape of it. -/
lemma exists_escape {i j k l : Char}
    (h : (Text.hexValue? [i, j, k, l]).bind Text.charOfCode? = some c) :
    ∃ e : Escape c, e.digits = [i, j, k, l] := by
  obtain ⟨code, hvalue, hchar⟩ := Option.bind_eq_some_iff.mp h
  simp only [Text.hexValue?, List.foldlM_cons, List.foldlM_nil, Option.bind_eq_bind,
    Option.bind_eq_some_iff, Option.map_eq_some_iff, Option.pure_def, Option.some.injEq] at hvalue
  obtain ⟨-, ⟨v₁, h₁, rfl⟩, -, ⟨v₂, h₂, rfl⟩, -, ⟨v₃, h₃, rfl⟩, -, ⟨v₄, h₄, rfl⟩, rfl⟩ := hvalue
  obtain ⟨hlt₁, hlow₁⟩ := Text.toLower_of_hexDigit? h₁
  obtain ⟨hlt₂, hlow₂⟩ := Text.toLower_of_hexDigit? h₂
  obtain ⟨hlt₃, hlow₃⟩ := Text.toLower_of_hexDigit? h₃
  obtain ⟨hlt₄, hlow₄⟩ := Text.toLower_of_hexDigit? h₄
  have hcode := Text.toNat_of_charOfCode? hchar
  refine ⟨⟨[i, j, k, l], by omega, ?_⟩, rfl⟩
  have hdigit₁ : c.toNat / 4096 % 16 = v₁ := by omega
  have hdigit₂ : c.toNat / 256 % 16 = v₂ := by omega
  have hdigit₃ : c.toNat / 16 % 16 = v₃ := by omega
  have hdigit₄ : c.toNat % 16 = v₄ := by omega
  rw [Text.hexFour, hdigit₁, hdigit₂, hdigit₃, hdigit₄, ← hlow₁, ← hlow₂, ← hlow₃, ← hlow₄]
  rfl

lemma escapeAfter?_eq_some_iff : escapeAfter? s = some (c, rest) ↔
    ∃ e : Escape c, s = 'x' :: (e.digits ++ '_' :: rest) := by
  constructor
  · intro h
    unfold escapeAfter? at h
    split at h
    · next i j k l after =>
      obtain ⟨d, hd, heq⟩ := Option.map_eq_some_iff.mp h
      obtain ⟨rfl, rfl⟩ := Prod.mk.inj heq
      obtain ⟨e, he⟩ := exists_escape hd
      exact ⟨e, by rw [he]; rfl⟩
    · cases h
  · rintro ⟨e, rfl⟩
    exact escapeAfter?_escape e rest

lemma length_text_escaped (e : Escape c) : (Written.escaped c e).text.length = 7 := by
  simp [Written.text, e.length_digits]

lemma EscapeAt.length_le (h : EscapeAt s place c) : place + 7 ≤ s.length := by
  obtain ⟨e, hprefix⟩ := h
  have hle := hprefix.length_le
  rw [length_text_escaped, List.length_drop] at hle
  omega

lemma EscapeAt.exists_escapeAfter? (h : EscapeAt s place c) : ∃ after,
    s.drop place = '_' :: after ∧ escapeAfter? after = some (c, s.drop (place + 7)) := by
  obtain ⟨e, tail, htail⟩ := h
  have hbehind : s.drop (place + 7) = tail := by
    rw [← List.drop_drop, ← htail, ← length_text_escaped e, List.drop_left]
  refine ⟨'x' :: (e.digits ++ '_' :: tail), ?_, ?_⟩
  · rw [← htail, Written.text]
    simp only [List.cons_append, List.append_assoc, List.nil_append]
  · rw [hbehind]
    exact escapeAfter?_escape e tail

lemma EscapeAt.unique (h : EscapeAt s place c) (h' : EscapeAt s place d) : c = d := by
  obtain ⟨after, hdrop, hafter⟩ := h.exists_escapeAfter?
  obtain ⟨after', hdrop', hafter'⟩ := h'.exists_escapeAfter?
  obtain rfl : after = after' := (List.cons.inj (hdrop.symm.trans hdrop')).2
  exact (Prod.mk.inj (Option.some.inj (hafter.symm.trans hafter'))).1

lemma decodeEscapes_of_escapeAt (h : EscapeAt s place c) :
    decodeEscapes (s.drop place) = c :: decodeEscapes (s.drop (place + 7)) := by
  obtain ⟨after, hdrop, hafter⟩ := h.exists_escapeAfter?
  rw [hdrop, decodeEscapes_escape hafter]

/-- A character at which no escape begins stays. -/
lemma decodeEscapes_of_not_escapeAt (hdrop : s.drop place = c :: rest)
    (h : ∀ d, ¬EscapeAt s place d) : decodeEscapes (c :: rest) = c :: decodeEscapes rest := by
  by_cases hc : c = '_'
  · subst hc
    refine decodeEscapes_underscore (Option.eq_none_iff_forall_ne_some.mpr ?_)
    rintro ⟨d, after⟩ hafter
    obtain ⟨e, rfl⟩ := escapeAfter?_eq_some_iff.mp hafter
    refine h d ⟨e, after, ?_⟩
    rw [hdrop, Written.text]
    simp only [List.cons_append, List.append_assoc, List.nil_append]
  · exact decodeEscapes_cons hc

/-! ### The leftmost choice -/

/-- Behind a place at which no escape begins the leftmost choice is the one from the next place. -/
lemma Leftmost.of_succ (h : Leftmost s (start + 1) chosen) (hno : ∀ c, ¬EscapeAt s start c) :
    Leftmost s start chosen := by
  have hbehind {p : Nat} {d : Char} (hp : start ≤ p) (hat : EscapeAt s p d) : start + 1 ≤ p := by
    refine Nat.lt_of_le_of_ne hp ?_
    rintro rfl
    exact hno d hat
  cases h with
  | none h => exact .none fun p d hp hat => h p d (hbehind hp hat) hat
  | next hle hat hfirst hrest =>
    exact .next (by omega) hat (fun p d hp hd => hfirst p d (hbehind hp hd) hd) hrest

lemma Leftmost.replaced_eq_cons (h : Leftmost s (start + 1) chosen)
    (hdrop : s.drop start = c :: rest) :
    replaced s start chosen = c :: replaced s (start + 1) chosen := by
  have hrest : s.drop (start + 1) = rest := by
    rw [← List.drop_drop, hdrop, List.drop_one, List.tail_cons]
  cases h with
  | none h => rw [replaced, replaced, hdrop, hrest]
  | @next _ place _ _ hle hat hfirst hbehind =>
    obtain ⟨between, rfl⟩ := Nat.exists_eq_add_of_le hle
    rw [replaced, replaced, hdrop, hrest, show start + 1 + between - start = between + 1 by omega,
      List.take_succ_cons, List.cons_append, Nat.add_sub_cancel_left]

/-- Behind every place there is a leftmost choice, and decoding replaces it. -/
lemma exists_leftmost (s : Text) (start : Nat) :
    ∃ chosen, Leftmost s start chosen ∧ decodeEscapes (s.drop start) = replaced s start chosen := by
  -- The induction is on what is left of the text, and goes past an escape or past a character.
  induction hn : s.length - start using Nat.strong_induction_on generalizing start with
  | _ n ih =>
    subst hn
    cases hdrop : s.drop start with
    | nil =>
      have hlength : s.length ≤ start := List.drop_eq_nil_iff.mp hdrop
      refine ⟨[], .none fun place c hplace hat => ?_, ?_⟩
      · have hle := hat.length_le
        omega
      · rw [decodeEscapes, replaced, hdrop]
    | cons c rest =>
      have hlt : start < s.length := by
        have hlength := congrArg List.length hdrop
        rw [List.length_drop, List.length_cons] at hlength
        omega
      by_cases hat : ∃ d, EscapeAt s start d
      · obtain ⟨d, hat⟩ := hat
        obtain ⟨chosen, hchosen, hdecode⟩ := ih _ (by omega) (start + 7) rfl
        refine ⟨(start, d) :: chosen, .next le_rfl hat (fun p _ hp _ => hp) hchosen, ?_⟩
        rw [← hdrop, decodeEscapes_of_escapeAt hat, hdecode, replaced, Nat.sub_self, List.take_zero,
          List.nil_append]
      · have hno := not_exists.mp hat
        obtain ⟨chosen, hchosen, hdecode⟩ := ih _ (by omega) (start + 1) rfl
        refine ⟨chosen, hchosen.of_succ hno, ?_⟩
        rw [decodeEscapes_of_not_escapeAt hdrop hno, hchosen.replaced_eq_cons hdrop, ← hdecode,
          ← List.drop_drop, hdrop, List.drop_one, List.tail_cons]

lemma Leftmost.unique {other : List (Nat × Char)} (h : Leftmost s start chosen)
    (h' : Leftmost s start other) : chosen = other := by
  induction h generalizing other with
  | none h =>
    cases h' with
    | none => rfl
    | next hle hat => exact absurd hat (h _ _ hle)
  | next hle hat hfirst hrest ih =>
    cases h' with
    | none h => exact absurd hat (h _ _ hle)
    | next hle' hat' hfirst' hrest' =>
      obtain rfl := Nat.le_antisymm (hfirst _ _ hle' hat') (hfirst' _ _ hle hat)
      rw [hat.unique hat', ih hrest']

/-- Each chosen escape makes the text shorter by six characters. -/
lemma Leftmost.length_replaced (h : Leftmost s start chosen) :
    (replaced s start chosen).length + 6 * chosen.length = s.length - start := by
  induction h with
  | none => simp [replaced]
  | next hle hat hfirst hrest ih =>
    have hlength := hat.length_le
    simp only [replaced, List.length_append, List.length_take, List.length_drop, List.length_cons]
    omega

lemma decodeEscapes_eq_self_iff : decodeEscapes s = s ↔ ∀ place c, ¬EscapeAt s place c := by
  obtain ⟨chosen, hchosen, hdecode⟩ := exists_leftmost s 0
  rw [List.drop_zero] at hdecode
  constructor
  · intro heq
    have hlength := hchosen.length_replaced
    rw [← hdecode, heq] at hlength
    obtain rfl : chosen = [] := List.eq_nil_of_length_eq_zero (by omega)
    cases hchosen with
    | none h => exact fun place c => h place c (Nat.zero_le place)
  · intro hno
    obtain rfl := hchosen.unique (.none fun place c _ => hno place c)
    rw [hdecode, replaced, List.drop_zero]

/-! ### The single pass -/

lemma isSome_hexDigit?_of_mem (e : Escape c) :
    ∀ d ∈ e.digits, (Text.hexDigit? d).isSome = true := by
  intro d hd
  have hlow : d.toLower ∈ Text.hexFour c.toNat := e.spelled ▸ List.mem_map_of_mem hd
  have hvalue : ∃ value < 16, Text.hexDigit value = d.toLower := by
    simp only [Text.hexFour, List.mem_cons, List.not_mem_nil, or_false] at hlow
    rcases hlow with h | h | h | h <;> exact ⟨_, Nat.mod_lt _ (by decide), h.symm⟩
  obtain ⟨value, hlt, hdigit⟩ := hvalue
  rw [← Text.hexDigit?_toLower, ← hdigit, Text.hexDigit?_hexDigit hlt]
  rfl

lemma digitRun_escape (e : Escape c) (rest : Text) :
    digitRun (e.digits ++ '_' :: rest) = e.digits := by
  rw [digitRun, ← e.length_digits, List.take_left, List.takeWhile_eq_self_iff]
  exact isSome_hexDigit?_of_mem e

lemma append_digitRun (rest : Text) :
    digitRun rest ++ rest.drop (digitRun rest).length = rest := by
  have hprefix : digitRun rest <+: rest :=
    (List.takeWhile_prefix _).trans (List.take_prefix 4 rest)
  exact List.prefix_iff_eq_append.mp hprefix

/-- The digits that a pass reads behind `_x` tell whether an escape begins there. -/
lemma closed?_eq_some_iff : closed? (digitRun rest) (rest.drop (digitRun rest).length) = some c ↔
    ∃ (e : Escape c) (after : Text), rest = e.digits ++ '_' :: after := by
  constructor
  · intro h
    unfold closed? at h
    split at h
    · next hc =>
      obtain ⟨hfour, hhead⟩ := hc
      obtain ⟨i, j, k, l, hdigits⟩ := List.length_eq_four.mp hfour
      obtain ⟨after, hafter⟩ := List.head?_eq_some_iff.mp hhead
      obtain ⟨e, he⟩ := exists_escape (hdigits ▸ h)
      refine ⟨e, after, ?_⟩
      rw [he, ← hdigits, ← hafter, append_digitRun]
    · cases h
  · rintro ⟨e, after, rfl⟩
    rw [digitRun_escape, List.drop_left, closed?, if_pos ⟨e.length_digits, rfl⟩, e.hexValue?,
      Option.bind_some, Text.charOfCode?_toNat]

lemma decodeEscapes_append {t : Text} (h : '_' ∉ t) (s : Text) :
    decodeEscapes (t ++ s) = t ++ decodeEscapes s := by
  induction t with
  | nil => rfl
  | cons c t ih =>
    obtain ⟨hc, ht⟩ := List.ne_and_not_mem_of_not_mem_cons h
    rw [List.cons_append, decodeEscapes_cons (Ne.symm hc), ih ht, List.cons_append]

lemma not_mem_digitRun (rest : Text) : '_' ∉ digitRun rest := by
  intro hmem
  exact absurd (List.all_eq_true.mp List.all_takeWhile '_' hmem) (by decide)

lemma onePass_eq_decodeEscapes (s : Text) : onePass s = decodeEscapes s := by
  fun_induction onePass s with
  | case1 rest c hclosed ih =>
    obtain ⟨e, after, rfl⟩ := closed?_eq_some_iff.mp hclosed
    rw [ih, decodeEscapes_escape (escapeAfter?_escape e after), digitRun_escape, ← List.drop_drop,
      List.drop_left, List.drop_one, List.tail_cons]
  | case2 rest hclosed ih =>
    -- No escape begins at the underscore, and none in the digits, which hold no underscore.
    have hnone : escapeAfter? ('x' :: rest) = none := by
      refine Option.eq_none_iff_forall_ne_some.mpr ?_
      rintro ⟨c, after⟩ hafter
      obtain ⟨e, he⟩ := escapeAfter?_eq_some_iff.mp hafter
      rw [closed?_eq_some_iff.mpr ⟨e, after, (List.cons.inj he).2⟩] at hclosed
      cases hclosed
    rw [ih, decodeEscapes_underscore hnone, decodeEscapes_cons (by decide),
      ← decodeEscapes_append (not_mem_digitRun rest), append_digitRun]
  | case3 c rest hx ih =>
    rw [ih, decodeEscapes_plain]
    rintro rfl hhead
    obtain ⟨after, rfl⟩ := List.head?_eq_some_iff.mp hhead
    exact hx after rfl rfl
  | case4 => rw [decodeEscapes]

/-! ### What decoding does to a text -/

/-- A text has one leftmost choice of escapes that do not overlap, and decoding replaces these by
their characters and keeps the rest. So it keeps the whole text exactly when no escape begins
anywhere. A single pass that does not go back over what only began like an escape does the same. -/
theorem decodeEscapes_leftmost (s : Text) :
    (∃ chosen, (∀ other, Leftmost s 0 other ↔ other = chosen) ∧
      decodeEscapes s = replaced s 0 chosen) ∧
    (decodeEscapes s = s ↔ ∀ place c, ¬EscapeAt s place c) ∧ onePass s = decodeEscapes s := by
  obtain ⟨chosen, hchosen, hdecode⟩ := exists_leftmost s 0
  refine ⟨⟨chosen, fun other => ⟨fun h => h.unique hchosen, ?_⟩, hdecode⟩,
    decodeEscapes_eq_self_iff, onePass_eq_decodeEscapes s⟩
  rintro rfl
  exact hchosen

/-- Of two escapes that share an underscore the first is decoded; a surrogate and an escape without
its last digit are not. -/
example : decodeEscapes (Text.lit "_x0041_x0042_x005f_x00e9_xd800__x00e_x00E9_") =
    Text.lit "Ax0042_x00e9_xd800__x00eé" := by
  decide +kernel

end Package

end SheetGloss
