import SheetGloss.Proofs.NameText

/-!
# The search for a call

The search only depends on the parentheses of a text and on what stands right before each opening
one. A text is read parenthesis by parenthesis: an opening parenthesis makes a call when the next
parenthesis closes it, and the name of the call is the one in which the text before it ends.
-/

namespace SheetGloss.Aggregate

/-- The call name in which a text ends, when the character `before` stands in front of the text. It
begins at the first word boundary with a capital from which on there are only call characters. -/
def nameEnding? (before : Option Char) : Text → Option Text
  | [] => none
  | c :: rest =>
    if c.isUpper && !before.any Text.isWord && rest.all isCallChar then some (c :: rest)
    else nameEnding? (some c) rest

variable {w argument rest : Text}

lemma plain_or_paren (s : Text) : (∀ c ∈ s, isPlain c = true) ∨ ∃ w p rest,
    s = w ++ p :: rest ∧ (∀ c ∈ w, isPlain c = true) ∧ (p = '(' ∨ p = ')') := by
  induction s with
  | nil => exact Or.inl (by simp)
  | cons c s ih =>
    by_cases hc : isPlain c = true
    · rcases ih with hs | ⟨w, p, rest, rfl, hw, hp⟩
      · exact Or.inl (List.forall_mem_cons.mpr ⟨hc, hs⟩)
      · exact Or.inr ⟨c :: w, p, rest, rfl, List.forall_mem_cons.mpr ⟨hc, hw⟩, hp⟩
    · refine Or.inr ⟨[], c, s, rfl, by simp, ?_⟩
      simp only [isPlain, Bool.and_eq_true, bne_iff_ne, ne_eq] at hc
      by_cases ho : c = '('
      · exact Or.inl ho
      · exact Or.inr (not_not.mp fun h => hc ⟨ho, h⟩)

lemma isCallChar_paren {paren : Char} (h : isPlain paren = false) : isCallChar paren = false := by
  rw [← Bool.not_eq_true]
  intro hcall
  rw [isPlain_of_isNameChar (isNameChar_of_isCallChar hcall)] at h
  cases h

lemma isCallChar_head?_paren (paren : Char) (h : isPlain paren = false) :
    ∀ c ∈ (paren :: rest).head?, isCallChar c = false := by
  intro c hc
  cases hc
  exact isCallChar_paren h

lemma callAt?_of_not_call {s : Text} (hw : ∀ c ∈ w, isPlain c = true)
    (hn : ¬∀ c ∈ w, isCallChar c = true) : callAt? (w ++ s) = none := by
  have hstop : ∃ d tail, (w ++ s).dropWhile isCallChar = d :: tail ∧ isPlain d = true := by
    induction w with
    | nil => exact absurd (by simp) hn
    | cons c w ih =>
      by_cases hc : isCallChar c = true
      · rw [List.cons_append, List.dropWhile_cons, if_pos hc]
        apply ih (fun d hd => hw d (List.mem_cons_of_mem c hd))
        intro hall
        apply hn
        intro d hd
        rcases List.mem_cons.mp hd with rfl | hd
        · exact hc
        · exact hall d hd
      · rw [List.cons_append, List.dropWhile_cons, if_neg hc]
        exact ⟨c, w ++ s, rfl, hw c List.mem_cons_self⟩
  obtain ⟨d, tail, hd, hplain⟩ := hstop
  unfold callAt?
  rw [hd]
  split
  · next heq =>
    cases heq
    exact absurd hplain (by decide)
  · rfl

lemma callAt?_of_call (hw : ∀ c ∈ w, isCallChar c = true)
    (ha : ∀ c ∈ argument, isPlain c = true) :
    callAt? (w ++ '(' :: (argument ++ ')' :: rest)) = some (w, argument, rest) := by
  have hopen : ∀ c ∈ ('(' :: (argument ++ ')' :: rest)).head?, isCallChar c = false :=
    isCallChar_head?_paren '(' rfl
  have hclose : ∀ c ∈ (')' :: rest).head?, isPlain c = false := by
    intro c hc
    cases hc
    rfl
  simp only [callAt?, Text.dropWhile_run hw hopen, Text.takeWhile_run hw hopen,
    Text.dropWhile_run ha hclose, Text.takeWhile_run ha hclose]

/-- No text before `s` makes a call with the parenthesis at the front of `s`. -/
def Idle (s : Text) : Prop := ∀ w : Text, (∀ c ∈ w, isPlain c = true) → callAt? (w ++ s) = none

lemma idle_of_dropWhile {s : Text} (h : ∀ w : Text, (∀ c ∈ w, isCallChar c = true) →
    callAt? (w ++ s) = none) : Idle s := by
  intro w hw
  by_cases hcall : ∀ c ∈ w, isCallChar c = true
  · exact h w hcall
  · exact callAt?_of_not_call hw hcall

lemma idle_nil : Idle [] := by
  apply idle_of_dropWhile
  intro w hw
  have hend : ∀ c ∈ ([] : Text).head?, isCallChar c = false := by simp
  simp only [callAt?, Text.dropWhile_run hw hend]

lemma idle_close : Idle (')' :: rest) := by
  apply idle_of_dropWhile
  intro w hw
  simp only [callAt?, Text.dropWhile_run hw (isCallChar_head?_paren ')' rfl)]
  rfl

lemma idle_open (h : ∀ after, rest.dropWhile isPlain ≠ ')' :: after) : Idle ('(' :: rest) := by
  apply idle_of_dropWhile
  intro w hw
  simp only [callAt?, Text.dropWhile_run hw (isCallChar_head?_paren '(' rfl)]

lemma firstCallFrom?_of_not_upper {before : Option Char} {c : Char} (h : c.isUpper = false) :
    firstCallFrom? before (c :: rest) = firstCallFrom? (some c) rest := by
  rw [firstCallFrom?, if_neg (by simp [h])]

/-- The search passes over a text without parentheses in front of an idle one. -/
lemma firstCallFrom?_append_idle {s : Text} (hw : ∀ c ∈ w, isPlain c = true) (hs : Idle s)
    (before : Option Char) :
    firstCallFrom? before (w ++ s) = firstCallFrom? (w.getLast?.or before) s := by
  induction w generalizing before with
  | nil => rfl
  | cons c w ih =>
    have hnone : callAt? (c :: (w ++ s)) = none := hs (c :: w) hw
    have hnext := ih (fun d hd => hw d (List.mem_cons_of_mem c hd)) (some c)
    have hlast : (c :: w).getLast?.or before = w.getLast?.or (some c) := by
      cases w <;> simp [List.getLast?_cons]
    rw [hlast, ← hnext, List.cons_append, firstCallFrom?]
    split
    · split
      · next heq =>
        rw [hnone] at heq
        cases heq
      · rfl
    · rfl

lemma firstCallFrom?_of_plain (hw : ∀ c ∈ w, isPlain c = true) (before : Option Char) :
    firstCallFrom? before w = none := by
  rw [← List.append_nil w, firstCallFrom?_append_idle hw idle_nil, firstCallFrom?]

lemma firstCallFrom?_close (hw : ∀ c ∈ w, isPlain c = true) (before : Option Char) :
    firstCallFrom? before (w ++ ')' :: rest) = firstCallFrom? (some ')') rest := by
  rw [firstCallFrom?_append_idle hw idle_close, firstCallFrom?_of_not_upper rfl]

lemma firstCallFrom?_unclosed (hw : ∀ c ∈ w, isPlain c = true)
    (ha : ∀ c ∈ argument, isPlain c = true) (before : Option Char) :
    firstCallFrom? before (w ++ '(' :: argument) = none := by
  have hidle : Idle ('(' :: argument) := by
    apply idle_open
    intro after hd
    have hall : argument.dropWhile isPlain = [] := by
      have h := Text.dropWhile_run ha (show ∀ c ∈ ([] : Text).head?, isPlain c = false by simp)
      rwa [List.append_nil] at h
    rw [hall] at hd
    cases hd
  rw [firstCallFrom?_append_idle hw hidle, firstCallFrom?_of_not_upper rfl,
    firstCallFrom?_of_plain ha]

lemma firstCallFrom?_reopen (hw : ∀ c ∈ w, isPlain c = true)
    (ha : ∀ c ∈ argument, isPlain c = true) (before : Option Char) :
    firstCallFrom? before (w ++ '(' :: (argument ++ '(' :: rest)) =
      firstCallFrom? (some '(') (argument ++ '(' :: rest) := by
  have hidle : Idle ('(' :: (argument ++ '(' :: rest)) := by
    apply idle_open
    intro after hd
    have hstop : (argument ++ '(' :: rest).dropWhile isPlain = '(' :: rest := by
      apply Text.dropWhile_run ha
      intro c hc
      cases hc
      rfl
    rw [hstop] at hd
    cases hd
  rw [firstCallFrom?_append_idle hw hidle, firstCallFrom?_of_not_upper rfl]

/-- At a parenthesis that the next one closes, the search ends if the name before it is the name of
an aggregate, and goes on behind the call if not. -/
lemma firstCallFrom?_call (hw : ∀ c ∈ w, isPlain c = true)
    (ha : ∀ c ∈ argument, isPlain c = true) (before : Option Char) :
    firstCallFrom? before (w ++ '(' :: (argument ++ ')' :: rest)) =
      match (nameEnding? before w).bind ofName? with
      | some aggregate => some (aggregate, argument)
      | none => firstCallFrom? (some ')') rest := by
  induction w generalizing before with
  | nil =>
    rw [List.nil_append, firstCallFrom?_of_not_upper rfl, firstCallFrom?_close ha]
    rfl
  | cons c w ih =>
    have hnext := ih (fun d hd => hw d (List.mem_cons_of_mem c hd)) (some c)
    rw [List.cons_append, firstCallFrom?, nameEnding?]
    by_cases hstart : (c.isUpper && !before.any Text.isWord) = true
    · rw [if_pos hstart]
      by_cases hall : w.all isCallChar = true
      · have hcall : ∀ d ∈ c :: w, isCallChar d = true := by
          intro d hd
          rcases List.mem_cons.mp hd with rfl | hd
          · exact isCallChar_of_isUpper (Bool.and_eq_true_iff.mp hstart).1
          · exact List.all_eq_true.mp hall d hd
        have hat : callAt? (c :: w ++ '(' :: (argument ++ ')' :: rest)) =
            some (c :: w, argument, rest) := callAt?_of_call hcall ha
        rw [List.cons_append] at hat
        rw [if_pos (by rw [hstart, hall]; rfl), Option.bind_some]
        split
        · next heq =>
          rw [hat] at heq
          cases heq
          rfl
        · next heq =>
          rw [hat] at heq
          cases heq
      · have hnone := callAt?_of_not_call (s := '(' :: (argument ++ ')' :: rest)) hw (by
          intro hcall
          exact hall (List.all_eq_true.mpr fun d hd => hcall d (List.mem_cons_of_mem c hd)))
        rw [List.cons_append] at hnone
        rw [if_neg (by simp [hall]), ← hnext]
        split
        · next heq =>
          rw [hnone] at heq
          cases heq
        · rfl
    · rw [if_neg hstart, if_neg (by simp [hstart]), ← hnext]

/-- What stands before a character that no name holds has no part in the name behind it. -/
lemma nameEnding?_append {d : Char} (h : isCallChar d = false) (before : Option Char) (s : Text) :
    nameEnding? before (w ++ d :: s) = nameEnding? (some d) s := by
  induction w generalizing before with
  | nil =>
    have hupper : d.isUpper = false := by
      rw [← Bool.not_eq_true]
      intro hu
      rw [isCallChar_of_isUpper hu] at h
      cases h
    rw [List.nil_append, nameEnding?, if_neg (by simp [hupper])]
  | cons c w ih =>
    rw [List.cons_append, nameEnding?, if_neg (by simp [h]), ih]

end SheetGloss.Aggregate
