import SheetGloss.Proofs.CallSearch
import SheetGloss.Proofs.FormulaPieces

/-!
# Texts with replaced names

Two texts are related when the second comes from the first by putting other names in the place of
some whole runs of name characters, none of them right before an opening parenthesis. Such texts
have the same parentheses and the same names before them, so the search for a call takes the same
way through both.
-/

namespace SheetGloss.Formula

/-- The second text is the first with some of its runs replaced as `R` allows. The character behind
both texts is `next`, and the flag tells whether a name character stands before them. -/
inductive Refilled (R : Text → Text → Prop) (next : Option Char) : Bool → Text → Text → Prop where
  | nil (inName : Bool) : Refilled R next inName [] []
  | keep (inName : Bool) (c : Char) {s t : Text} (h : Refilled R next (isNameChar c) s t) :
      Refilled R next inName (c :: s) (c :: t)
  | move {run image s t : Text} (hrun : IsRun run) (himage : IsRun image) (hR : R run image)
      (hnext : ∀ c ∈ s.head?.or next, isNameChar c = false ∧ c ≠ '(')
      (h : Refilled R next true s t) : Refilled R next false (run ++ s) (image ++ t)

namespace Refilled

variable {R : Text → Text → Prop} {next : Option Char} {inName : Bool} {s t : Text}

lemma refl (inName : Bool) (s : Text) : Refilled R next inName s s := by
  induction s generalizing inName with
  | nil => exact nil inName
  | cons c s ih => exact keep inName c (ih (isNameChar c))

/-- In front of a character that is no name character the flag does not matter. -/
lemma of_head (h : Refilled R next false s t) (hs : ∀ c ∈ s.head?, isNameChar c = false) :
    Refilled R next inName s t := by
  cases h with
  | nil => exact nil inName
  | keep _ c h => exact keep inName c h
  | @move run image s t hrun himage hR hnext h =>
    obtain ⟨c, run, rfl⟩ := List.exists_cons_of_ne_nil hrun.ne_nil
    have hc := hrun.all c List.mem_cons_self
    rw [hs c rfl] at hc
    cases hc

lemma keep_append (w : Text) {c : Char} (hc : w.getLast? = some c)
    (h : Refilled R next (isNameChar c) s t) : Refilled R next inName (w ++ s) (w ++ t) := by
  induction w generalizing inName with
  | nil => cases hc
  | cons d w ih =>
    apply keep
    by_cases hw : w = []
    · subst hw
      cases hc
      exact h
    · rw [List.getLast?_cons_of_ne_nil hw] at hc
      exact ih hc

lemma head?_eq (h : Refilled R next true s t) : s.head? = t.head? := by
  cases h <;> rfl

lemma symm (hR : ∀ run image, R run image → R image run) (h : Refilled R next inName s t) :
    Refilled R next inName t s := by
  induction h with
  | nil inName => exact nil inName
  | keep inName c _ ih => exact keep inName c ih
  | move hrun himage hr hnext h ih =>
    refine move himage hrun (hR _ _ hr) ?_ ih
    rw [← h.head?_eq]
    exact hnext

/-- A property of characters that every name character has passes from one text to the other. -/
lemma forall_mem {P : Char → Prop} (hP : ∀ c, isNameChar c = true → P c)
    (h : Refilled R next inName s t) (hs : ∀ c ∈ s, P c) : ∀ c ∈ t, P c := by
  induction h with
  | nil => exact hs
  | keep _ c _ ih =>
    intro d hd
    rcases List.mem_cons.mp hd with rfl | hd
    · exact hs d List.mem_cons_self
    · exact ih (fun e he => hs e (List.mem_cons_of_mem c he)) d hd
  | move _ himage _ _ _ ih =>
    intro d hd
    rcases List.mem_append.mp hd with hd | hd
    · exact hP d (himage.all d hd)
    · exact ih (fun e he => hs e (List.mem_append_right _ he)) d hd

/-- Inside a name nothing is replaced up to the end of the name. -/
lemma eq_of_all (h : Refilled R next true s t)
    (hall : (∀ c ∈ s, isNameChar c = true) ∨ ∀ c ∈ t, isNameChar c = true) : t = s := by
  induction s generalizing t with
  | nil =>
    cases h
    rfl
  | cons c s ih =>
    cases h with
    | keep _ _ h =>
      have hc : isNameChar c = true := by
        rcases hall with hall | hall <;> exact hall c List.mem_cons_self
      rw [hc] at h
      rw [ih h (hall.imp (fun ha d hd => ha d (List.mem_cons_of_mem c hd))
        (fun ha d hd => ha d (List.mem_cons_of_mem c hd)))]

lemma of_cons {c : Char} (hc : isNameChar c = false) (h : Refilled R next inName (c :: s) t) :
    ∃ t', t = c :: t' ∧ Refilled R next false s t' := by
  generalize hs : c :: s = u at h
  cases h with
  | nil => cases hs
  | keep _ d h =>
    cases hs
    rw [hc] at h
    exact ⟨_, rfl, h⟩
  | @move run image v w hrun =>
    obtain ⟨d, run, rfl⟩ := List.exists_cons_of_ne_nil hrun.ne_nil
    obtain ⟨rfl, -⟩ := List.cons.inj hs
    have hd := hrun.all c List.mem_cons_self
    rw [hc] at hd
    cases hd

lemma of_nil (h : Refilled R next inName [] t) : t = [] := by
  generalize hs : ([] : Text) = u at h
  cases h with
  | nil => rfl
  | keep => cases hs
  | move hrun => exact absurd (List.append_eq_nil_iff.mp hs.symm).1 hrun.ne_nil

lemma of_marks {w : Text} (hw : ∀ c ∈ w, isNameChar c = false)
    (h : Refilled R next false (w ++ s) t) : ∃ t', t = w ++ t' ∧ Refilled R next false s t' := by
  induction w generalizing t with
  | nil => exact ⟨t, rfl, h⟩
  | cons c w ih =>
    obtain ⟨t', rfl, ht⟩ := h.of_cons (hw c List.mem_cons_self)
    obtain ⟨t'', rfl, hrest⟩ := ih (fun d hd => hw d (List.mem_cons_of_mem c hd)) ht
    exact ⟨t'', rfl, hrest⟩

lemma eq_of_marks (hs : ∀ c ∈ s, isNameChar c = false) (h : Refilled R next inName s t) :
    t = s := by
  induction s generalizing t inName with
  | nil => exact h.of_nil
  | cons c s ih =>
    obtain ⟨t', rfl, ht⟩ := h.of_cons (hs c List.mem_cons_self)
    rw [ih (fun d hd => hs d (List.mem_cons_of_mem c hd)) ht]

lemma of_name {w : Text} (hw : ∀ c ∈ w, isNameChar c = true)
    (h : Refilled R next true (w ++ s) t) : ∃ t', t = w ++ t' ∧ Refilled R next true s t' := by
  induction w generalizing t with
  | nil => exact ⟨t, rfl, h⟩
  | cons c w ih =>
    rw [List.cons_append] at h
    cases h with
    | keep _ _ h =>
      rw [hw c List.mem_cons_self] at h
      obtain ⟨t', rfl, ht⟩ := ih (fun d hd => hw d (List.mem_cons_of_mem c hd)) h
      exact ⟨t', rfl, ht⟩

/-- A whole run is either kept or replaced. -/
lemma of_run {run : Text} (hrun : IsRun run) (hs : ∀ c ∈ s.head?, isNameChar c = false)
    (h : Refilled R next false (run ++ s) t) : ∃ image t', t = image ++ t' ∧
      Refilled R next true s t' ∧ (image = run ∨ IsRun image ∧ R run image) := by
  generalize hu : run ++ s = u at h
  cases h with
  | nil => exact absurd (List.append_eq_nil_iff.mp hu).1 hrun.ne_nil
  | keep _ c h =>
    obtain ⟨d, run, rfl⟩ := List.exists_cons_of_ne_nil hrun.ne_nil
    rw [List.cons_append] at hu
    cases hu
    rw [hrun.all c List.mem_cons_self] at h
    obtain ⟨t', rfl, ht⟩ := h.of_name fun d hd => hrun.all d (List.mem_cons_of_mem c hd)
    exact ⟨c :: run, t', rfl, ht, Or.inl rfl⟩
  | @move run₁ image s₁ t₁ hrun₁ himage hR hnext h =>
    have hs₁ : ∀ c ∈ s₁.head?, isNameChar c = false := by
      intro c hc
      refine (hnext c ?_).1
      rw [Option.mem_def.mp hc]
      rfl
    have heq : run = run₁ := by
      rw [← Text.takeWhile_run hrun.all hs, hu, Text.takeWhile_run hrun₁.all hs₁]
    subst heq
    rw [List.append_cancel_left hu]
    exact ⟨image, t₁, rfl, h, Or.inr ⟨himage, hR⟩⟩

/-- A character that is no name character cuts both texts in two. -/
lemma cut {p : Char} {w rest : Text} (hp : isNameChar p = false)
    (h : Refilled R next inName (w ++ p :: rest) t) : ∃ w' rest', t = w' ++ p :: rest' ∧
      Refilled R (some p) inName w w' ∧ Refilled R next false rest rest' := by
  generalize hs : w ++ p :: rest = s at h
  induction h generalizing w with
  | nil => simp at hs
  | keep inName c h ih =>
    cases w with
    | nil =>
      cases hs
      rw [hp] at h
      exact ⟨[], _, rfl, nil inName, h⟩
    | cons d w =>
      obtain ⟨rfl, htail⟩ := List.cons.inj hs
      obtain ⟨w', rest', rfl, hw, hrest⟩ := ih htail
      exact ⟨d :: w', rest', rfl, keep inName d hw, hrest⟩
  | @move run image s t hrun himage hR hnext h ih =>
    have hsplit : ∃ v, w = run ++ v ∧ s = v ++ p :: rest := by
      rcases List.append_eq_append_iff.mp hs with ⟨v, rfl, hv⟩ | ⟨v, hv, hrest⟩
      · cases v with
        | nil => exact ⟨[], by simp, hv.symm⟩
        | cons d v =>
          obtain ⟨rfl, -⟩ := List.cons.inj hv
          have hd := hrun.all p (by simp)
          rw [hp] at hd
          cases hd
      · exact ⟨v, hv, hrest⟩
    obtain ⟨v, rfl, rfl⟩ := hsplit
    obtain ⟨w', rest', rfl, hw, hrest⟩ := ih rfl
    refine ⟨image ++ w', rest', by rw [List.append_assoc], move hrun himage hR ?_ hw, hrest⟩
    intro c hc
    apply hnext c
    rw [List.head?_append, List.head?_cons, Option.or_assoc]
    exact hc

/-- Before an opening parenthesis both texts end in the same name. -/
lemma nameEnding?_eq (h : Refilled R (some '(') inName s t) (before : Option Char) :
    Aggregate.nameEnding? before s = Aggregate.nameEnding? before t := by
  induction h generalizing before with
  | nil => rfl
  | @keep inName c s t h ih =>
    rw [Aggregate.nameEnding?, Aggregate.nameEnding?, ih (some c)]
    by_cases hc : c.isUpper = true
    · have hname : isNameChar c = true := isNameChar_of_isCallChar (isCallChar_of_isUpper hc)
      rw [hname] at h
      by_cases hall : s.all Aggregate.isCallChar = true ∨ t.all Aggregate.isCallChar = true
      · have heq : t = s := h.eq_of_all (hall.imp
          (fun ha d hd => isNameChar_of_isCallChar (List.all_eq_true.mp ha d hd))
          (fun ha d hd => isNameChar_of_isCallChar (List.all_eq_true.mp ha d hd)))
        rw [heq]
      · obtain ⟨hs, ht⟩ := not_or.mp hall
        rw [if_neg (by simp [hs]), if_neg (by simp [ht])]
    · rw [if_neg (by simp [hc]), if_neg (by simp [hc])]
  | move hrun himage hR hnext h ih =>
    -- A replaced run is not the name: another character stands between it and the parenthesis.
    cases h with
    | nil => exact absurd rfl (hnext '(' rfl).2
    | keep _ c h =>
      have hc : Aggregate.isCallChar c = false := by
        have hname := (hnext c rfl).1
        rw [← Bool.not_eq_true]
        intro hcall
        rw [isNameChar_of_isCallChar hcall] at hname
        cases hname
      have hrest := ih none
      rw [← List.nil_append (c :: _), Aggregate.nameEnding?_append hc, ← List.nil_append (c :: _),
        Aggregate.nameEnding?_append hc] at hrest
      rw [Aggregate.nameEnding?_append hc, Aggregate.nameEnding?_append hc, hrest]

end Refilled

/-- The searches through both texts find the same aggregate, or both find none, and the arguments of
the two calls are related as the texts are. -/
theorem Refilled.firstCallFrom? {R : Text → Text → Prop} {next : Option Char} {inName : Bool}
    {s t : Text} (h : Refilled R next inName s t) (before : Option Char) :
    Option.Rel (fun p q => p.1 = q.1 ∧ Refilled R (some ')') false p.2 q.2)
      (Aggregate.firstCallFrom? before s) (Aggregate.firstCallFrom? before t) := by
  rcases Aggregate.plain_or_paren s with hs | ⟨w, p, tail, rfl, hw, hp⟩
  · have ht := h.forall_mem (fun c => isPlain_of_isNameChar) hs
    rw [Aggregate.firstCallFrom?_of_plain hs, Aggregate.firstCallFrom?_of_plain ht]
    exact Option.Rel.none
  · obtain ⟨w', tail', rfl, hww, htail⟩ := h.cut (by rcases hp with rfl | rfl <;> decide)
    have hw' := hww.forall_mem (fun c => isPlain_of_isNameChar) hw
    rcases hp with rfl | rfl
    · rcases Aggregate.plain_or_paren tail with ha | ⟨argument, q, rest, rfl, ha, hq⟩
      · have ha' := htail.forall_mem (fun c => isPlain_of_isNameChar) ha
        rw [Aggregate.firstCallFrom?_unclosed hw ha, Aggregate.firstCallFrom?_unclosed hw' ha']
        exact Option.Rel.none
      · have htail₀ := htail
        obtain ⟨argument', rest', rfl, haa, hrest⟩ :=
          htail.cut (by rcases hq with rfl | rfl <;> decide)
        have ha' := haa.forall_mem (fun c => isPlain_of_isNameChar) ha
        rcases hq with rfl | rfl
        · rw [Aggregate.firstCallFrom?_reopen hw ha, Aggregate.firstCallFrom?_reopen hw' ha']
          exact htail₀.firstCallFrom? (some '(')
        · rw [Aggregate.firstCallFrom?_call hw ha, Aggregate.firstCallFrom?_call hw' ha',
            hww.nameEnding?_eq before]
          cases (Aggregate.nameEnding? before w').bind Aggregate.ofName? with
          | none => exact hrest.firstCallFrom? (some ')')
          | some aggregate => exact Option.Rel.some ⟨rfl, haa⟩
    · rw [Aggregate.firstCallFrom?_close hw, Aggregate.firstCallFrom?_close hw']
      exact htail.firstCallFrom? (some ')')
termination_by s.length
decreasing_by all_goals (subst_vars; simp only [List.length_append, List.length_cons]; omega)

end SheetGloss.Formula
