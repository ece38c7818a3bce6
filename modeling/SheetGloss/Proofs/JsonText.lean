import SheetGloss.Json.Printer
import SheetGloss.Json.Reader
import SheetGloss.Proofs.NameText
import SheetGloss.Proofs.Runs
import SheetGloss.Proofs.Utf8Text

/-!
# Reading written values

A value that was written is read back, from its compact text and from its text over indented lines:
cut into tokens, either text puts the value together, whatever is still open around it.
-/

namespace SheetGloss.Json

/-! ### Strings -/

/-- A character is escaped by a letter, by its code, or not at all. -/
lemma escapeChar_cases (c : Char) :
    (∃ e, escaped? e = some c ∧ e ≠ 'u' ∧ escapeChar c = ['\\', e]) ∨
      (c < ' ' ∧ escapeChar c = '\\' :: 'u' :: Text.hexFour c.toNat) ∨
      (c ≠ '"' ∧ c ≠ '\\' ∧ ¬c < ' ' ∧ escapeChar c = [c]) := by
  by_cases hshort : c ∈ ['"', '\\', '\x08', '\x0C', '\n', '\r', '\t']
  · simp only [List.mem_cons, List.not_mem_nil, or_false] at hshort
    rcases hshort with rfl | rfl | rfl | rfl | rfl | rfl | rfl
    all_goals exact Or.inl ⟨_, rfl, by decide, rfl⟩
  · simp only [List.mem_cons, List.not_mem_nil, or_false, not_or] at hshort
    obtain ⟨hquote, hslash, hb, hf, hn, hr, ht⟩ := hshort
    have hescape : escapeChar c =
        if c < ' ' then '\\' :: 'u' :: Text.hexFour c.toNat else [c] := by
      simp [escapeChar, hquote, hslash, hb, hf, hn, hr, ht]
    by_cases hlow : c < ' '
    · exact Or.inr (Or.inl ⟨hlow, by rw [hescape, if_pos hlow]⟩)
    · exact Or.inr (Or.inr ⟨hquote, hslash, hlow, by rw [hescape, if_neg hlow]⟩)

section Parts

variable {rest after : Text} {parts : List StringPart}

lemma stringParts?_short {c e : Char} (hc : escaped? e = some c) (he : e ≠ 'u')
    (h : stringParts? rest = some (parts, after)) :
    stringParts? ('\\' :: e :: rest) = some (.char c :: parts, after) := by
  rw [stringParts?]
  · simp [hc, h]
  · intro _ _ _ _ _ hu
    exact absurd hu he

lemma stringParts?_code {c : Char} (hc : c < ' ')
    (h : stringParts? rest = some (parts, after)) :
    stringParts? ('\\' :: 'u' :: (Text.hexFour c.toNat ++ rest)) =
      some (.char c :: parts, after) := by
  have hcode : c.toNat < 32 := hc
  have hvalue := Text.hexValue?_hexFour (Nat.lt_trans hcode (by decide : 32 < 0x10000))
  rw [Text.hexFour] at hvalue ⊢
  simp only [List.cons_append, List.nil_append]
  rw [stringParts?, hvalue, h]
  simp [StringPart.ofUnit, Text.charOfCode?_toNat]

lemma stringParts?_plain {c : Char} (hquote : c ≠ '"') (hslash : c ≠ '\\') (hlow : ¬c < ' ')
    (h : stringParts? rest = some (parts, after)) :
    stringParts? (c :: rest) = some (.char c :: parts, after) := by
  unfold stringParts?
  split
  · next he => cases he
  · next he => exact absurd (List.cons.inj he).1 hquote
  · next he => exact absurd (List.cons.inj he).1 hslash
  · next he => exact absurd (List.cons.inj he).1 hslash
  · next he =>
    obtain ⟨rfl, rfl⟩ := List.cons.inj he
    simp [hlow, hslash, h]

lemma stringParts?_escapeChar (c : Char) (h : stringParts? rest = some (parts, after)) :
    stringParts? (escapeChar c ++ rest) = some (.char c :: parts, after) := by
  rcases escapeChar_cases c with ⟨e, hc, he, hescape⟩ | ⟨hlow, hescape⟩ |
    ⟨hquote, hslash, hlow, hescape⟩
  · rw [hescape]
    exact stringParts?_short hc he h
  · rw [hescape]
    exact stringParts?_code hlow h
  · rw [hescape]
    exact stringParts?_plain hquote hslash hlow h

end Parts

lemma stringParts?_written (s rest : Text) :
    stringParts? (s.flatMap escapeChar ++ '"' :: rest) = some (s.map .char, rest) := by
  induction s with
  | nil => rfl
  | cons c s ih =>
    rw [List.flatMap_cons, List.append_assoc]
    exact stringParts?_escapeChar c ih

lemma joinParts?_char (s : Text) : joinParts? (s.map .char) = some s := by
  induction s with
  | nil => rfl
  | cons c s ih =>
    rw [List.map_cons, joinParts?, ih]
    rfl

/-! ### Numbers -/

/-- What can follow a value in a written text. -/
def Ends (rest : Text) : Prop := ∀ c ∈ rest.head?, c ∈ [',', ']', '}', '\n']

lemma Ends.cons {c : Char} (h : c ∈ [',', ']', '}', '\n']) (rest : Text) : Ends (c :: rest) :=
  fun _ hd => Option.some.inj hd ▸ h

lemma Ends.ne {rest : Text} (h : Ends rest) {c : Char} (hc : c ∉ [',', ']', '}', '\n'])
    (after : Text) : rest ≠ c :: after := by
  rintro rfl
  exact hc (h c rfl)

/-- Only zero is written with a zero in front. -/
lemma head?_ofNat {n : Nat} (h : 0 < n) : (Text.ofNat n).head? ≠ some '0' := by
  induction n using Nat.strong_induction_on with
  | _ n ih =>
    rw [Text.ofNat, Nat.toDigits_eq_if (by decide)]
    by_cases hn : n < 10
    · rw [if_pos hn]
      have hdigits : ∀ k < 10, 0 < k → [Nat.digitChar k].head? ≠ some '0' := by decide
      exact hdigits n hn h
    · rw [if_neg hn]
      have hpos : 0 < n / 10 := by omega
      have hhead := ih (n / 10) (by omega) hpos
      rw [Text.ofNat] at hhead
      obtain ⟨c, digits, hcons⟩ := List.exists_cons_of_ne_nil (Text.ofNat_ne_nil (n / 10))
      rw [Text.ofNat] at hcons
      rw [hcons] at hhead ⊢
      exact hhead

lemma digits?_run {digits rest : Text} (hne : digits ≠ []) (hdigit : ∀ c ∈ digits, c.isDigit = true)
    (h : ∀ c ∈ rest.head?, c.isDigit = false) : digits? (digits ++ rest) = some (digits, rest) := by
  rw [digits?, Text.takeWhile_run hdigit h, Text.dropWhile_run hdigit h, if_neg]
  simpa using hne

lemma number?_ofNat (n : Nat) {rest : Text} (h : Ends rest) :
    number? (Text.ofNat n ++ rest) = some (Text.ofNat n, rest) := by
  have hdigit : ∀ c ∈ Text.ofNat n, c.isDigit = true := fun c hc => Text.isDigit_of_mem_ofNat hc
  have hstop : ∀ c ∈ rest.head?, c.isDigit = false := by
    intro c hc
    have hmem := h c hc
    simp only [List.mem_cons, List.not_mem_nil, or_false] at hmem
    rcases hmem with rfl | rfl | rfl | rfl <;> rfl
  obtain ⟨c, digits, hcons⟩ := List.exists_cons_of_ne_nil (Text.ofNat_ne_nil n)
  have hinteger : integerPart? (Text.ofNat n ++ rest) = some (Text.ofNat n, rest) := by
    by_cases hn : n = 0
    · rw [hn]
      rfl
    · unfold integerPart?
      split
      · next he =>
        rw [hcons] at he
        refine absurd ?_ (head?_ofNat (Nat.pos_of_ne_zero hn))
        rw [hcons, (List.cons.inj he).1]
        rfl
      · exact digits?_run (Text.ofNat_ne_nil n) hdigit hstop
  have hfraction : fractionPart? rest = some ([], rest) := by
    unfold fractionPart?
    split
    · exact absurd rfl (h.ne (by decide) _)
    · rfl
  have hexponent : exponentPart? rest = some ([], rest) := by
    unfold exponentPart?
    split
    · exact absurd rfl (h.ne (by decide) _)
    · exact absurd rfl (h.ne (by decide) _)
    · rfl
  unfold number?
  split
  · next he =>
    rw [hcons] at he hdigit
    obtain ⟨rfl, -⟩ := List.cons.inj he
    exact absurd (hdigit '-' List.mem_cons_self) (by decide)
  · simp [magnitude?, hinteger, hfraction, hexponent]

/-! ### Tokens -/

section Tokens

variable {rest after : Text}

lemma tokens?_mark {c : Char} {token : Token} (h : mark? c = some token) :
    tokens? (c :: rest) = (tokens? rest).map (token :: ·) := by
  have hc : c ∈ ['{', '}', '[', ']', ':', ','] := by
    unfold mark? at h
    split at h
    all_goals first | decide | cases h
  have hclass : isSpace c = false ∧ (c == '"') = false ∧ c ∉ ['n', 't', 'f'] := by
    simp only [List.mem_cons, List.not_mem_nil, or_false] at hc
    rcases hc with rfl | rfl | rfl | rfl | rfl | rfl <;> decide
  obtain ⟨hspace, hquote, hword⟩ := hclass
  rw [tokens?]
  · simp only [hspace, hquote, h, Bool.false_eq_true, if_false]
  · intro _ he _
    exact hword (by simp [he])
  · intro _ he _
    exact hword (by simp [he])
  · intro _ he _
    exact hword (by simp [he])

lemma tokens?_space {c : Char} (h : isSpace c = true) : tokens? (c :: rest) = tokens? rest := by
  have hword : c ∉ ['n', 't', 'f'] := by
    intro hm
    simp only [List.mem_cons, List.not_mem_nil, or_false] at hm
    rcases hm with rfl | rfl | rfl <;> cases h
  rw [tokens?]
  · rw [if_pos h]
  · intro _ he _
    exact hword (by simp [he])
  · intro _ he _
    exact hword (by simp [he])
  · intro _ he _
    exact hword (by simp [he])

lemma tokens?_string {parts : List StringPart} (h : stringParts? rest = some (parts, after)) :
    tokens? ('"' :: rest) = (tokens? after).map (.string (joinParts? parts) :: ·) := by
  have hspace : isSpace '"' = false := by decide
  have hquote : ('"' == '"') = true := by decide
  rw [tokens?]
  · simp only [hspace, hquote, Bool.false_eq_true, if_false, if_true]
    split
    · next hnone =>
      rw [h] at hnone
      cases hnone
    · next hsome =>
      rw [h] at hsome
      cases hsome
      rfl
  · intro _ he
    cases he
  · intro _ he
    cases he
  · intro _ he
    cases he

lemma tokens?_number {c : Char} {digits : Text} (hc : c.isDigit = true)
    (h : number? (c :: rest) = some (digits, after)) :
    tokens? (c :: rest) = (tokens? after).map (.number digits :: ·) := by
  have hother : c ∉ [' ', '\t', '\n', '\r', '"', '{', '}', '[', ']', ':', ',', 'n', 't', 'f'] := by
    intro hm
    simp only [List.mem_cons, List.not_mem_nil, or_false] at hm
    rcases hm with rfl | rfl | rfl | rfl | rfl | rfl | rfl | rfl | rfl | rfl | rfl | rfl | rfl | rfl
    all_goals cases hc
  simp only [List.mem_cons, List.not_mem_nil, or_false, not_or] at hother
  obtain ⟨h1, h2, h3, h4, hquote, h5, h6, h7, h8, h9, h10, hn, ht, hf⟩ := hother
  have hspace : isSpace c = false := by simp [isSpace, h1, h2, h3, h4]
  have hmark : mark? c = none := by
    unfold mark?
    split
    all_goals simp_all
  rw [tokens?]
  · simp only [hspace, beq_eq_false_iff_ne.mpr hquote, hmark, Bool.false_eq_true, if_false]
    split
    · next hnone =>
      rw [h] at hnone
      cases hnone
    · next hsome =>
      rw [h] at hsome
      cases hsome
      rfl
  · intro _ he
    exact absurd he hn
  · intro _ he
    exact absurd he ht
  · intro _ he
    exact absurd he hf

end Tokens

/-! ### Texts of tokens -/

/-- A text that is cut into some tokens, whatever can follow it. -/
def Lexes (s : Text) (tokens : List Token) : Prop :=
  ∀ rest, Ends rest → tokens? (s ++ rest) = (tokens? rest).map (tokens ++ ·)

namespace Lexes

variable {s s' : Text} {tokens tokens' : List Token}

lemma nil : Lexes [] [] := by
  intro rest _
  rw [List.nil_append]
  exact Option.map_id'.symm

lemma blanks {gap : Text} (hgap : ∀ c ∈ gap, isSpace c = true) (h : Lexes s tokens) :
    Lexes (gap ++ s) tokens := by
  induction gap with
  | nil => exact h
  | cons c gap ih =>
    obtain ⟨hc, hgap⟩ := List.forall_mem_cons.mp hgap
    intro rest hrest
    rw [List.cons_append, List.cons_append, tokens?_space hc]
    exact ih hgap rest hrest

lemma append (h : Lexes s tokens) (h' : Lexes s' tokens')
    (hends : ∀ rest, Ends rest → Ends (s' ++ rest)) : Lexes (s ++ s') (tokens ++ tokens') := by
  intro rest hrest
  rw [List.append_assoc, h _ (hends rest hrest), h' rest hrest, Option.map_map]
  congr 1
  funext more
  exact (List.append_assoc _ _ _).symm

lemma mark {c : Char} {token : Token} (hc : mark? c = some token) (h : Lexes s tokens) :
    Lexes (c :: s) (token :: tokens) := by
  intro rest hrest
  rw [List.cons_append, tokens?_mark hc, h rest hrest, Option.map_map]
  rfl

lemma quoted (text : Text) (h : Lexes s tokens) :
    Lexes (Json.quoted (some text) ++ s) (.string (some text) :: tokens) := by
  intro rest hrest
  have hquoted : Json.quoted (some text) = '"' :: (text.flatMap escapeChar ++ ['"']) := rfl
  have hcons : Json.quoted (some text) ++ s ++ rest =
      '"' :: (text.flatMap escapeChar ++ '"' :: (s ++ rest)) := by
    simp [hquoted]
  rw [hcons, tokens?_string (stringParts?_written text _), joinParts?_char, h rest hrest,
    Option.map_map]
  rfl

lemma number (n : Nat) : Lexes (Text.ofNat n) [.number (Text.ofNat n)] := by
  intro rest hrest
  obtain ⟨c, digits, hcons⟩ := List.exists_cons_of_ne_nil (Text.ofNat_ne_nil n)
  have hc : c.isDigit = true :=
    Text.isDigit_of_mem_ofNat (hcons ▸ List.mem_cons_self : c ∈ Text.ofNat n)
  have hnumber := number?_ofNat n hrest
  rw [hcons, List.cons_append] at hnumber
  rw [hcons, List.cons_append, tokens?_number hc hnumber]
  rfl

lemma word {token : Token}
    (h : (s, token) ∈ [(Text.lit "null", Token.null), (Text.lit "true", .boolean true),
      (Text.lit "false", .boolean false)]) : Lexes s [token] := by
  simp only [List.mem_cons, List.not_mem_nil, or_false, Prod.mk.injEq] at h
  intro rest _
  rcases h with ⟨rfl, rfl⟩ | ⟨rfl, rfl⟩ | ⟨rfl, rfl⟩
  · exact tokens?.eq_2 rest
  · exact tokens?.eq_3 rest
  · exact tokens?.eq_4 rest

end Lexes

/-! ### Values -/

/-- Tokens that put a value together, whatever is open around it. -/
def Yields (tokens : List Token) (json : Json) : Prop :=
  ∀ frames, tokens.foldlM Assembly.take ⟨frames, .value⟩ = some ⟨frames, .after json⟩

def Writes (s : Text) (json : Json) : Prop :=
  ∃ tokens, Lexes s tokens ∧ Yields tokens json

lemma Yields.firstItem {tokens : List Token} {json : Json} (h : Yields tokens json)
    (frames : List Frame) : tokens.foldlM Assembly.take ⟨frames, .firstItem⟩ =
      some ⟨.array [] :: frames, .after json⟩ := by
  cases tokens with
  | nil => cases Option.some.inj (h [])
  | cons token rest =>
    rw [← h (.array [] :: frames)]
    cases token with
    | arrayClose => cases h []
    | _ => rfl

/-! ### Printed items and members -/

/-- What a printer puts between two items or members: nothing, or a new line. -/
def IsGap (gap : Text) : Prop := gap = [] ∨ ∃ level, gap = newline level

namespace IsGap

variable {gap : Text}

lemma isSpace (h : IsGap gap) : ∀ c ∈ gap, Json.isSpace c = true := by
  rcases h with rfl | ⟨level, rfl⟩
  · exact nofun
  · intro c hc
    rcases List.mem_cons.mp hc with rfl | hc
    · rfl
    · rw [List.eq_of_mem_replicate hc]
      rfl

lemma ends (h : IsGap gap) {s : Text} (hs : Ends s) : Ends (gap ++ s) := by
  rcases h with rfl | ⟨level, rfl⟩
  · exact hs
  · exact Ends.cons (by decide) _

end IsGap

/-- The further items of an array, with a gap after each comma. -/
def itemsText (gap : Text) (text : Json → Text) (items : List Json) : Text :=
  items.flatMap fun item => ',' :: (gap ++ text item)

/-- A member of an object, with blanks after the colon. -/
def memberText (blanks : Text) (text : Json → Text) (member : Option Text × Json) : Text :=
  quoted member.1 ++ ':' :: (blanks ++ text member.2)

/-- The further members of an object, with a gap after each comma. -/
def membersText (gap blanks : Text) (text : Json → Text) (members : Members) : Text :=
  members.flatMap fun member => ',' :: (gap ++ memberText blanks text member)

lemma compactItems_eq (items : List Json) : compactItems items = itemsText [] compact items := by
  induction items with
  | nil => rfl
  | cons item items ih =>
    rw [compactItems, ih]
    rfl

lemma compactMembers_eq (members : Members) :
    compactMembers members = membersText [] [] compact members := by
  induction members with
  | nil => rfl
  | cons member members ih =>
    rw [compactMembers, ih]
    rfl

lemma prettyItems_eq (level : Nat) (items : List Json) :
    prettyItems level items = itemsText (newline level) (pretty level) items := by
  induction items with
  | nil => rfl
  | cons item items ih =>
    rw [prettyItems, ih]
    rfl

lemma prettyMembers_eq (level : Nat) (members : Members) :
    prettyMembers level members = membersText (newline level) [' '] (pretty level) members := by
  induction members with
  | nil => rfl
  | cons member members ih =>
    rw [prettyMembers, ih, membersText, membersText, List.flatMap_cons, memberText]
    simp

section Printed

variable {text : Json → Text} {gap close blanks : Text} {items : List Json} {members : Members}

lemma ends_items (hclose : IsGap close) (rest : Text) :
    Ends (itemsText gap text items ++ (close ++ [']']) ++ rest) := by
  cases items with
  | nil =>
    rw [itemsText, List.flatMap_nil, List.nil_append, List.append_assoc]
    exact hclose.ends (Ends.cons (by decide) _)
  | cons item items => exact Ends.cons (by decide) _

lemma ends_members (hclose : IsGap close) (rest : Text) :
    Ends (membersText gap blanks text members ++ (close ++ ['}']) ++ rest) := by
  cases members with
  | nil =>
    rw [membersText, List.flatMap_nil, List.nil_append, List.append_assoc]
    exact hclose.ends (Ends.cons (by decide) _)
  | cons member members => exact Ends.cons (by decide) _

/-- The further items of an array up to its end, after any items that came before them. -/
lemma items_written (hgap : IsGap gap) (hclose : IsGap close)
    (h : ∀ item ∈ items, Writes (text item) item) :
    ∃ tokens, Lexes (itemsText gap text items ++ (close ++ [']'])) tokens ∧
      ∀ frames done last, tokens.foldlM Assembly.take ⟨.array done :: frames, .after last⟩ =
        some ⟨frames, .after (.array ((last :: done).reverse ++ items))⟩ := by
  -- Up to the closing bracket and for any items before: only then is the array put together.
  induction items with
  | nil =>
    have hend : Lexes (close ++ [']']) [.arrayClose] := .blanks hclose.isSpace (.mark rfl .nil)
    refine ⟨[.arrayClose], hend, ?_⟩
    intro frames done last
    rw [List.append_nil]
    rfl
  | cons item items ih =>
    obtain ⟨⟨own, hlexes, hyields⟩, hitems⟩ := List.forall_mem_cons.mp h
    obtain ⟨tokens, hrest, hrun⟩ := ih hitems
    refine ⟨.comma :: (own ++ tokens), ?_, ?_⟩
    · have hcons : itemsText gap text (item :: items) ++ (close ++ [']']) =
          ',' :: (gap ++ (text item ++ (itemsText gap text items ++ (close ++ [']'])))) := by
        simp [itemsText]
      rw [hcons]
      exact .mark rfl (.blanks hgap.isSpace
        (hlexes.append hrest fun rest _ => ends_items hclose rest))
    · intro frames done last
      have hcomma : (own ++ tokens).foldlM Assembly.take
          ⟨.array (last :: done) :: frames, .value⟩ = _ :=
        (foldlM_append_of_pure (hyields _)).trans (hrun frames (last :: done) item)
      refine Eq.trans hcomma ?_
      simp

lemma member_lexes {own tokens : List Token} {s name : Text} {value : Json}
    (hblanks : ∀ c ∈ blanks, isSpace c = true) (hvalue : Lexes (text value) own)
    (hrest : Lexes s tokens) (hends : ∀ rest, Ends (s ++ rest)) :
    Lexes (memberText blanks text (some name, value) ++ s)
      (.string (some name) :: .colon :: (own ++ tokens)) := by
  rw [memberText, List.append_assoc, List.cons_append, List.append_assoc]
  exact .quoted name (.mark rfl (.blanks hblanks (hvalue.append hrest fun rest _ => hends rest)))

/-- The further members of an object, up to its end. -/
lemma members_written (hgap : IsGap gap) (hclose : IsGap close)
    (hblanks : ∀ c ∈ blanks, isSpace c = true)
    (h : ∀ member ∈ members, member.1.isSome ∧ Writes (text member.2) member.2) :
    ∃ tokens, Lexes (membersText gap blanks text members ++ (close ++ ['}'])) tokens ∧
      ∀ frames done key last,
        tokens.foldlM Assembly.take ⟨.object done key :: frames, .after last⟩ =
          some ⟨frames, .after (.object (((key, last) :: done).reverse ++ members))⟩ := by
  induction members with
  | nil =>
    have hend : Lexes (close ++ ['}']) [.objectClose] := .blanks hclose.isSpace (.mark rfl .nil)
    refine ⟨[.objectClose], hend, ?_⟩
    intro frames done key last
    rw [List.append_nil]
    rfl
  | cons member members ih =>
    obtain ⟨⟨hkey, own, hlexes, hyields⟩, hmembers⟩ := List.forall_mem_cons.mp h
    obtain ⟨tokens, hrest, hrun⟩ := ih hmembers
    obtain ⟨name, value⟩ := member
    obtain ⟨name, rfl⟩ := Option.isSome_iff_exists.mp hkey
    refine ⟨.comma :: .string (some name) :: .colon :: (own ++ tokens), ?_, ?_⟩
    · have hcons : membersText gap blanks text ((some name, value) :: members) ++ (close ++ ['}']) =
          ',' :: (gap ++ (memberText blanks text (some name, value) ++
            (membersText gap blanks text members ++ (close ++ ['}'])))) := by
        simp [membersText]
      rw [hcons]
      exact .mark rfl (.blanks hgap.isSpace
        (member_lexes hblanks hlexes hrest fun rest => ends_members hclose rest))
    · intro frames done key last
      have hcolon : (own ++ tokens).foldlM Assembly.take
          ⟨.object ((key, last) :: done) (some name) :: frames, .value⟩ = _ :=
        (foldlM_append_of_pure (hyields _)).trans
          (hrun frames ((key, last) :: done) (some name) value)
      refine Eq.trans hcolon ?_
      simp

lemma writes_items {item : Json} (hgap : IsGap gap) (hclose : IsGap close)
    (h : ∀ other ∈ item :: items, Writes (text other) other) :
    Writes ('[' :: (gap ++ text item ++ itemsText gap text items ++ (close ++ [']'])))
      (.array (item :: items)) := by
  obtain ⟨⟨own, hlexes, hyields⟩, hitems⟩ := List.forall_mem_cons.mp h
  obtain ⟨tokens, hrest, hrun⟩ := items_written hgap hclose hitems
  refine ⟨.arrayOpen :: (own ++ tokens), ?_, ?_⟩
  · rw [List.append_assoc, List.append_assoc]
    exact .mark rfl (.blanks hgap.isSpace
      (hlexes.append hrest fun rest _ => ends_items hclose rest))
  · intro frames
    exact (foldlM_append_of_pure (hyields.firstItem frames)).trans (hrun frames [] item)

lemma writes_members {member : Option Text × Json} (hgap : IsGap gap) (hclose : IsGap close)
    (hblanks : ∀ c ∈ blanks, isSpace c = true)
    (h : ∀ other ∈ member :: members, other.1.isSome ∧ Writes (text other.2) other.2) :
    Writes ('{' :: (gap ++ memberText blanks text member ++
      membersText gap blanks text members ++ (close ++ ['}']))) (.object (member :: members)) := by
  obtain ⟨⟨hkey, own, hlexes, hyields⟩, hmembers⟩ := List.forall_mem_cons.mp h
  obtain ⟨tokens, hrest, hrun⟩ := members_written hgap hclose hblanks hmembers
  obtain ⟨name, value⟩ := member
  obtain ⟨name, rfl⟩ := Option.isSome_iff_exists.mp hkey
  refine ⟨.objectOpen :: .string (some name) :: .colon :: (own ++ tokens), ?_, ?_⟩
  · rw [List.append_assoc, List.append_assoc]
    exact .mark rfl (.blanks hgap.isSpace
      (member_lexes hblanks hlexes hrest fun rest => ends_members hclose rest))
  · intro frames
    exact (foldlM_append_of_pure (hyields (.object [] (some name) :: frames))).trans
      (hrun frames [] (some name) value)

end Printed

/-- A value whose strings can be read and whose numbers are natural. -/
inductive Plain : Json → Prop where
  | null : Plain .null
  | boolean (value : Bool) : Plain (.boolean value)
  | number (n : Nat) : Plain (.ofNat n)
  | string (s : Text) : Plain (.ofText s)
  | array {items : List Json} (h : ∀ item ∈ items, Plain item) : Plain (.array items)
  | object {members : Members} (hkeys : ∀ member ∈ members, member.1.isSome)
    (h : ∀ member ∈ members, Plain member.2) : Plain (.object members)

lemma Plain.record {members : List (String × Json)} (h : ∀ member ∈ members, Plain member.2) :
    Plain (.record members) := by
  refine .object ?_ ?_
  all_goals
    intro member hm
    obtain ⟨entry, he, rfl⟩ := List.mem_map.mp hm
  · rfl
  · exact h entry he

/-- A plain value is read from its compact text, and from its text over lines at any level. -/
lemma Plain.writes {json : Json} (h : Plain json) :
    Writes json.compact json ∧ ∀ level, Writes (json.pretty level) json := by
  induction h with
  | null =>
    have hnull : Writes (Text.lit "null") .null := ⟨[.null], .word (by decide), fun _ => rfl⟩
    exact ⟨hnull, fun _ => hnull⟩
  | boolean value =>
    cases value with
    | true =>
      have htrue : Writes (Text.lit "true") (.boolean true) :=
        ⟨[.boolean true], .word (by decide), fun _ => rfl⟩
      exact ⟨htrue, fun _ => htrue⟩
    | false =>
      have hfalse : Writes (Text.lit "false") (.boolean false) :=
        ⟨[.boolean false], .word (by decide), fun _ => rfl⟩
      exact ⟨hfalse, fun _ => hfalse⟩
  | number n =>
    have hnumber : Writes (Text.ofNat n) (.ofNat n) :=
      ⟨[.number (Text.ofNat n)], .number n, fun _ => rfl⟩
    exact ⟨hnumber, fun _ => hnumber⟩
  | string s =>
    have hlexes := Lexes.quoted s .nil
    rw [List.append_nil] at hlexes
    have hstring : Writes (quoted (some s)) (.ofText s) := ⟨[.string (some s)], hlexes, fun _ => rfl⟩
    exact ⟨hstring, fun _ => hstring⟩
  | @array items _ ih =>
    cases items with
    | nil =>
      have hempty : Writes ['[', ']'] (.array []) :=
        ⟨[.arrayOpen, .arrayClose], .mark rfl (.mark rfl .nil), fun _ => rfl⟩
      exact ⟨hempty, fun _ => hempty⟩
    | cons item items =>
      constructor
      · rw [compact, compactItems_eq]
        exact writes_items (Or.inl rfl) (Or.inl rfl) fun other hm => (ih other hm).1
      · intro level
        rw [pretty, prettyItems_eq]
        exact writes_items (Or.inr ⟨_, rfl⟩) (Or.inr ⟨_, rfl⟩) fun other hm => (ih other hm).2 _
  | @object members hkeys _ ih =>
    cases members with
    | nil =>
      have hempty : Writes ['{', '}'] (.object []) :=
        ⟨[.objectOpen, .objectClose], .mark rfl (.mark rfl .nil), fun _ => rfl⟩
      exact ⟨hempty, fun _ => hempty⟩
    | cons member members =>
      constructor
      · have htext : compact (.object (member :: members)) =
            '{' :: ([] ++ memberText [] compact member ++ membersText [] [] compact members ++
              ([] ++ ['}'])) := by
          rw [compact, compactMembers_eq]
          rfl
        rw [htext]
        exact writes_members (Or.inl rfl) (Or.inl rfl) (List.forall_mem_nil _) fun other hm =>
          ⟨hkeys other hm, (ih other hm).1⟩
      · intro level
        have htext : pretty level (.object (member :: members)) =
            '{' :: (newline (level + 1) ++ memberText [' '] (pretty (level + 1)) member ++
              membersText (newline (level + 1)) [' '] (pretty (level + 1)) members ++
                (newline level ++ ['}'])) := by
          rw [pretty, prettyMembers_eq, memberText]
          simp
        rw [htext]
        exact writes_members (Or.inr ⟨_, rfl⟩) (Or.inr ⟨_, rfl⟩)
          (List.forall_mem_singleton.mpr rfl) fun other hm => ⟨hkeys other hm, (ih other hm).2 _⟩

lemma Writes.parse? {s gap : Text} {json : Json} (h : Writes s json) (hgap : IsGap gap) :
    parse? (s ++ gap) = some json := by
  obtain ⟨tokens, hlexes, hyields⟩ := h
  have hends : Ends gap := List.append_nil gap ▸ hgap.ends (s := []) nofun
  have hnone : tokens? gap = some [] := by
    have hblanks := Lexes.blanks hgap.isSpace .nil [] nofun
    rw [List.append_nil, List.append_nil, tokens?] at hblanks
    exact hblanks
  have htokens : tokens? (s ++ gap) = some tokens := by
    rw [hlexes gap hends, hnone, Option.map_some, List.append_nil]
  rw [Json.parse?, htokens]
  have hrun : tokens.foldlM Assembly.take Assembly.start = some ⟨[], .after json⟩ := hyields []
  simp [ofTokens?, hrun, Assembly.finish?]

/-- The text of a value reads back as the value. -/
theorem Plain.parse?_compact {json : Json} (h : Plain json) : parse? json.compact = some json :=
  List.append_nil json.compact ▸ h.writes.1.parse? (Or.inl rfl)

/-- The text of a value over indented lines reads back as the value, with or without a line feed
at its end. -/
theorem Plain.parse?_pretty {json : Json} (h : Plain json) :
    parse? (json.pretty 0) = some json ∧ parse? (json.pretty 0 ++ ['\n']) = some json :=
  ⟨List.append_nil (json.pretty 0) ▸ (h.writes.2 0).parse? (Or.inl rfl),
    (h.writes.2 0).parse? (Or.inr ⟨0, rfl⟩)⟩

end SheetGloss.Json
