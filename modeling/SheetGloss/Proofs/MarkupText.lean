import SheetGloss.Proofs.EscapedText
import SheetGloss.Proofs.NameText
import SheetGloss.Xml.Document

/-!
# Written markup

A document is written as a list of markup. Reading it gives the events of that markup in order,
when every end tag closes the innermost open element.
-/

namespace SheetGloss.Xml

/-- Whether a character may stand in a written name. -/
def isNameLetter (c : Char) : Bool := c.isAlphanum || c == ':'

/-- A name as it is written. -/
structure IsName (s : Text) : Prop where
  ne_nil : s ≠ []
  all : ∀ c ∈ s, isNameLetter c = true

instance (s : Text) : Decidable (IsName s) :=
  decidable_of_iff (s ≠ [] ∧ s.all isNameLetter = true)
    ⟨fun h => ⟨h.1, List.all_eq_true.mp h.2⟩, fun h => ⟨h.ne_nil, List.all_eq_true.mpr h.all⟩⟩

/-- Keys that one tag may have. -/
structure AreKeys (keys : List Text) : Prop where
  nodup : keys.Nodup
  all : ∀ key ∈ keys, IsName key

instance (keys : List Text) : Decidable (AreKeys keys) :=
  decidable_of_iff (keys.Nodup ∧ ∀ key ∈ keys, IsName key)
    ⟨fun h => ⟨h.1, h.2⟩, fun h => ⟨h.nodup, h.all⟩⟩

/-- A part of a written document. -/
inductive Markup where
  | declaration
  | opening (name : Text) (attributes : List (Text × Text))
  | single (name : Text) (attributes : List (Text × Text))
  | closing (name : Text)
  /-- An element without attributes around a text. -/
  | leaf (name content : Text)
  deriving DecidableEq, Repr

/-- An attribute as it is written. -/
def attributeText (entry : Text × Text) : Text :=
  ' ' :: (entry.1 ++ '=' :: '"' :: (escape entry.2 ++ ['"']))

/-- The inside of a tag as it is written. -/
def tagText (name : Text) (attributes : List (Text × Text)) : Text :=
  name ++ attributes.flatMap attributeText

def writtenTag (name : Text) (attributes : List (Text × Text)) : Tag :=
  ⟨name, attributes.map fun entry => (entry.1, some entry.2)⟩

def declarationBody : Text := Text.lit "xml version=\"1.0\"?"

namespace Markup

def text : Markup → Text
  | declaration => '<' :: '?' :: (declarationBody ++ ['>'])
  | opening name attributes => '<' :: (tagText name attributes ++ ['>'])
  | single name attributes => '<' :: (tagText name attributes ++ ['/', '>'])
  | closing name => '<' :: '/' :: (name ++ ['>'])
  | leaf name content => '<' :: (name ++ '>' :: (escape content ++ '<' :: '/' :: (name ++ ['>'])))

def events : Markup → List Event
  | declaration => [.aside]
  | opening name attributes => [.opening (writtenTag name attributes)]
  | single name attributes => [.single (writtenTag name attributes)]
  | closing name => [.closing name]
  | leaf name content => [.opening (writtenTag name []), .text (some content), .closing name]

/-- Names are names, the keys of a tag are distinct, and the text of an element is not empty. -/
def Sound : Markup → Prop
  | declaration => True
  | opening name attributes => IsName name ∧ AreKeys (attributes.map Prod.fst)
  | single name attributes => IsName name ∧ AreKeys (attributes.map Prod.fst)
  | closing name => IsName name
  | leaf name content => IsName name ∧ content ≠ []

instance : DecidablePred Sound
  | declaration => inferInstanceAs (Decidable True)
  | opening .. => inferInstanceAs (Decidable (_ ∧ _))
  | single .. => inferInstanceAs (Decidable (_ ∧ _))
  | closing _ => inferInstanceAs (Decidable (IsName _))
  | leaf .. => inferInstanceAs (Decidable (_ ∧ _))

/-- The open elements after markup, innermost first; nothing when it closes another one than the
innermost. -/
def nest? (names : List Text) : Markup → Option (List Text)
  | opening name _ => some (name :: names)
  | closing name => if names.head? = some name then some names.tail else none
  | _ => some names

end Markup

def documentText (document : List Markup) : Text := document.flatMap Markup.text

section Names

variable {c : Char} {name : Text}

lemma ne_of_isNameLetter {d : Char} (hc : isNameLetter c = true) (hd : isNameLetter d = false) :
    c ≠ d := by
  rintro rfl
  rw [hc] at hd
  cases hd

lemma isSpace_of_isNameLetter (hc : isNameLetter c = true) : isSpace (.char c) = false := by
  simp [isSpace, ne_of_isNameLetter hc (d := ' ') rfl, ne_of_isNameLetter hc (d := '\t') rfl,
    ne_of_isNameLetter hc (d := '\n') rfl, ne_of_isNameLetter hc (d := '\r') rfl]

lemma endsKey_of_isNameLetter (hc : isNameLetter c = true) : endsKey (.char c) = false := by
  simp [endsKey, isSpace_of_isNameLetter hc, ne_of_isNameLetter hc (d := '=') rfl]

lemma isValueQuote_of_isNameLetter (hc : isNameLetter c = true) :
    isValueQuote (.char c) = false := by
  simp [isValueQuote, ne_of_isNameLetter hc (d := '"') rfl, ne_of_isNameLetter hc (d := '\'') rfl]

lemma forall_mem_ofText {P : Glyph → Prop} {s : Text} (h : ∀ c ∈ s, P (.char c)) :
    ∀ g ∈ Glyph.ofText s, P g := by
  intro g hg
  obtain ⟨c, hc, rfl⟩ := List.mem_map.mp hg
  exact h c hc

lemma mem_ofText {s : Text} : .char c ∈ Glyph.ofText s ↔ c ∈ s := by
  rw [Glyph.ofText, List.mem_map]
  constructor
  · rintro ⟨d, hd, he⟩
    cases he
    exact hd
  · exact fun hc => ⟨c, hc, rfl⟩

end Names

lemma upTo_append {stop : Glyph} {body : List Glyph} (h : stop ∉ body) (s : List Glyph) :
    upTo stop (body ++ stop :: s) = (body, some s) := by
  induction body with
  | nil => rw [List.nil_append, upTo, if_pos rfl]
  | cons g body ih =>
    have hg : g ≠ stop := fun he => h (he ▸ List.mem_cons_self)
    rw [List.cons_append, upTo, if_neg hg, ih fun hm => h (List.mem_cons_of_mem g hm)]

/-! ### Attributes -/

lemma attributesFrom_cons {seen : List (List Glyph)}
    {s rest value inside content after : List Glyph} {g quote : Glyph}
    (hs : s.dropWhile isSpace = g :: rest)
    (hk : afterKey (rest.dropWhile (!endsKey ·)) = .equals value)
    (hseen : g :: rest.takeWhile (!endsKey ·) ∉ seen)
    (hv : value.dropWhile isSpace = quote :: inside) (hq : isValueQuote quote = true)
    (hu : upTo quote inside = (content, some after)) :
    attributesFrom seen s = (g :: rest.takeWhile (!endsKey ·), content) ::
      attributesFrom ((g :: rest.takeWhile (!endsKey ·)) :: seen) after := by
  rw [attributesFrom]
  split
  · next h =>
    rw [hs] at h
    cases h
  · next h =>
    rw [hs] at h
    cases h
    split
    · next h =>
      rw [hk] at h
      cases h
    · next h =>
      rw [hk] at h
      cases h
      dsimp only
      split
      · next h => exact absurd (List.contains_iff_mem.mp h) hseen
      · split
        · next h =>
          rw [hv] at h
          cases h
        · next h =>
          rw [hv] at h
          cases h
          split
          · split
            · next h =>
              rw [hu] at h
              cases h
            · next h =>
              rw [hu] at h
              cases h
              rfl
          · next h => exact absurd hq h

lemma attributesFrom_nil (seen : List (List Glyph)) : attributesFrom seen [] = [] := by
  rw [attributesFrom]
  split
  · rfl
  · next h => cases h

lemma attributesFrom_attribute {key : Text} {seen : List (List Glyph)} (hkey : IsName key)
    (hseen : Glyph.ofText key ∉ seen) (value : Text) (rest : List Glyph) :
    attributesFrom seen (Glyph.ofText (attributeText (key, value)) ++ rest) =
      (Glyph.ofText key, Glyph.ofText (escape value)) ::
        attributesFrom (Glyph.ofText key :: seen) rest := by
  obtain ⟨c, key, rfl⟩ := List.exists_cons_of_ne_nil hkey.ne_nil
  have hc := hkey.all c List.mem_cons_self
  have hquote : Glyph.char '"' ∉ Glyph.ofText (escape value) :=
    fun hm => not_mem_escape (by decide) value (mem_ofText.mp hm)
  have hrun : ∀ g ∈ Glyph.ofText key, (!endsKey g) = true :=
    forall_mem_ofText fun d hd => by
      rw [endsKey_of_isNameLetter (hkey.all d (List.mem_cons_of_mem c hd)), Bool.not_false]
  let inside := Glyph.ofText (escape value) ++ .char '"' :: rest
  have hequals : ∀ g ∈ (Glyph.char '=' :: .char '"' :: inside).head?, (!endsKey g) = false := by
    intro g hg
    cases hg
    rfl
  let named := Glyph.char c :: (Glyph.ofText key ++ .char '=' :: .char '"' :: inside)
  have htext : Glyph.ofText (attributeText (c :: key, value)) ++ rest = .char ' ' :: named := by
    simp [attributeText, Glyph.ofText, named, inside]
  have hs : (.char ' ' :: named).dropWhile isSpace = named := by
    rw [List.dropWhile_cons, if_pos (by decide), List.dropWhile_cons,
      if_neg (by rw [isSpace_of_isNameLetter hc]; decide)]
  have hname := Text.takeWhile_run hrun hequals
  have hnew : .char c :: (Glyph.ofText key ++ .char '=' :: .char '"' :: inside).takeWhile
      (!endsKey ·) ∉ seen := by
    rw [hname]
    exact hseen
  have hcons := attributesFrom_cons hs (by rw [Text.dropWhile_run hrun hequals]; rfl) hnew
    (show (Glyph.char '"' :: inside).dropWhile isSpace = .char '"' :: inside from rfl) rfl
    (upTo_append hquote rest)
  rw [htext, hcons, hname]
  rfl

lemma attributesFrom_written {attributes : List (Text × Text)} {seen : List (List Glyph)}
    (h : AreKeys (attributes.map Prod.fst))
    (hseen : ∀ key ∈ attributes.map Prod.fst, Glyph.ofText key ∉ seen) :
    attributesFrom seen (Glyph.ofText (attributes.flatMap attributeText)) =
      attributes.map fun entry => (Glyph.ofText entry.1, Glyph.ofText (escape entry.2)) := by
  induction attributes generalizing seen with
  | nil => exact attributesFrom_nil seen
  | cons entry attributes ih =>
    obtain ⟨key, value⟩ := entry
    rw [List.map_cons] at h hseen
    obtain ⟨hnot, hnodup⟩ := List.nodup_cons.mp h.nodup
    rw [List.flatMap_cons, Glyph.ofText_append, attributesFrom_attribute
      (h.all key List.mem_cons_self) (hseen key List.mem_cons_self), List.map_cons]
    refine congrArg (_ :: ·) (ih ⟨hnodup, fun k hk => h.all k (List.mem_cons_of_mem key hk)⟩ ?_)
    intro k hk hm
    rcases List.mem_cons.mp hm with he | hm
    · exact hnot (Glyph.ofText_inj he ▸ hk)
    · exact hseen k (List.mem_cons_of_mem key hk) hm

lemma attributes_written {attributes : List (Text × Text)}
    (h : AreKeys (attributes.map Prod.fst)) :
    Xml.attributes (Glyph.ofText (attributes.flatMap attributeText)) =
      attributes.map fun entry => (entry.1, some entry.2) := by
  rw [Xml.attributes, attributesFrom_written h (by simp), List.map_map]
  apply List.map_congr_left
  intro entry _
  simp only [Function.comp_apply, Glyph.display_ofText, content?_escape]

/-! ### Tags -/

lemma head?_attributes (attributes : List (Text × Text)) :
    ∀ c ∈ (attributes.flatMap attributeText).head?, c = ' ' := by
  cases attributes with
  | nil => simp
  | cons entry attributes =>
    intro c hc
    cases hc
    rfl

lemma isSpace_head?_attributes (attributes : List (Text × Text)) :
    ∀ g ∈ (Glyph.ofText (attributes.flatMap attributeText)).head?, (!isSpace g) = false := by
  rw [Glyph.ofText, List.head?_map]
  intro g hg
  obtain ⟨c, hc, rfl⟩ := Option.map_eq_some_iff.mp hg
  rw [head?_attributes attributes c hc]
  rfl

lemma not_isSpace_name {name : Text} (h : IsName name) :
    ∀ g ∈ Glyph.ofText name, (!isSpace g) = true :=
  forall_mem_ofText fun c hc => by rw [isSpace_of_isNameLetter (h.all c hc), Bool.not_false]

lemma tagOf_written {name : Text} {attributes : List (Text × Text)} (hname : IsName name)
    (h : AreKeys (attributes.map Prod.fst)) :
    tagOf (Glyph.ofText (tagText name attributes)) = writtenTag name attributes := by
  have hrun := not_isSpace_name hname
  have hspace := isSpace_head?_attributes attributes
  rw [tagOf, tagText, Glyph.ofText_append, Text.takeWhile_run hrun hspace,
    Text.dropWhile_run hrun hspace, Glyph.display_ofText, attributes_written h, writtenTag]

/-- Glyphs inside which a tag does not end, and after which no quote is open. -/
def Shut (body : List Glyph) : Prop :=
  ∀ s, tagBody none (body ++ s) = (body ++ (tagBody none s).1, (tagBody none s).2)

lemma Shut.append {body body' : List Glyph} (h : Shut body) (h' : Shut body') :
    Shut (body ++ body') := by
  intro s
  rw [List.append_assoc, h, h', List.append_assoc]

lemma shut_of_plain {body : List Glyph}
    (h : ∀ g ∈ body, g ≠ .char '>' ∧ isValueQuote g = false) : Shut body := by
  intro s
  induction body with
  | nil => rfl
  | cons g body ih =>
    obtain ⟨hend, hquote⟩ := h g List.mem_cons_self
    rw [List.cons_append, tagBody, if_neg hend]
    simp only [hquote]
    rw [if_neg (by decide), ih fun d hd => h d (List.mem_cons_of_mem g hd)]
    rfl

lemma tagBody_quoted {quote : Glyph} {inside : List Glyph} (h : quote ∉ inside) (s : List Glyph) :
    tagBody (some quote) (inside ++ quote :: s) =
      (inside ++ quote :: (tagBody none s).1, (tagBody none s).2) := by
  induction inside with
  | nil => simp [tagBody]
  | cons g inside ih =>
    have hg : g ≠ quote := fun he => h (he ▸ List.mem_cons_self)
    rw [List.cons_append, tagBody]
    simp only [if_neg hg]
    rw [ih fun hm => h (List.mem_cons_of_mem g hm)]
    rfl

lemma shut_name {name : Text} (h : IsName name) : Shut (Glyph.ofText name) := by
  apply shut_of_plain
  apply forall_mem_ofText
  intro c hc
  refine ⟨?_, isValueQuote_of_isNameLetter (h.all c hc)⟩
  intro he
  cases he
  exact absurd (h.all '>' hc) (by decide)

lemma shut_attribute {key : Text} (hkey : IsName key) (value : Text) :
    Shut (Glyph.ofText (attributeText (key, value))) := by
  have hquote : Glyph.char '"' ∉ Glyph.ofText (escape value) :=
    fun hm => not_mem_escape (by decide) value (mem_ofText.mp hm)
  have hvalue : Shut (.char '"' :: (Glyph.ofText (escape value) ++ [.char '"'])) := by
    intro s
    have h := tagBody_quoted hquote s
    rw [List.cons_append, List.append_assoc, List.singleton_append, tagBody, if_neg (by decide)]
    simp only [show isValueQuote (.char '"') = true from rfl, if_true, h]
    simp
  have hspace : Shut [.char ' '] := shut_of_plain (by decide)
  have hequals : Shut [.char '='] := shut_of_plain (by decide)
  have htext : Glyph.ofText (attributeText (key, value)) = [.char ' '] ++ (Glyph.ofText key ++
      ([.char '='] ++ (.char '"' :: (Glyph.ofText (escape value) ++ [.char '"'])))) := by
    simp [attributeText, Glyph.ofText]
  rw [htext]
  exact hspace.append ((shut_name hkey).append (hequals.append hvalue))

lemma shut_tagText {name : Text} {attributes : List (Text × Text)} (hname : IsName name)
    (h : ∀ key ∈ attributes.map Prod.fst, IsName key) :
    Shut (Glyph.ofText (tagText name attributes)) := by
  rw [tagText, Glyph.ofText_append]
  apply (shut_name hname).append
  induction attributes with
  | nil => exact shut_of_plain (by simp [Glyph.ofText])
  | cons entry attributes ih =>
    rw [List.flatMap_cons, Glyph.ofText_append]
    exact (shut_attribute (h entry.1 List.mem_cons_self) entry.2).append
      (ih fun key hk => h key (List.mem_cons_of_mem _ hk))

lemma getLast?_attributes (attributes : List (Text × Text)) :
    ∀ c ∈ (attributes.flatMap attributeText).getLast?, c = '"' := by
  induction attributes with
  | nil => simp
  | cons entry attributes ih =>
    intro c hc
    rw [List.flatMap_cons, List.getLast?_append] at hc
    cases h : (attributes.flatMap attributeText).getLast? with
    | some d =>
      rw [h] at hc
      cases hc
      exact ih c h
    | none =>
      rw [h, attributeText] at hc
      simp [List.getLast?_cons, List.getLast?_append] at hc
      exact hc.symm

lemma getLast?_tagText {name : Text} (hname : IsName name) (attributes : List (Text × Text)) :
    (Glyph.ofText (tagText name attributes)).getLast? ≠ some (.char '/') := by
  rw [tagText, Glyph.ofText, List.getLast?_map, List.getLast?_append]
  intro h
  obtain ⟨c, hc, he⟩ := Option.map_eq_some_iff.mp h
  cases he
  cases hlast : (attributes.flatMap attributeText).getLast? with
  | some d =>
    rw [hlast] at hc
    cases hc
    exact absurd (getLast?_attributes attributes '/' hlast) (by decide)
  | none =>
    rw [hlast] at hc
    exact absurd (hname.all '/' (List.mem_of_getLast? hc)) (by decide)

lemma takeWhile_tagText {name : Text} (hname : IsName name) (attributes : List (Text × Text)) :
    (Glyph.ofText (tagText name attributes)).takeWhile (!isSpace ·) = Glyph.ofText name := by
  rw [tagText, Glyph.ofText_append]
  exact Text.takeWhile_run (not_isSpace_name hname) (isSpace_head?_attributes attributes)

lemma tagBody_of_shut {body : List Glyph} (h : Shut body) (s : List Glyph) :
    tagBody none (body ++ .char '>' :: s) = (body, some s) := by
  rw [h, tagBody, if_pos rfl, List.append_nil]

/-! ### Documents -/

section Documents

variable {whole : Bool} {starts : List Nat} {names : List (List Glyph)}

/-- A tag whose first glyph is no mark opens an element, or is one by itself. -/
lemma eventsFrom_tag {g : Glyph} {s body after : List Glyph} (hbang : g ≠ .char '!')
    (hquestion : g ≠ .char '?') (hslash : g ≠ .char '/')
    (h : tagBody none (g :: s) = (body, some after)) :
    eventsFrom whole starts names (.char '<' :: g :: s) =
      if body.getLast? == some (.char '/') then
        .single (tagOf body.dropLast) :: eventsFrom whole starts names after
      else .opening (tagOf body) ::
        eventsFrom whole starts (body.takeWhile (!isSpace ·) :: names) after := by
  rw [eventsFrom]
  · split
    · next heq =>
      rw [h] at heq
      cases heq
    · next heq =>
      rw [h] at heq
      cases heq
      rfl
  · intro rest heq
    exact hbang (List.cons.inj heq).1
  · intro rest heq
    exact hquestion (List.cons.inj heq).1
  · intro rest heq
    exact hslash (List.cons.inj heq).1
  · intro heq
    cases heq

lemma eventsFrom_closing {name : Text} (h : IsName name) (s : List Glyph) :
    eventsFrom whole starts (Glyph.ofText name :: names)
      (.char '<' :: .char '/' :: (Glyph.ofText name ++ .char '>' :: s)) =
        .closing name :: eventsFrom whole starts names s := by
  have hend : Glyph.char '>' ∉ Glyph.ofText name :=
    fun hm => absurd (h.all '>' (mem_ofText.mp hm)) (by decide)
  have hname : closingName (Glyph.ofText name) = Glyph.ofText name := by
    have hlast : ∀ g ∈ (Glyph.ofText name).reverse.head?, isSpace g = false := by
      intro g hg
      have hmem := List.mem_reverse.mp (List.mem_of_mem_head? hg)
      simpa using not_isSpace_name h g hmem
    have hnone : ∀ g ∈ ([] : List Glyph), isSpace g = true := by simp
    have hdrop := Text.dropWhile_run hnone hlast
    rw [closingName, ← List.nil_append (Glyph.ofText name).reverse, hdrop, List.reverse_reverse,
      ite_self]
  rw [eventsFrom]
  split
  · next heq =>
    rw [upTo_append hend] at heq
    cases heq
  · next heq =>
    rw [upTo_append hend] at heq
    cases heq
    rw [hname, if_pos (beq_self_eq_true _), Glyph.display_ofText]

lemma eventsFrom_text {g : Glyph} {body : List Glyph} (h : ∀ d ∈ g :: body, d ≠ .char '<')
    (s : List Glyph) : eventsFrom whole starts names (g :: (body ++ .char '<' :: s)) =
      .text (content? (g :: body)) :: eventsFrom whole starts names (.char '<' :: s) := by
  have hg := h g List.mem_cons_self
  have hbody : ∀ d ∈ body, (d != .char '<') = true :=
    fun d hd => bne_iff_ne.mpr (h d (List.mem_cons_of_mem g hd))
  have hmark : ∀ d ∈ (Glyph.char '<' :: s).head?, (d != .char '<') = false := by
    intro d hd
    cases hd
    rfl
  generalize hrest : eventsFrom whole starts names (.char '<' :: s) = rest
  rw [eventsFrom]
  · split
    · next heq =>
      rw [Text.dropWhile_run hbody hmark] at heq
      cases heq
    · next heq =>
      rw [Text.dropWhile_run hbody hmark] at heq
      cases heq
      rw [Text.takeWhile_run hbody hmark, hrest]
  all_goals
    intros
    exact hg (by assumption)

lemma eventsFrom_declaration (s : List Glyph) :
    eventsFrom whole starts names (Glyph.ofText Markup.declaration.text ++ s) =
      .aside :: eventsFrom whole starts names s := by
  have htext : Glyph.ofText Markup.declaration.text ++ s = .char '<' :: .char '?' ::
      (Glyph.ofText declarationBody ++ .char '>' :: s) := by
    simp [Markup.text, Glyph.ofText]
  have hend : Glyph.char '>' ∉ Glyph.ofText declarationBody := by decide
  rw [htext, eventsFrom]
  split
  · next heq =>
    rw [upTo_append hend] at heq
    cases heq
  · next heq =>
    rw [upTo_append hend] at heq
    cases heq
    rw [if_pos (by decide)]

lemma eventsFrom_inside {t : Text} (hshut : Shut (Glyph.ofText t))
    (hhead : ∀ c ∈ t.head?, isNameLetter c = true) (hne : t ≠ []) (s : List Glyph) :
    eventsFrom whole starts names (Glyph.ofText ('<' :: (t ++ ['>'])) ++ s) =
      if (Glyph.ofText t).getLast? == some (.char '/') then
        .single (tagOf (Glyph.ofText t).dropLast) :: eventsFrom whole starts names s
      else .opening (tagOf (Glyph.ofText t)) ::
        eventsFrom whole starts ((Glyph.ofText t).takeWhile (!isSpace ·) :: names) s := by
  obtain ⟨c, t, rfl⟩ := List.exists_cons_of_ne_nil hne
  have hc := hhead c rfl
  have hbody := tagBody_of_shut hshut s
  have hmark {d : Char} (hd : isNameLetter d = false) : Glyph.char c ≠ .char d :=
    fun he => ne_of_isNameLetter hc hd (Glyph.char.inj he)
  have htext : Glyph.ofText ('<' :: (c :: t ++ ['>'])) ++ s =
      .char '<' :: .char c :: (Glyph.ofText t ++ .char '>' :: s) := by
    simp [Glyph.ofText]
  rw [htext]
  exact eventsFrom_tag (hmark rfl) (hmark rfl) (hmark rfl) hbody

lemma head?_tagText {name : Text} (hname : IsName name) (attributes : List (Text × Text)) :
    tagText name attributes ≠ [] ∧
      ∀ c ∈ (tagText name attributes).head?, isNameLetter c = true := by
  obtain ⟨c, tail, rfl⟩ := List.exists_cons_of_ne_nil hname.ne_nil
  refine ⟨by simp [tagText], ?_⟩
  intro d hd
  cases hd
  exact hname.all c List.mem_cons_self

lemma eventsFrom_opening {name : Text} {attributes : List (Text × Text)} (hname : IsName name)
    (h : AreKeys (attributes.map Prod.fst)) (s : List Glyph) :
    eventsFrom whole starts names (Glyph.ofText (Markup.opening name attributes).text ++ s) =
      .opening (writtenTag name attributes) ::
        eventsFrom whole starts (Glyph.ofText name :: names) s := by
  obtain ⟨hne, hhead⟩ := head?_tagText hname attributes
  rw [Markup.text, eventsFrom_inside (shut_tagText hname h.all) hhead hne,
    if_neg (by simpa using getLast?_tagText hname attributes), tagOf_written hname h,
    takeWhile_tagText hname]

lemma eventsFrom_single {name : Text} {attributes : List (Text × Text)} (hname : IsName name)
    (h : AreKeys (attributes.map Prod.fst)) (s : List Glyph) :
    eventsFrom whole starts names (Glyph.ofText (Markup.single name attributes).text ++ s) =
      .single (writtenTag name attributes) :: eventsFrom whole starts names s := by
  obtain ⟨hne, hhead⟩ := head?_tagText hname attributes
  have hslash : Shut (Glyph.ofText ['/']) := shut_of_plain (by decide)
  have hshut : Shut (Glyph.ofText (tagText name attributes ++ ['/'])) := by
    rw [Glyph.ofText_append]
    exact (shut_tagText hname h.all).append hslash
  have htext : (Markup.single name attributes).text =
      '<' :: ((tagText name attributes ++ ['/']) ++ ['>']) := by
    rw [Markup.text, List.append_assoc]
    rfl
  have hhead' : ∀ c ∈ (tagText name attributes ++ ['/']).head?, isNameLetter c = true := by
    obtain ⟨c, t, ht⟩ := List.exists_cons_of_ne_nil hne
    rw [ht] at hhead ⊢
    exact hhead
  rw [htext, eventsFrom_inside hshut hhead' (by simp), Glyph.ofText_append]
  have hlast : (Glyph.ofText (tagText name attributes) ++ Glyph.ofText ['/']).getLast? =
      some (.char '/') := List.getLast?_concat
  have hdrop : (Glyph.ofText (tagText name attributes) ++ Glyph.ofText ['/']).dropLast =
      Glyph.ofText (tagText name attributes) := List.dropLast_concat
  rw [hlast, hdrop, if_pos (by decide), tagOf_written hname h]

/-- An element around a text opens, has its text, and closes. -/
lemma eventsFrom_leaf {name content : Text} (hname : IsName name) (hcontent : content ≠ [])
    (s : List Glyph) :
    eventsFrom whole starts names (Glyph.ofText (Markup.leaf name content).text ++ s) =
      .opening (writtenTag name []) :: .text (some content) :: .closing name ::
        eventsFrom whole starts names s := by
  have hkeys : AreKeys (([] : List (Text × Text)).map Prod.fst) := by decide
  obtain ⟨g, body, hescape⟩ : ∃ g body, Glyph.ofText (escape content) = g :: body := by
    obtain ⟨c, t, he⟩ := List.exists_cons_of_ne_nil (escape_ne_nil hcontent)
    exact ⟨.char c, Glyph.ofText t, by rw [he, Glyph.ofText_cons]⟩
  have hplain : ∀ d ∈ g :: body, d ≠ .char '<' := by
    rw [← hescape]
    rintro d hd rfl
    exact not_mem_escape (by decide) content (mem_ofText.mp hd)
  have htext : Glyph.ofText (Markup.leaf name content).text ++ s =
      Glyph.ofText (Markup.opening name []).text ++ (g :: (body ++ .char '<' :: .char '/' ::
        (Glyph.ofText name ++ .char '>' :: s))) := by
    have hsplit : g :: (body ++ .char '<' :: .char '/' :: (Glyph.ofText name ++ .char '>' :: s)) =
        Glyph.ofText (escape content) ++ (.char '<' :: .char '/' ::
          (Glyph.ofText name ++ .char '>' :: s)) := by
      rw [hescape, List.cons_append]
    rw [hsplit]
    simp [Markup.text, tagText, Glyph.ofText]
  rw [htext, eventsFrom_opening hname hkeys, eventsFrom_text hplain, ← hescape, content?_escape,
    eventsFrom_closing hname]

lemma eventsFrom_markup {markup : Markup} {names names' : List Text} (h : markup.Sound)
    (hnest : markup.nest? names = some names') (s : List Glyph) :
    eventsFrom whole starts (names.map Glyph.ofText) (Glyph.ofText markup.text ++ s) =
      markup.events ++ eventsFrom whole starts (names'.map Glyph.ofText) s := by
  cases markup with
  | declaration =>
    cases hnest
    exact eventsFrom_declaration s
  | opening name attributes =>
    cases hnest
    exact eventsFrom_opening h.1 h.2 s
  | single name attributes =>
    cases hnest
    exact eventsFrom_single h.1 h.2 s
  | closing name =>
    rw [Markup.nest?] at hnest
    split at hnest
    · next hhead =>
      cases hnest
      obtain ⟨names, rfl⟩ := List.head?_eq_some_iff.mp hhead
      have htext : Glyph.ofText (Markup.closing name).text ++ s =
          .char '<' :: .char '/' :: (Glyph.ofText name ++ .char '>' :: s) := by
        simp [Markup.text, Glyph.ofText]
      rw [htext]
      exact eventsFrom_closing h s
    · cases hnest
  | leaf name content =>
    cases hnest
    exact eventsFrom_leaf h.1 h.2 s

/-- The events of a written document are the events of its markup. -/
theorem eventsFrom_document {document : List Markup} {names names' : List Text}
    (h : ∀ markup ∈ document, markup.Sound)
    (hnest : document.foldlM Markup.nest? names = some names') (s : List Glyph) :
    eventsFrom whole starts (names.map Glyph.ofText) (Glyph.ofText (documentText document) ++ s) =
      document.flatMap Markup.events ++ eventsFrom whole starts (names'.map Glyph.ofText) s := by
  induction document generalizing names with
  | nil =>
    cases hnest
    rfl
  | cons markup document ih =>
    rw [List.foldlM_cons] at hnest
    obtain ⟨inner, hmarkup, hrest⟩ := Option.bind_eq_some_iff.mp hnest
    rw [documentText, List.flatMap_cons, Glyph.ofText_append, List.append_assoc,
      eventsFrom_markup (h markup List.mem_cons_self) hmarkup, List.flatMap_cons, List.append_assoc]
    exact congrArg (markup.events ++ ·) (ih (fun m hm => h m (List.mem_cons_of_mem _ hm)) hrest)

end Documents

end SheetGloss.Xml
