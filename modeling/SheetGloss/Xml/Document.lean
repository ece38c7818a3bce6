import SheetGloss.Xml.Attribute
import SheetGloss.Xml.Event

/-!
# XML documents

The events of a document, from its glyphs. A tag whose end is missing ends with the document. When
the source of the glyphs is damaged, it breaks off in an error instead: whatever would need its end
is a fault.
-/

namespace SheetGloss.Xml

/-- The glyphs of a tag up to its `>`, and those after it when there is one. A `>` between quotes
does not end the tag; `quote` is the quote that is open. -/
def tagBody (quote : Option Glyph) : List Glyph → List Glyph × Option (List Glyph)
  | [] => ([], none)
  | g :: rest =>
    match quote with
    | none =>
      if g = .char '>' then ([], some rest)
      else
        let (body, after) := tagBody (if isValueQuote g then some g else none) rest
        (g :: body, after)
    | some q =>
      let (body, after) := tagBody (if g = q then none else some q) rest
      (g :: body, after)

theorem length_lt_of_tagBody {quote : Option Glyph} {s body after : List Glyph}
    (h : tagBody quote s = (body, some after)) : after.length < s.length := by
  induction s generalizing quote body with
  | nil => simp [tagBody] at h
  | cons g rest ih =>
    unfold tagBody at h
    split at h
    · split at h
      · simp only [Prod.mk.injEq, Option.some.injEq] at h
        simp [h.2]
      · simp only [Prod.mk.injEq] at h
        have := ih (show tagBody _ rest = (_, some after) from Prod.ext rfl h.2)
        simp only [List.length_cons]
        omega
    · next q =>
      simp only [Prod.mk.injEq] at h
      have := ih (show tagBody _ rest = (_, some after) from Prod.ext rfl h.2)
      simp only [List.length_cons]
      omega

/-- What follows the first occurrence of a mark. -/
def afterMark? (mark : List Glyph) : List Glyph → Option (List Glyph)
  | [] => none
  | g :: rest =>
    if mark.isPrefixOf (g :: rest) then some ((g :: rest).drop mark.length)
    else afterMark? mark rest

theorem length_le_of_afterMark? {mark s after : List Glyph} (h : afterMark? mark s = some after) :
    after.length ≤ s.length := by
  induction s with
  | nil => cases h
  | cons g rest ih =>
    unfold afterMark? at h
    split at h
    · simp only [Option.some.injEq] at h
      rw [← h, List.length_drop]
      omega
    · have := ih h
      simp only [List.length_cons]
      omega

/-- What follows a word at the front, in letters of either case. -/
def afterWord? : Text → List Glyph → Option (List Glyph)
  | [], s => some s
  | c :: word, .char d :: rest => if d.toUpper = c then afterWord? word rest else none
  | _ :: _, _ => none

theorem length_le_of_afterWord? {word : Text} {s after : List Glyph}
    (h : afterWord? word s = some after) : after.length ≤ s.length := by
  fun_induction afterWord? word s with
  | case1 s =>
    simp only [Option.some.injEq] at h
    simp [h]
  | case2 word d rest ih =>
    have := ih h
    simp only [List.length_cons]
    omega
  | case3 => cases h
  | case4 => cases h

/-- How many tags are open before a glyph in front of which `left` bytes are left, when `depth` were
open before: they are counted anew where a chunk starts. -/
def depthAt (starts : List Nat) (depth left : Nat) : Nat :=
  if starts.any (left ≤ ·) then 0 else depth

/-- The body of a document type up to its `>`, and what follows it. The source comes in chunks, and
the `>` is the first before which as many tags were closed as opened in its own chunk. `depth` are
open at the front, where `left` bytes are left; `starts` tells how many are left at the start of
each chunk behind. -/
def balanced? (starts : List Nat) (depth left : Nat) :
    List Glyph → Option (List Glyph × List Glyph)
  | [] => none
  | g :: rest =>
    let later := starts.filter (· < left)
    if g = .char '>' then
      if depthAt starts depth left = 0 then some ([], rest)
      else
        (balanced? later (depthAt starts depth left - 1) (left - g.size) rest).map
          fun (body, after) => (g :: body, after)
    else
      (balanced? later (depthAt starts depth left + if g = .char '<' then 1 else 0)
        (left - g.size) rest).map fun (body, after) => (g :: body, after)

theorem length_lt_of_balanced? {starts : List Nat} {depth left : Nat} {s body after : List Glyph}
    (h : balanced? starts depth left s = some (body, after)) : after.length < s.length := by
  induction s generalizing starts depth left body with
  | nil => cases h
  | cons g rest ih =>
    unfold balanced? at h
    split at h
    · split at h
      · simp only [Option.some.injEq, Prod.mk.injEq] at h
        simp [h.2]
      · simp only [Option.map_eq_some_iff, Prod.mk.injEq, Prod.exists] at h
        obtain ⟨_, _, h, _, rfl⟩ := h
        have := ih h
        simp only [List.length_cons]
        omega
    · simp only [Option.map_eq_some_iff, Prod.mk.injEq, Prod.exists] at h
      obtain ⟨_, _, h, _, rfl⟩ := h
      have := ih h
      simp only [List.length_cons]
      omega

/-- The body of a document type and what follows it, from the glyphs after its mark. -/
def documentType? (starts : List Nat) (s : List Glyph) : Option (List Glyph × List Glyph) :=
  let left := Glyph.totalSize s
  balanced? (starts.filter (· < left)) 0 left s

/-- What follows a comment, a literal section or a document type, from the glyphs after `<!`. -/
def afterBang? (starts : List Nat) (s : List Glyph) : Option (List Glyph) :=
  match s with
  | .char '-' :: .char '-' :: rest => afterMark? (Glyph.ofText (Text.lit "-->")) rest
  | .char '[' :: rest =>
    (afterWord? (Text.lit "CDATA[") rest).bind (afterMark? (Glyph.ofText (Text.lit "]]>")))
  | s =>
    match (afterWord? (Text.lit "DOCTYPE") s).bind (documentType? starts) with
    | some (body, after) => if body.all isSpace then none else some after
    | none => none

theorem length_le_of_afterBang? {starts : List Nat} {s after : List Glyph}
    (h : afterBang? starts s = some after) :
    after.length ≤ s.length := by
  unfold afterBang? at h
  split at h
  · have := length_le_of_afterMark? h
    simp only [List.length_cons]
    omega
  · simp only [Option.bind_eq_some_iff] at h
    obtain ⟨_, h₁, h₂⟩ := h
    have := length_le_of_afterWord? h₁
    have := length_le_of_afterMark? h₂
    simp only [List.length_cons]
    omega
  · split at h
    · next h' =>
      split at h
      · cases h
      · simp only [Option.bind_eq_some_iff] at h'
        obtain ⟨_, h₁, h₂⟩ := h'
        have := length_le_of_afterWord? h₁
        have := length_lt_of_balanced? h₂
        simp only [Option.some.injEq] at h
        rw [← h]
        omega
    · cases h

/-- The name in an end tag: spaces after it are dropped, unless there is nothing else. -/
def closingName (body : List Glyph) : List Glyph :=
  if body.all isSpace then body
  else (body.reverse.dropWhile isSpace).reverse

/-- Whether the glyphs between `<?` and `>` are an instruction: they end in another question
mark. -/
def isInstruction (body : List Glyph) : Bool :=
  2 ≤ body.length && body.getLast? == some (.char '?')

/-- The tag with some glyphs, up to its first space the name and then the attributes. -/
def tagOf (glyphs : List Glyph) : Tag :=
  ⟨Glyph.display (glyphs.takeWhile (!isSpace ·)), attributes (glyphs.dropWhile (!isSpace ·))⟩

/-- The events of a document in which the named elements are open, innermost first. `whole` tells
that the source ends where the glyphs do, and is not damaged; `starts` tells how many bytes are left
where each chunk of it begins. -/
def eventsFrom (whole : Bool) (starts : List Nat) (names : List (List Glyph)) (s : List Glyph) :
    List Event :=
  match s with
  | [] => if whole then [] else [.fault]
  | .char '<' :: .char '!' :: rest =>
    match h : afterBang? starts rest with
    | none => [.fault]
    | some after =>
      have := length_le_of_afterBang? h
      .aside :: eventsFrom whole starts names after
  | .char '<' :: .char '?' :: rest =>
    match h : upTo (.char '>') rest with
    | (body, none) => if whole && isInstruction body then [.aside] else [.fault]
    | (body, some after) =>
      have := length_lt_of_upTo h
      if isInstruction body then .aside :: eventsFrom whole starts names after else [.fault]
  | .char '<' :: .char '/' :: rest =>
    match names with
    | [] => [.fault]
    | name :: outer =>
      match h : upTo (.char '>') rest with
      | (body, none) =>
        if whole && closingName body == name then [.closing (Glyph.display name)] else [.fault]
      | (body, some after) =>
        have := length_lt_of_upTo h
        if closingName body == name then
          .closing (Glyph.display name) :: eventsFrom whole starts outer after
        else [.fault]
  | [.char '<'] => if whole then [] else [.fault]
  | .char '<' :: rest =>
    match h : tagBody none rest with
    | (body, none) =>
      if !whole then [.fault]
      else if body.getLast? == some (.char '/') then [.single (tagOf body.dropLast)]
      else [.opening (tagOf body)]
    | (body, some after) =>
      have := length_lt_of_tagBody h
      if body.getLast? == some (.char '/') then
        .single (tagOf body.dropLast) :: eventsFrom whole starts names after
      else
        let name := body.takeWhile (!isSpace ·)
        .opening (tagOf body) :: eventsFrom whole starts (name :: names) after
  | g :: rest =>
    match h : rest.dropWhile (· != .char '<') with
    | [] => if whole then [.text (content? (g :: rest))] else [.fault]
    | mark :: after =>
      have : (mark :: after).length ≤ rest.length := by
        rw [← h]
        exact (List.dropWhile_sublist _).length_le
      .text (content? (g :: rest.takeWhile (· != .char '<'))) ::
        eventsFrom whole starts names (mark :: after)
termination_by s.length
decreasing_by all_goals (try simp only [List.length_cons] at *); omega

/-- Chunks without the byte order mark at the front of the first one, if there is one. -/
def withoutMark : List Bytes → List Bytes
  | (0xEF :: 0xBB :: 0xBF :: rest) :: chunks => rest :: chunks
  | chunks => chunks

/-- How many bytes are left where each chunk begins. -/
def chunkStarts : List Bytes → List Nat
  | [] => []
  | chunk :: rest =>
    let starts := chunkStarts rest
    (chunk.length + starts.headD 0) :: starts

/-- The events of a document, from the chunks of its bytes. -/
def events (whole : Bool) (chunks : List Bytes) : List Event :=
  let chunks := withoutMark chunks
  eventsFrom whole (chunkStarts chunks) [] (Utf8.decode chunks.flatten)

end SheetGloss.Xml
