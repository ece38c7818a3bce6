import SheetGloss.File.Folder
import SheetGloss.Proofs.SpanText

/-!
# Files in a folder

A file is found again under the path that it was written to, in folders inside the folder as well,
as long as no other file stands where the path needs a folder. Files at other paths stay as they
were.
-/

namespace SheetGloss

namespace Path

/-- A name that a file or a folder can have. -/
structure IsFileName (name : Text) : Prop where
  ne_nil : name ≠ []
  ne_dot : name ≠ ['.']
  ne_dots : name ≠ ['.', '.']
  no_slash : '/' ∉ name
  no_zero : '\x00' ∉ name
  length_le : (Utf8.encode name).length ≤ Folder.maxName

/-- The path of names, each the name of what is inside the one before. -/
def ofNames (names : List Text) : Text := ['/'].intercalate names

/-- Names, at least one of them, whose path is not too long. -/
structure IsFilePath (names : List Text) : Prop where
  ne_nil : names ≠ []
  isFileName : ∀ name ∈ names, IsFileName name
  length_le : (Utf8.encode (ofNames names)).length ≤ Folder.maxPath

variable {names : List Text}

lemma mem_ofNames {c : Char} (h : c ∈ ofNames names) : c = '/' ∨ ∃ name ∈ names, c ∈ name := by
  induction names with
  | nil => cases h
  | cons name names ih =>
    cases names with
    | nil =>
      rw [ofNames, List.intercalate_singleton] at h
      exact Or.inr ⟨name, List.mem_cons_self, h⟩
    | cons next names =>
      rw [ofNames, List.intercalate_cons_cons, List.mem_append, List.mem_append] at h
      rcases h with (h | h) | h
      · exact Or.inr ⟨name, List.mem_cons_self, h⟩
      · exact Or.inl (List.mem_singleton.mp h)
      · refine (ih h).imp_right ?_
        rintro ⟨other, hm, hc⟩
        exact ⟨other, List.mem_cons_of_mem name hm, hc⟩

lemma splitAll_ofNames (hsome : names ≠ []) (h : ∀ name ∈ names, IsFileName name) :
    Text.splitAll '/' (ofNames names) = names := by
  induction names with
  | nil => exact absurd rfl hsome
  | cons name names ih =>
    obtain ⟨hname, hrest⟩ := List.forall_mem_cons.mp h
    cases names with
    | nil => rw [ofNames, List.intercalate_singleton, Text.splitAll_eq_singleton hname.no_slash]
    | cons next names =>
      rw [ofNames, List.intercalate_cons_cons, List.append_assoc, List.singleton_append,
        Text.splitAll_append _ hname.no_slash, ← ofNames, ih (List.cons_ne_nil _ _) hrest]

namespace IsFilePath

lemma parts_ofNames (h : IsFilePath names) : parts (ofNames names) = names := by
  rw [parts, splitAll_ofNames h.ne_nil h.isFileName, List.filter_eq_self]
  intro name hm
  simp [(h.isFileName name hm).ne_nil, (h.isFileName name hm).ne_dot]

lemma no_zero (h : IsFilePath names) : '\x00' ∉ ofNames names := by
  intro hzero
  rcases mem_ofNames hzero with hslash | ⟨name, hm, hc⟩
  · revert hslash
    decide
  · exact (h.isFileName name hm).no_zero hc

lemma exists_cons (h : IsFilePath names) : ∃ c rest, ofNames names = c :: rest ∧ c ≠ '/' := by
  obtain ⟨name, names, rfl⟩ := List.exists_cons_of_ne_nil h.ne_nil
  have hname := h.isFileName name List.mem_cons_self
  obtain ⟨c, rest, rfl⟩ := List.exists_cons_of_ne_nil hname.ne_nil
  have hc : c ≠ '/' := fun he => hname.no_slash (he ▸ List.mem_cons_self)
  cases names with
  | nil => exact ⟨c, rest, List.intercalate_singleton, hc⟩
  | cons next names =>
    refine ⟨c, rest ++ '/' :: ofNames (next :: names), ?_, hc⟩
    rw [ofNames, List.intercalate_cons_cons]
    simp [ofNames]

end IsFilePath

end Path

namespace Folder

open SheetGloss.Path (IsFileName IsFilePath ofNames)

variable {folder : Folder} {names done rest other : List Text} {bytes : Bytes}

/-! ### One step into the folder -/

lemma walk_inside {name : Text} (h : IsFileName name) :
    folder.walk (.inside done) name = folder.lookup (done ++ [name]) := by
  simp [walk, h.ne_nil, h.ne_dot, h.ne_dots, Nat.not_lt.mpr h.length_le]

/-- No file stands where the names need a folder. -/
def Clear (folder : Folder) (names : List Text) : Prop :=
  ∀ entry ∈ folder, Path.parts entry.1 <+: names → Path.parts entry.1 = names

lemma find?_eq_none (h : ∀ entry ∈ folder, Path.parts entry.1 ≠ done) :
    (folder.reverse.find? fun entry => Path.parts entry.1 == done) = none := by
  rw [List.find?_eq_none]
  intro entry hm heq
  exact h entry (List.mem_reverse.mp hm) (beq_iff_eq.mp heq)

lemma lookup_of_clear (h : folder.Clear names) (hfront : done <+: names) (hne : done ≠ names) :
    folder.lookup done = .ok (.inside done) ∨
      (folder.lookup done = .error .notFound ∧
        ∀ entry ∈ folder, ¬done <+: Path.parts entry.1) := by
  have hnone : ∀ entry ∈ folder, Path.parts entry.1 ≠ done := by
    rintro entry hm rfl
    exact hne (h entry hm hfront)
  rw [lookup, find?_eq_none hnone]
  by_cases hany : (folder.any fun entry => done.isPrefixOf (Path.parts entry.1)) = true
  · exact Or.inl (if_pos hany)
  · refine Or.inr ⟨if_neg hany, fun entry hm hp => hany ?_⟩
    exact List.any_eq_true.mpr ⟨entry, hm, List.isPrefixOf_iff_prefix.mpr hp⟩

lemma lookup_of_not_prefix (h : ∀ entry ∈ folder, ¬done <+: Path.parts entry.1) :
    folder.lookup (done ++ rest) = .error .notFound := by
  have hlonger (entry : Text × Bytes) (hm : entry ∈ folder) :
      ¬done ++ rest <+: Path.parts entry.1 := fun hp =>
    h entry hm ((List.prefix_append done rest).trans hp)
  have hnone : ∀ entry ∈ folder, Path.parts entry.1 ≠ done ++ rest := by
    intro entry hm heq
    exact hlonger entry hm (heq ▸ List.prefix_rfl)
  rw [lookup, find?_eq_none hnone]
  refine if_neg fun hany => ?_
  obtain ⟨entry, hm, hp⟩ := List.any_eq_true.mp hany
  exact hlonger entry hm (List.isPrefixOf_iff_prefix.mp hp)

/-! ### The whole path -/

/-- With no file in the way, the names lead where all of them together do. -/
lemma foldlM_walk (hclear : folder.Clear (done ++ rest)) (hsome : rest ≠ [])
    (hnames : ∀ name ∈ rest, IsFileName name) :
    rest.foldlM folder.walk (.inside done) = folder.lookup (done ++ rest) := by
  induction rest generalizing done with
  | nil => exact absurd rfl hsome
  | cons name rest ih =>
    obtain ⟨hname, hnames⟩ := List.forall_mem_cons.mp hnames
    rw [List.foldlM_cons, walk_inside hname]
    have happend : done ++ name :: rest = (done ++ [name]) ++ rest := by simp
    rcases eq_or_ne rest [] with rfl | hrest
    · exact bind_pure (folder.lookup (done ++ [name]))
    · have hne : done ++ [name] ≠ done ++ name :: rest := by simpa using hrest.symm
      rw [happend] at hclear hne ⊢
      rcases lookup_of_clear hclear (List.prefix_append _ rest) hne with hinside | ⟨hnot, hall⟩
      · rw [hinside]
        exact ih hclear hrest hnames
      · -- Nothing lies inside a folder that is missing, so the whole path leads nowhere either.
        rw [hnot, lookup_of_not_prefix hall]
        rfl

/-- What reading gives at the end of a path. -/
def Place.content : Place → Except FileFault Bytes
  | file bytes => .ok bytes
  | _ => .error .isFolder

lemma read_ofNames (hclear : folder.Clear names) (h : IsFilePath names) :
    folder.read (ofNames names) = folder.lookup names >>= Place.content := by
  obtain ⟨c, rest, hpath, hc⟩ := h.exists_cons
  have hhead : (ofNames names).head? ≠ some '/' := by
    rw [hpath]
    simpa using hc
  have hne : ofNames names ≠ [] := by
    rw [hpath]
    exact List.cons_ne_nil c rest
  have hzero : ¬(ofNames names).contains '\x00' = true := by simpa using h.no_zero
  have hwalk : names.foldlM folder.walk (.inside []) = folder.lookup ([] ++ names) :=
    foldlM_walk hclear h.ne_nil h.isFileName
  rw [read, if_neg hzero, if_neg hne, if_neg (Nat.not_lt.mpr h.length_le), if_neg hhead,
    Path.splitAll_ofNames h.ne_nil h.isFileName]
  dsimp only
  rw [hwalk]
  rfl

/-! ### A file that was written -/

variable {path : Text}

lemma Clear.append (hclear : folder.Clear names)
    (h : Path.parts path <+: names → Path.parts path = names) :
    Clear (folder ++ [(path, bytes)]) names := by
  intro entry hm hp
  rcases List.mem_append.mp hm with hm | hm
  · exact hclear entry hm hp
  · obtain rfl := List.mem_singleton.mp hm
    exact h hp

lemma lookup_written (hparts : Path.parts path = names) (bytes : Bytes) :
    lookup (folder ++ [(path, bytes)]) names = .ok (.file bytes) := by
  rw [lookup, List.reverse_append, List.reverse_singleton, List.singleton_append,
    List.find?_cons_of_pos (by simp [hparts])]

lemma lookup_written_elsewhere (h : ¬other <+: Path.parts path) (bytes : Bytes) :
    lookup (folder ++ [(path, bytes)]) other = folder.lookup other := by
  have hne : Path.parts path ≠ other := by
    rintro rfl
    exact h List.prefix_rfl
  have hany : ((folder ++ [(path, bytes)]).any fun entry => other.isPrefixOf (Path.parts entry.1)) =
      folder.any fun entry => other.isPrefixOf (Path.parts entry.1) := by
    have hfront : other.isPrefixOf (Path.parts path) = false := by
      rwa [← Bool.not_eq_true, List.isPrefixOf_iff_prefix]
    simp [hfront]
  rw [lookup, lookup, List.reverse_append, List.reverse_singleton, List.singleton_append,
    List.find?_cons_of_neg (by simpa using hne), hany]

/-- The file that was written last at a path is read from it. -/
theorem read_written (hclear : folder.Clear names) (h : IsFilePath names) (bytes : Bytes) :
    read (folder ++ [(ofNames names, bytes)]) (ofNames names) = .ok bytes := by
  have hparts := h.parts_ofNames
  rw [read_ofNames (hclear.append fun _ => hparts) h, lookup_written hparts]
  rfl

/-- A file that is written leaves what is read at other paths as it was, if neither path goes
through the other. -/
theorem read_written_elsewhere (hclear : folder.Clear other) (hother : IsFilePath other)
    (h : IsFilePath names) (hnot : ¬names <+: other) (hnot' : ¬other <+: names) (bytes : Bytes) :
    read (folder ++ [(ofNames names, bytes)]) (ofNames other) = folder.read (ofNames other) := by
  have hparts := h.parts_ofNames
  rw [read_ofNames (hclear.append fun hp => absurd (hparts ▸ hp) hnot) hother,
    read_ofNames hclear hother, lookup_written_elsewhere (by rwa [hparts])]

end Folder

end SheetGloss
