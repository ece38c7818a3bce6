import SheetGloss.Package.File
import SheetGloss.Proofs.ArchiveBytes
import SheetGloss.Proofs.PackageRoundTrip

/-!
# Reading a stored archive

The last bytes of a stored archive are the record that ends its directory. The directory has an
entry for each part, in order, and what an entry tells of a part is what stands in front of the part
itself. Reading the archive therefore gives the parts as they were, whatever their names and their
contents.
-/

namespace SheetGloss.Zip

open Package (chunks)

variable {data : ByteArray} {place start : Nat} {name : Text} {content : Bytes}
  {parts : List (Text × Bytes)}

/-! ### Entries of the directory -/

/-- What the directory tells about a stored part. -/
def storedHeader (place : Nat) (name : Text) (content : Bytes) : Header where
  rawName := Utf8.encode name
  name := name
  comment := []
  method := 0
  encrypted := false
  aes := false
  check := (crc32 content).toNat
  storedSize := content.length
  fullSize := content.length
  place := place

lemma extend?_nil {header : Header} (h : header.method = 0) : header.extend? [] = some header := by
  have hrun : (ExtraReader.fields 0).run.run ⟨header, []⟩ = (.ok (), ⟨header, []⟩) := rfl
  rw [Header.extend?, List.length_nil, hrun]
  simp [h, Header.aesMethod]

/-- The numbers in front of the name in an entry. -/
def entryWords (place nameLength : Nat) (content : Bytes) : List (Nat × Nat) :=
  [(4, entryMark), (2, 20), (2, 20), (2, 0x0800), (2, 0), (4, 0), (4, (crc32 content).toNat),
    (4, content.length), (4, content.length), (2, nameLength), (2, 0), (2, 0), (2, 0), (2, 0),
    (4, 0), (4, place)]

lemma storedEntry_eq (place : Nat) (name content : Bytes) : storedEntry place name content =
    wordsBytes (entryWords place name.length content) ++ name := by
  simp only [storedEntry, description, entryWords, ← wordsBytes_append, List.cons_append,
    List.nil_append]

lemma length_entryWords (place nameLength : Nat) (content : Bytes) :
    (wordsBytes (entryWords place nameLength content)).length = 46 := by
  rw [length_wordsBytes]
  simp [entryWords]

lemma length_storedEntry (place : Nat) (name content : Bytes) :
    (storedEntry place name content).length = 46 + name.length := by
  rw [storedEntry_eq, List.length_append, length_entryWords]

/-- The entry of a stored part is read as it was written. -/
lemma headerAt?_storedEntry (directory : Directory)
    (h : StandsAt data start (storedEntry place (Utf8.encode name) content))
    (hname : (Utf8.encode name).length < 0x10000) (hcontent : content.length < 0x100000000)
    (hoffset : directory.offset < 0x100000000) (hplace : place < directory.offset)
    (hbase : directory.base = 0) : headerAt? data directory start =
      some (storedHeader place name content, start + 46 + (Utf8.encode name).length) := by
  have hcheck : (crc32 content).toNat < 0x100000000 := (crc32 content).toNat_lt
  rw [storedEntry_eq] at h
  have hwords := hasWords_of_standsAt h.left (by
    simp only [entryWords, List.mem_cons, List.not_mem_nil, or_false, forall_eq_or_imp, forall_eq,
      entryMark]
    omega)
  have hraw := h.right
  rw [length_entryWords] at hraw
  have hend : StandsAt data (start + 46 + (Utf8.encode name).length) [] :=
    StandsAt.right (l := []) (by rwa [List.append_nil])
  simp only [entryWords, HasWords, Nat.add_assoc, Nat.reduceAdd] at hwords
  obtain ⟨hmark, -, -, hflags, hmethod, -, hcrc, hstored, hfull, hnames, hextra, hcomment, -, -, -,
    hplaces, -⟩ := hwords
  have hbefore : ¬directory.start ≤ directory.base + place := by
    rw [Directory.start, hbase]
    omega
  have hnone := bytes?_of_standsAt hend
  rw [List.length_nil] at hnone
  simp only [headerAt?, hmark, hflags, hmethod, hcrc, hstored, hfull, hnames, hextra, hcomment,
    hplaces, bytes?_of_standsAt hraw, hnone, Option.bind_eq_bind, Option.bind_some, ne_eq,
    not_true_eq_false, if_false, Nat.add_zero, extend?_nil, if_neg hbefore]
  have hutf8 : Nat.testBit 0x0800 11 = true := by decide
  have hplain : Nat.testBit 0x0800 0 = false := by decide
  have htext : headerText true (Utf8.encode name) = name := Utf8.repair_encode name
  have hempty : headerText true [] = [] := Utf8.repair_encode []
  rw [hutf8, hplain, htext, hempty, hbase, Nat.zero_add]
  rfl

/-! ### Parts -/

/-- The numbers in front of the name of a part. -/
def partWords (nameLength : Nat) (content : Bytes) : List (Nat × Nat) :=
  [(4, partMark), (2, 20), (2, 0x0800), (2, 0), (4, 0), (4, (crc32 content).toNat),
    (4, content.length), (4, content.length), (2, nameLength), (2, 0)]

lemma storedPart_eq (name content : Bytes) : storedPart name content =
    wordsBytes (partWords name.length content) ++ (name ++ content) := by
  have hmark : wordBytes 4 partMark = wordsBytes [(4, partMark)] := (List.append_nil _).symm
  simp only [storedPart, description, partWords, hmark, ← wordsBytes_append, List.cons_append,
    List.nil_append, List.append_assoc]

lemma length_partWords (nameLength : Nat) (content : Bytes) :
    (wordsBytes (partWords nameLength content)).length = 30 := by
  rw [length_wordsBytes]
  rfl

lemma length_storedPart (name content : Bytes) :
    (storedPart name content).length = 30 + (name.length + content.length) := by
  rw [storedPart_eq, List.length_append, length_partWords, List.length_append]

/-- A stored part is read as it was written, and its check fits. -/
lemma part?_storedPart (h : StandsAt data place (storedPart (Utf8.encode name) content))
    (hname : (Utf8.encode name).length < 0x10000) (hcontent : content.length < 0x100000000) :
    part? data (storedHeader place name content) = some ⟨chunks content, true⟩ := by
  have hcheck : (crc32 content).toNat < 0x100000000 := (crc32 content).toNat_lt
  rw [storedPart_eq] at h
  have hwords := hasWords_of_standsAt h.left (by
    simp only [partWords, List.mem_cons, List.not_mem_nil, or_false, forall_eq_or_imp, forall_eq,
      partMark]
    omega)
  have hbytes := h.right.right
  rw [length_partWords] at hbytes
  simp only [partWords, HasWords, Nat.add_assoc, Nat.reduceAdd] at hwords
  obtain ⟨hmark, -, -, -, -, -, -, -, hnames, hextra, -⟩ := hwords
  have hplace : contentPlace? data place = some (place + 30 + (Utf8.encode name).length) := by
    simp only [contentPlace?, hmark, hnames, hextra, Option.bind_eq_bind, Option.bind_some, ne_eq,
      not_true_eq_false, if_false, Nat.add_zero]
    rfl
  have hread := extract_of_standsAt hbytes
  have hsize := hbytes.add_length_le
  rw [part?]
  simp only [storedHeader, Header.isReadable, hplace, Nat.min_eq_right hsize, hread, if_true,
    Package.flatten_chunks, Option.bind_eq_bind, Option.bind_some]
  simp

/-! ### The directory -/

def encoded (parts : List (Text × Bytes)) : List (Bytes × Bytes) :=
  parts.map fun (name, content) => (Utf8.encode name, content)

/-- The parts of a stored archive, one after another. -/
def storedParts (parts : List (Text × Bytes)) : Bytes :=
  (encoded parts).flatMap fun (name, content) => storedPart name content

lemma storedParts_cons (name : Text) (content : Bytes) (parts : List (Text × Bytes)) :
    storedParts ((name, content) :: parts) =
      storedPart (Utf8.encode name) content ++ storedParts parts := List.flatMap_cons

/-- What the directory tells about parts, the first of which begins at a place. -/
def storedHeaders (place : Nat) : List (Text × Bytes) → List Header
  | [] => []
  | (name, content) :: rest =>
    storedHeader place name content ::
      storedHeaders (place + (storedPart (Utf8.encode name) content).length) rest

/-- Names and contents whose lengths fit in front of a part. -/
def LengthsFit (parts : List (Text × Bytes)) : Prop :=
  ∀ part ∈ parts, (Utf8.encode part.1).length < 0x10000 ∧ part.2.length < 0x100000000

lemma headersFrom?_storedEntries (directory : Directory)
    (h : StandsAt data start (storedEntries place (encoded parts))) (hfit : LengthsFit parts)
    (hoffset : directory.offset < 0x100000000) (hbase : directory.base = 0)
    (hplace : place + (storedParts parts).length ≤ directory.offset) :
    headersFrom? data directory parts.length start = some (storedHeaders place parts) := by
  induction parts generalizing place start with
  | nil => rfl
  | cons part parts ih =>
    obtain ⟨name, content⟩ := part
    obtain ⟨⟨hname, hcontent⟩, hrest⟩ := List.forall_mem_cons.mp hfit
    rw [storedParts_cons, List.length_append] at hplace
    have hlength := length_storedPart (Utf8.encode name) content
    dsimp only at hname hcontent
    have hentry := headerAt?_storedEntry directory (StandsAt.left h) hname hcontent hoffset
      (by omega) hbase
    have hentries := StandsAt.right h
    rw [length_storedEntry, ← Nat.add_assoc] at hentries
    have hheaders := ih hentries hrest (by omega)
    simp only [List.length_cons, headersFrom?, hentry, hheaders, Option.bind_eq_bind,
      Option.bind_some]
    rfl

/-- Each part is found behind its own front, where its entry says that it begins. -/
lemma map_part?_storedHeaders (h : StandsAt data place (storedParts parts))
    (hfit : LengthsFit parts) :
    (storedHeaders place parts).map
        (fun header => (⟨header.name, part? data header⟩ : Package.Entry)) =
      parts.map fun (name, content) => .sound name content := by
  induction parts generalizing place with
  | nil => rfl
  | cons part parts ih =>
    obtain ⟨name, content⟩ := part
    obtain ⟨⟨hname, hcontent⟩, hrest⟩ := List.forall_mem_cons.mp hfit
    rw [storedParts_cons] at h
    rw [storedHeaders, List.map_cons, List.map_cons, part?_storedPart h.left hname hcontent,
      ih h.right hrest]
    rfl

/-! ### The end of the directory -/

/-- The numbers of the record at the end. -/
def endWords (count directoryLength offset : Nat) : List (Nat × Nat) :=
  [(4, endMark), (2, 0), (2, 0), (2, count), (2, count), (4, directoryLength), (4, offset), (2, 0)]

lemma store_eq (parts : List (Text × Bytes)) : store parts =
    storedParts parts ++ (storedEntries 0 (encoded parts) ++
      wordsBytes (endWords parts.length (storedEntries 0 (encoded parts)).length
        (storedParts parts).length)) := by
  have hlength : (encoded parts).length = parts.length := List.length_map ..
  rw [endWords, ← hlength, ← List.append_assoc]
  rfl

lemma length_endWords (count directoryLength offset : Nat) :
    (wordsBytes (endWords count directoryLength offset)).length = 22 := by
  rw [length_wordsBytes]
  rfl

lemma length_storedParts (parts : List (Text × Bytes)) : (storedParts parts).length =
    (parts.map fun part => 30 + ((Utf8.encode part.1).length + part.2.length)).sum := by
  induction parts with
  | nil => rfl
  | cons part parts ih =>
    rw [storedParts_cons, List.length_append, length_storedPart, ih, List.map_cons, List.sum_cons]

lemma length_storedEntries (place : Nat) (parts : List (Text × Bytes)) :
    (storedEntries place (encoded parts)).length =
      (parts.map fun part => 46 + (Utf8.encode part.1).length).sum := by
  induction parts generalizing place with
  | nil => rfl
  | cons part parts ih =>
    rw [encoded, List.map_cons, storedEntries, ← encoded, List.length_append, length_storedEntry,
      ih, List.map_cons, List.sum_cons]

/-- The length of a stored archive follows from the lengths of the names and the contents. -/
lemma length_store (parts : List (Text × Bytes)) : (store parts).length =
    (parts.map fun part => 30 + ((Utf8.encode part.1).length + part.2.length)).sum +
      ((parts.map fun part => 46 + (Utf8.encode part.1).length).sum + 22) := by
  rw [store_eq, List.length_append, List.length_append, length_storedParts, length_storedEntries,
    length_endWords]

/-- A number of parts, names, and an archive that are not too great for the numbers in it. -/
structure Storable (parts : List (Text × Bytes)) : Prop where
  count_lt : parts.length < 0xFFFF
  name_lt : ∀ part ∈ parts, (Utf8.encode part.1).length < 0x10000
  size_lt : (store parts).length < 0xFFFFFFFF

lemma length_le_storedParts {part : Text × Bytes} (h : part ∈ parts) :
    part.2.length ≤ (storedParts parts).length := by
  induction parts with
  | nil => cases h
  | cons first parts ih =>
    have hlength := length_storedPart (Utf8.encode first.1) first.2
    rw [storedParts_cons, List.length_append]
    rcases List.mem_cons.mp h with rfl | h
    · omega
    · have hle := ih h
      omega

lemma Storable.lengthsFit (h : Storable parts) : LengthsFit parts := by
  intro part hm
  have hsize := h.size_lt
  have hle := length_le_storedParts hm
  rw [store_eq, List.length_append] at hsize
  exact ⟨h.name_lt part hm, by omega⟩

lemma entryMark_of_storedEntries (h : StandsAt data start (storedEntries 0 (encoded parts)))
    (hsome : parts ≠ []) : word? 4 data start = some entryMark := by
  obtain ⟨⟨name, content⟩, rest, rfl⟩ := List.exists_cons_of_ne_nil hsome
  have hentry := StandsAt.left h
  rw [storedEntry_eq, entryWords, wordsBytes, List.flatMap_cons] at hentry
  exact word?_of_standsAt hentry.left.left (by decide)

/-- The record at the end leads to the directory. It begins where its first entry is found, so that
the archive begins with the file. -/
lemma directory?_store (hentries : StandsAt data start (storedEntries 0 (encoded parts)))
    (hplace : place = start + (storedEntries 0 (encoded parts)).length) :
    EndRecord.directory? data place ⟨0, 0, parts.length, parts.length, start⟩ =
      some ⟨0, start, parts.length, 0, 0⟩ := by
  rw [EndRecord.directory?]
  by_cases hnil : parts = []
  · subst hnil hplace
    simp
  · have hmark := entryMark_of_storedEntries hentries hnil
    have hlength : parts.length ≠ 0 := mt List.length_eq_zero_iff.mp hnil
    obtain ⟨count, hcount⟩ : ∃ count, place - start = count + 1 := by
      obtain ⟨⟨name, content⟩, rest, rfl⟩ := List.exists_cons_of_ne_nil hnil
      have hentry := length_storedEntry 0 (Utf8.encode name) content
      refine ⟨place - start - 1, ?_⟩
      rw [encoded, List.map_cons, storedEntries, List.length_append, hentry] at hplace
      omega
    have hfirst : findMark? data entryMark start (place - start) = some start := by
      rw [hcount, findMark?, if_pos hmark]
    simp only [hlength, if_false, hfirst, Option.bind_eq_bind, Option.bind_some, Nat.sub_self]
    rfl

lemma standsAt_storedEntries (hdata : data.data.toList = store parts) :
    StandsAt data (storedParts parts).length (storedEntries 0 (encoded parts)) :=
  ⟨storedParts parts, _, hdata.trans (store_eq parts), rfl⟩

/-- The record at the end of a stored archive is read as it was written. -/
lemma directoryAt?_store (h : Storable parts) (hdata : data.data.toList = store parts) :
    directoryAt? data (data.size - 22) =
      some ⟨0, (storedParts parts).length, parts.length, 0, 0⟩ := by
  have hcount := h.count_lt
  have hstore := h.size_lt
  have hsize := size_eq_length hdata
  rw [store_eq, List.length_append, List.length_append, length_endWords] at hsize hstore
  obtain ⟨place, hplace⟩ : ∃ place,
      place = (storedParts parts).length + (storedEntries 0 (encoded parts)).length := ⟨_, rfl⟩
  have hend : StandsAt data place (wordsBytes (endWords parts.length
      (storedEntries 0 (encoded parts)).length (storedParts parts).length)) := by
    refine ⟨storedParts parts ++ storedEntries 0 (encoded parts), [], ?_, ?_⟩
    · rw [hdata, store_eq, List.append_nil, List.append_assoc]
    · rw [List.length_append, hplace]
  have hwords := hasWords_of_standsAt hend (by
    simp only [endWords, List.mem_cons, List.not_mem_nil, or_false, forall_eq_or_imp, forall_eq,
      endMark]
    omega)
  simp only [endWords, HasWords, Nat.add_assoc, Nat.reduceAdd] at hwords
  obtain ⟨hmark, hdisk, hfirst, hsome, htotal, -, hoffset, hcomment, -⟩ := hwords
  have hrecord : EndRecord.at? data place =
      some ⟨0, 0, parts.length, parts.length, (storedParts parts).length⟩ := by
    simp only [EndRecord.at?, hmark, hdisk, hfirst, hsome, htotal, hoffset, hcomment,
      Option.bind_eq_bind, Option.bind_some, ne_eq, not_true_eq_false, if_false,
      if_neg (show ¬data.size < place + 22 + 0 by omega)]
    rfl
  have hcountNe : parts.length ≠ 0xFFFF := by omega
  have hoffsetNe : (storedParts parts).length ≠ 0xFFFFFFFF := by omega
  have hlast : data.size - 22 = place := by omega
  -- No number is so great that a second record would count.
  simp only [hlast, directoryAt?, hrecord, Option.bind_eq_bind, Option.bind_some, hcountNe,
    hoffsetNe, decide_false, Bool.or_self, Bool.and_false, Bool.false_eq_true, if_false]
  exact directory?_store (standsAt_storedEntries hdata) hplace

/-- Reading a stored archive gives its parts, in order and in good order. -/
theorem read?_store (h : Storable parts) : read? ⟨(store parts).toArray⟩ =
    some (parts.map fun (name, content) => .sound name content) := by
  have hdata : (⟨(store parts).toArray⟩ : ByteArray).data.toList = store parts := rfl
  generalize (⟨(store parts).toArray⟩ : ByteArray) = data at hdata
  have hsize := size_eq_length hdata
  have hfit := h.lengthsFit
  have hstore := h.size_lt
  have hdirectory := directoryAt?_store h hdata
  rw [store_eq, List.length_append, List.length_append, length_endWords] at hsize hstore
  have hparts : StandsAt data 0 (storedParts parts) :=
    ⟨[], _, hdata.trans (store_eq parts), rfl⟩
  have hheaders := headersFrom?_storedEntries ⟨0, (storedParts parts).length, parts.length, 0, 0⟩
    (standsAt_storedEntries hdata) hfit (by dsimp only; omega) rfl (by dsimp only; omega)
  have hbefore : headersBefore? data (data.size - 22) = some (storedHeaders 0 parts) := by
    have hfound : Directory.headers? data ⟨0, (storedParts parts).length, parts.length, 0, 0⟩ =
        some (storedHeaders 0 parts) := by
      rw [Directory.headers?, if_neg (by simp), Directory.start, Nat.zero_add]
      exact hheaders
    unfold headersBefore?
    rw [hdirectory, Option.bind_some, hfound]
  simp only [read?, if_neg (show ¬data.size < 22 by omega), hbefore, Option.bind_eq_bind,
    Option.bind_some, map_part?_storedHeaders hparts hfit]
  rfl

end SheetGloss.Zip

namespace SheetGloss.Package

open Xml (Markup)

/-- The bytes of documents, by the names of their parts. -/
def documentBytes (parts : List (Text × List Markup)) : List (Text × Bytes) :=
  parts.map fun part => (part.1, Utf8.encode (Xml.documentText part.2))

/-- A workbook that was written as documents and stored as an archive is read from the bytes of the
archive, with all its sheets. -/
theorem readArchive_store (layouts : List Layout)
    (hnames : (layouts.map fun layout => layout.sheet.name).Nodup)
    (hstorable : Zip.Storable (documentBytes (writtenDocuments layouts))) :
    readArchive (Zip.store (documentBytes (writtenDocuments layouts))) =
      .ok ⟨layouts.map fun layout => layout.sheet⟩ := by
  have hparts : (documentBytes (writtenDocuments layouts)).map
      (fun (name, content) => Entry.sound name content) = writtenArchive layouts := by
    rw [documentBytes, List.map_map]
    rfl
  rw [readArchive, Zip.read?_store hstorable, hparts]
  exact read_written layouts hnames

end SheetGloss.Package
