import Mathlib.Algebra.GroupWithZero.Nat
import Mathlib.Tactic.Lemma
import SheetGloss.Zip.Writer

/-!
# Bytes in place

A record of an archive is some numbers, one behind the other, and what follows them. Where the bytes
of such a record stand in a file, its numbers are read at their places.
-/

namespace SheetGloss.Zip

/-- Some bytes stand at a place of a file. -/
def StandsAt (data : ByteArray) (place : Nat) (bytes : Bytes) : Prop :=
  ∃ before after : Bytes, data.data.toList = before ++ (bytes ++ after) ∧ before.length = place

variable {data : ByteArray} {place width n : Nat} {bytes k l : Bytes}

namespace StandsAt

lemma left (h : StandsAt data place (k ++ l)) : StandsAt data place k := by
  obtain ⟨before, after, hdata, hplace⟩ := h
  exact ⟨before, l ++ after, by rw [hdata, List.append_assoc], hplace⟩

lemma right (h : StandsAt data place (k ++ l)) : StandsAt data (place + k.length) l := by
  obtain ⟨before, after, hdata, rfl⟩ := h
  exact ⟨before ++ k, after, by simp [hdata], List.length_append⟩

lemma add_length_le (h : StandsAt data place bytes) : place + bytes.length ≤ data.size := by
  obtain ⟨before, after, hdata, rfl⟩ := h
  have hlength := congrArg List.length hdata
  rw [Array.length_toList, List.length_append, List.length_append] at hlength
  change _ ≤ data.data.size
  omega

lemma take_drop (h : StandsAt data place bytes) :
    (data.data.toList.drop place).take bytes.length = bytes := by
  obtain ⟨before, after, hdata, rfl⟩ := h
  rw [hdata, List.drop_left, List.take_left]

end StandsAt

lemma size_eq_length (h : data.data.toList = bytes) : data.size = bytes.length := by
  rw [← h, Array.length_toList]
  rfl

/-! ### One number -/

lemma getElem?_eq (data : ByteArray) (place : Nat) : data[place]? = data.data.toList[place]? := by
  by_cases h : place < data.size
  · rw [getElem?_pos data place h, List.getElem?_eq_getElem (by simpa using h)]
    rfl
  · rw [getElem?_neg data place h, List.getElem?_eq_none]
    simpa using h

lemma getElem?_of_standsAt {b : UInt8} (h : StandsAt data place (b :: bytes)) :
    data[place]? = some b := by
  obtain ⟨before, after, hdata, rfl⟩ := h
  rw [getElem?_eq, hdata, List.getElem?_append_right (Nat.le_refl _), Nat.sub_self]
  rfl

lemma length_wordBytes (width n : Nat) : (wordBytes width n).length = width := by
  induction width generalizing n with
  | zero => rfl
  | succ width ih => rw [wordBytes, List.length_cons, ih]

/-- A number that fits its width is read where it was written. -/
lemma word?_of_standsAt (h : StandsAt data place (wordBytes width n)) (hn : n < 256 ^ width) :
    word? width data place = some n := by
  induction width generalizing place n with
  | zero =>
    obtain rfl : n = 0 := Nat.lt_one_iff.mp hn
    rfl
  | succ width ih =>
    have hlow : data[place]? = some n.toUInt8 := getElem?_of_standsAt h
    have hnext : StandsAt data (place + 1) (wordBytes width (n / 256)) :=
      StandsAt.right (k := [n.toUInt8]) h
    have hhigh := ih hnext (Nat.div_lt_of_lt_mul (by rwa [Nat.pow_succ, Nat.mul_comm] at hn))
    have hbyte : n.toUInt8.toNat = n % 256 := UInt8.toNat_ofNat'
    rw [word?, hlow, Option.bind_eq_bind, Option.bind_some, hhigh]
    change some (n.toUInt8.toNat + 256 * (n / 256)) = some n
    rw [hbyte, Nat.mod_add_div]

/-! ### Records -/

/-- The numbers of a record are read one behind the other. -/
def HasWords (data : ByteArray) : Nat → List (Nat × Nat) → Prop
  | _, [] => True
  | place, (width, n) :: words =>
    word? width data place = some n ∧ HasWords data (place + width) words

lemma hasWords_of_standsAt {words : List (Nat × Nat)} (h : StandsAt data place (wordsBytes words))
    (hfit : ∀ word ∈ words, word.2 < 256 ^ word.1) : HasWords data place words := by
  induction words generalizing place with
  | nil => trivial
  | cons word words ih =>
    obtain ⟨hword, hwords⟩ := List.forall_mem_cons.mp hfit
    rw [wordsBytes, List.flatMap_cons] at h
    have hright := h.right
    rw [length_wordBytes] at hright
    exact ⟨word?_of_standsAt h.left hword, ih hright hwords⟩

lemma length_wordsBytes (words : List (Nat × Nat)) :
    (wordsBytes words).length = (words.map Prod.fst).sum := by
  induction words with
  | nil => rfl
  | cons word words ih =>
    rw [wordsBytes, List.flatMap_cons, List.length_append, length_wordBytes, ← wordsBytes, ih,
      List.map_cons, List.sum_cons]

lemma wordsBytes_append (words more : List (Nat × Nat)) :
    wordsBytes (words ++ more) = wordsBytes words ++ wordsBytes more := List.flatMap_append

/-! ### Texts and contents -/

lemma extract_of_standsAt (h : StandsAt data place bytes) :
    (data.extract place (place + bytes.length)).data.toList = bytes := by
  rw [ByteArray.data_extract, Array.toList_extract, List.extract_eq_take_drop,
    Nat.add_sub_cancel_left, h.take_drop]

lemma bytes?_of_standsAt (h : StandsAt data place bytes) :
    bytes? bytes.length data place = some bytes := by
  have hsize := h.add_length_le
  rw [bytes?, if_neg (by omega), extract_of_standsAt h]

end SheetGloss.Zip
