import SheetGloss.Package.Archive
import SheetGloss.Zip.Inflate

/-!
# Handing on inflated data

Deflated data is read in chunks, and what it stands for is handed on in portions. A portion ends
where a chunk of the data is used up, where the window is full, or with the data. The portion in
which the data turns out to be broken is lost, those before it count.
-/

namespace SheetGloss.Zip

open Package (chunkSize chunks)

/-- The number of bytes in the window of inflated data. -/
def windowSize : Nat := 32768

/-- Bytes that are inflated together. -/
structure Portion where
  bytes : Bytes
  /-- Whether the next portion is inflated at once as long as a chunk is not filled. -/
  runsOn : Bool
  deriving DecidableEq, Repr

/-- The inflated bytes that are known from the first `limit` bytes of the data, at most `room`, and
those after them. -/
def splitKnown (limit : Nat) : Nat → List (UInt8 × Nat) → Bytes × List (UInt8 × Nat)
  | 0, rest => ([], rest)
  | _ + 1, [] => ([], [])
  | room + 1, (b, known) :: rest =>
    if known ≤ limit then
      let (now, later) := splitKnown limit room rest
      (b :: now, later)
    else ([], (b, known) :: rest)

/-- The portions of inflated bytes, and whether they are complete. `size` is the number of bytes of
the data, of which `used` are used up; `written` bytes were inflated before. Each portion inflates a
byte or uses one up, so `fuel` counts these. -/
def portions (size : Nat) (ending : Ending) :
    Nat → List (UInt8 × Nat) → Nat → Nat → List Portion × Bool
  | 0, _, _, _ => ([], false)
  | fuel + 1, output, used, written =>
    let limit := min size ((used / chunkSize + 1) * chunkSize)
    let (now, later) := splitKnown limit (windowSize - written % windowSize) output
    let next (runsOn : Bool) (used : Nat) : List Portion × Bool :=
      let (rest, whole) := portions size ending fuel later used (written + now.length)
      (⟨now, runsOn⟩ :: rest, whole)
    match later with
    | (_, known) :: _ =>
      if known ≤ limit then next (used = size || known < limit) (max used known)
      else next false limit
    | [] =>
      match ending with
      | .complete known => if known ≤ limit then ([⟨now, false⟩], true) else next false limit
      | .broken known => if known ≤ limit then ([], false) else next false limit
      | .short => if used = size then ([], false) else next false limit

/-- The chunks in which portions are read; `begun` is in the chunk that is begun. A chunk that is
begun when the portions break off is lost. -/
def chunksOf (begun : Bytes) : List Portion → List Bytes
  | [] => []
  | portion :: rest =>
    let bytes := begun ++ portion.bytes
    if portion.runsOn && bytes.length < chunkSize then chunksOf bytes rest
    else chunks bytes ++ chunksOf [] rest

/-- The chunks in which the inflated data is read, and whether it is complete. -/
def inflatedChunks (data : ByteArray) : List Bytes × Bool :=
  let (output, ending) := inflate data
  let (portions, whole) := portions data.size ending (output.size + data.size + 1) output.toList 0 0
  (chunksOf [] portions, whole)

end SheetGloss.Zip
