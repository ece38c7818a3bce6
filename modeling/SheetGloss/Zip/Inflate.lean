import SheetGloss.Text.Utf8

/-!
# Deflated data

Data in the deflate format: blocks that are stored, or coded by fixed or by transmitted prefix
codes, with back references into what was already read. What is inflated before an error counts, and
each byte comes with the amount of data that it takes to know it.
-/

namespace SheetGloss.Zip

/-- How inflating ends. The number is that of the bytes of the data that it takes to see the end. -/
inductive Ending where
  | complete (known : Nat)
  | broken (known : Nat)
  /-- The data stops before its end. -/
  | short
  deriving DecidableEq, Repr

/-- A position in a sequence of bits; the lowest bit of a byte comes first. -/
structure BitSource where
  data : ByteArray
  /-- The number of bits read. -/
  position : Nat

/-- The number of bytes that have been read, the last of them perhaps in part. -/
def BitSource.known (source : BitSource) : Nat := (source.position + 7) / 8

/-- Reading of bits. -/
abbrev BitReader := StateT BitSource (Except Ending)

namespace BitReader

/-- Refuses the data. -/
def broken {α : Type} : BitReader α := do throw (.broken (← get).known)

/-- Reads one bit. -/
def bit : BitReader Nat := do
  let source ← get
  if h : source.position / 8 < source.data.size then
    set { source with position := source.position + 1 }
    return source.data[source.position / 8].toNat / Nat.pow 2 (source.position % 8) % 2
  else throw .short

/-- Reads a number of bits, the lowest first. -/
def bits : Nat → BitReader Nat
  | 0 => return 0
  | n + 1 => do
    let low ← bit
    let high ← bits n
    return low + 2 * high

/-- Moves to the next whole byte. -/
def align : BitReader Unit :=
  modify fun source => { source with position := (source.position + 7) / 8 * 8 }

end BitReader

open BitReader

/-- A canonical code: how many words there are of each length from one bit up to the longest, and
the symbols in the order of their words. -/
structure Code where
  /-- The number of words of each length. A code without words still has the count for one bit. -/
  counts : List Nat
  /-- The symbols, by length and then by value. -/
  symbols : Array Nat

namespace Code

/-- The code in which each symbol has a word of the given length, none when the length is zero. -/
def ofLengths (lengths : List Nat) : Code :=
  let lengthsUsed := List.range' 1 (max 1 (lengths.foldl max 0))
  ⟨lengthsUsed.map fun n => lengths.count n,
    (lengthsUsed.flatMap fun n => (lengths.zipIdx.filter (·.1 == n)).map (·.2)).toArray⟩

/-- Whether words of these lengths are just enough for every sequence of bits to begin with one. -/
def isComplete (lengths : List Nat) : Bool :=
  lengths.foldl (fun sum n => if n = 0 then sum else sum + Nat.pow 2 (15 - n)) 0 = Nat.pow 2 15

/-- Whether a block may use a code with words of these lengths: it is complete, or has no word, or
one word of one bit. -/
def isUsable (lengths : List Nat) : Bool := isComplete lengths || lengths.foldl (· + ·) 0 ≤ 1

/-- Reads on in a word: `word` has been read, `first` is the first word of this length less one bit,
and `index` symbols have shorter words. After as many bits as the longest word has, the data is
broken. -/
def symbolFrom (symbols : Array Nat) (word first index : Nat) : List Nat → BitReader Nat
  | [] => broken
  | count :: counts => do
    let word := 2 * word + (← bit)
    let first := 2 * first
    if word < first + count then
      match symbols[index + (word - first)]? with
      | some symbol => return symbol
      | none => broken
    else symbolFrom symbols word (first + count) (index + count) counts

/-- Reads one symbol. -/
def symbol (code : Code) : BitReader Nat := symbolFrom code.symbols 0 0 0 code.counts

end Code

/-- The least length and the extra bits of each length symbol. -/
def lengthTable : Array (Nat × Nat) :=
  #[(3, 0), (4, 0), (5, 0), (6, 0), (7, 0), (8, 0), (9, 0), (10, 0), (11, 1), (13, 1), (15, 1),
    (17, 1), (19, 2), (23, 2), (27, 2), (31, 2), (35, 3), (43, 3), (51, 3), (59, 3), (67, 4),
    (83, 4), (99, 4), (115, 4), (131, 5), (163, 5), (195, 5), (227, 5), (258, 0)]

/-- The least distance and the extra bits of each distance symbol. -/
def distanceTable : Array (Nat × Nat) :=
  #[(1, 0), (2, 0), (3, 0), (4, 0), (5, 1), (7, 1), (9, 2), (13, 2), (17, 3), (25, 3), (33, 4),
    (49, 4), (65, 5), (97, 5), (129, 6), (193, 6), (257, 7), (385, 7), (513, 8), (769, 8),
    (1025, 9), (1537, 9), (2049, 10), (3073, 10), (4097, 11), (6145, 11), (8193, 12), (12289, 12),
    (16385, 13), (24577, 13)]

/-- The order in which the lengths of the length code are transmitted. -/
def lengthOrder : List Nat := [16, 17, 18, 0, 8, 7, 9, 6, 10, 5, 11, 4, 12, 3, 13, 2, 14, 1, 15]

/-- Reads the number that a symbol of a table stands for, with its extra bits. -/
def extended (table : Array (Nat × Nat)) (symbol : Nat) : BitReader Nat :=
  match table[symbol]? with
  | some (least, extra) => do return least + (← bits extra)
  | none => broken

/-- What stands next in a coded block. -/
inductive BlockItem where
  | literal (b : UInt8)
  | copy (length distance : Nat)
  | stop
  deriving DecidableEq, Repr

/-- Reads an item of a coded block. -/
def blockItem (literals distances : Code) : BitReader BlockItem := do
  let symbol ← literals.symbol
  if symbol < 256 then return .literal symbol.toUInt8
  else if symbol = 256 then return .stop
  else
    let length ← extended lengthTable (symbol - 257)
    let distance ← extended distanceTable (← distances.symbol)
    return .copy length distance

/-- How a block is written. -/
inductive Block where
  | stored (length : Nat)
  | coded (literals distances : Code)

/-- Reads the lengths of a transmitted code: `missing` are still to come, the known ones come last
first. Each step reads at least one, so `fuel` counts them. -/
def codeLengths (code : Code) : Nat → Nat → List Nat → BitReader (List Nat)
  | 0, _, _ => broken
  | fuel + 1, missing, known =>
    if missing = 0 then return known.reverse
    else do
      let symbol ← code.symbol
      let (value, count) ←
        if symbol < 16 then pure (symbol, 1)
        else if symbol = 16 then
          match known.head? with
          | some value => do pure (value, 3 + (← bits 2))
          | none => broken
        else if symbol = 17 then do pure (0, 3 + (← bits 3))
        else do pure (0, 11 + (← bits 7))
      if missing < count then broken
      else codeLengths code fuel (missing - count) (List.replicate count value ++ known)

/-- The lengths of the fixed literal code. -/
def fixedLiterals : List Nat :=
  List.replicate 144 8 ++ List.replicate 112 9 ++ List.replicate 24 7 ++ List.replicate 8 8

/-- The lengths of the fixed distance code. -/
def fixedDistances : List Nat := List.replicate 32 5

/-- Reads a number of three-bit lengths. -/
def shortLengths : Nat → BitReader (List Nat)
  | 0 => return []
  | n + 1 => do
    let length ← bits 3
    let lengths ← shortLengths n
    return length :: lengths

/-- Reads the codes that a block transmits: literals, then distances. -/
def transmittedCodes : BitReader Block := do
  let literalCount := 257 + (← bits 5)
  let distanceCount := 1 + (← bits 5)
  let lengthCount := 4 + (← bits 4)
  if 286 < literalCount || 30 < distanceCount then broken
  let short ← shortLengths lengthCount
  let lengths := (List.range 19).map fun symbol =>
    ((lengthOrder.zip short).find? (·.1 == symbol)).elim 0 (·.2)
  if !Code.isComplete lengths then broken
  let total := literalCount + distanceCount
  let lengths ← codeLengths (.ofLengths lengths) (total + 1) total []
  let literals := lengths.take literalCount
  let distances := lengths.drop literalCount
  if Code.isUsable literals && Code.isUsable distances then
    return .coded (.ofLengths literals) (.ofLengths distances)
  else broken

/-- Reads how the next block is written, and whether it is the last. -/
def blockStart : BitReader (Bool × Block) := do
  let last := (← bit) = 1
  let kind ← bits 2
  if kind = 0 then
    align
    let length ← bits 16
    let check ← bits 16
    if length + check = 65535 then return (last, .stored length) else broken
  else if kind = 1 then
    return (last, .coded (.ofLengths fixedLiterals) (.ofLengths fixedDistances))
  else if kind = 2 then return (last, ← transmittedCodes)
  else broken

/-- Inflated bytes, each with the number of bytes of the data that it takes to know it. -/
abbrev Inflated := Array (UInt8 × Nat)

/-- Copies bytes from some distance back; what is copied may itself be copied again, and there are
zeros in front of the first byte. -/
def copyBack (distance known : Nat) : Nat → Inflated → Inflated
  | 0, output => output
  | n + 1, output =>
    let b := if output.size < distance then 0 else
      (output[output.size - distance]?.map (·.1)).getD 0
    copyBack distance known n (output.push (b, known))

/-- Reads whole bytes. -/
def storedBytes : Nat → Inflated → BitSource → Inflated × Except Ending BitSource
  | 0, output, source => (output, .ok source)
  | n + 1, output, source =>
    match (bits 8).run source with
    | .error ending => (output, .error ending)
    | .ok (b, source) => storedBytes n (output.push (b.toUInt8, source.known)) source

/-- Reads items up to the end of a block. Each takes at least one bit, so `fuel` counts bits. -/
def codedBytes (literals distances : Code) :
    Nat → Inflated → BitSource → Inflated × Except Ending BitSource
  | 0, output, source => (output, .error (.broken source.known))
  | fuel + 1, output, source =>
    match (blockItem literals distances).run source with
    | .error ending => (output, .error ending)
    | .ok (.literal b, source) =>
      codedBytes literals distances fuel (output.push (b, source.known)) source
    | .ok (.copy length distance, source) =>
      codedBytes literals distances fuel (copyBack distance source.known length output) source
    | .ok (.stop, source) => (output, .ok source)

/-- Reads a block. -/
def Block.bytes (fuel : Nat) :
    Block → Inflated → BitSource → Inflated × Except Ending BitSource
  | stored length => storedBytes length
  | coded literals distances => codedBytes literals distances fuel

/-- Reads blocks up to the last; `fuel` counts bits. -/
def inflateBlocks : Nat → Inflated → BitSource → Inflated × Ending
  | 0, output, source => (output, .broken source.known)
  | fuel + 1, output, source =>
    match blockStart.run source with
    | .error ending => (output, ending)
    | .ok ((last, block), source) =>
      match block.bytes fuel output source with
      | (output, .error ending) => (output, ending)
      | (output, .ok source) =>
        if last then (output, .complete source.known) else inflateBlocks fuel output source

/-- The bytes that deflated data stands for, up to its end or to an error. -/
def inflate (data : ByteArray) : Inflated × Ending :=
  inflateBlocks (8 * data.size + 1) #[] ⟨data, 0⟩

end SheetGloss.Zip
