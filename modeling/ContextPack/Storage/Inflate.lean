import ContextPack.Storage.Bytes

/-!
# Deflated data

Reads data that was packed by repetition and by codes of uneven length.  A
stream is a row of blocks; in a block stand bytes as they are, or codewords for
bytes and for copies of what came before.
-/

namespace ContextPack.Storage.Inflate

/-! ## Bits -/

/-- A place in a row of bits, the lowest bit of each byte first. -/
structure Bits where
  data : ByteArray
  position : Nat

namespace Bits

def next? (bits : Bits) : Option (Nat × Bits) :=
  (byteAt? bits.data (bits.position / 8)).map fun byte =>
    ((byte >>> (bits.position % 8)) % 2, { bits with position := bits.position + 1 })

/-- A number of so many bits, the lowest first. -/
def number? : Nat → Bits → Option (Nat × Bits)
  | 0, bits => some (0, bits)
  | count + 1, bits =>
    match bits.next? with
    | none => none
    | some (low, bits) =>
      (number? count bits).map fun (high, bits) => (2 * high + low, bits)

/-- So many numbers of the same width. -/
def numbers? (width : Nat) : Nat → Bits → Option (List Nat × Bits)
  | 0, bits => some ([], bits)
  | count + 1, bits =>
    match bits.number? width with
    | none => none
    | some (first, bits) =>
      (numbers? width count bits).map fun (others, bits) => (first :: others, bits)

end Bits

/-! ## Codes -/

/-- The longest codeword. -/
def longestWord : Nat := 15

/-- A code in which the codewords of one length are consecutive numbers and go
up with their symbols. -/
structure Code where
  /-- How many codewords there are of each length, from one on. -/
  counts : List Nat
  /-- The symbols, by the length of their codewords. -/
  symbols : Array Nat

/-- The code in which each symbol's codeword has a given length; none if zero. -/
def Code.ofLengths (lengths : List Nat) : Code :=
  let sizes := (List.range longestWord).map (· + 1)
  { counts := sizes.map fun size => lengths.count size
    symbols := (sizes.flatMap fun size =>
      lengths.zipIdx.filterMap fun (length, symbol) =>
        if length = size then some symbol else none).toArray }

/-- Reads a codeword bit by bit.  `first` is the first codeword of the length
reached, `index` the place of its symbol. -/
def Code.symbolFrom (symbols : Array Nat) : List Nat → Nat → Nat → Nat → Bits → Option (Nat × Bits)
  | [], _, _, _, _ => none
  | count :: rest, word, first, index, bits =>
    match bits.next? with
    | none => none
    | some (bit, bits) =>
      let word := word + bit
      if word < first + count then
        symbols[index + (word - first)]?.map fun symbol => (symbol, bits)
      else symbolFrom symbols rest (2 * word) (2 * (first + count)) (index + count) bits

def Code.symbol? (code : Code) (bits : Bits) : Option (Nat × Bits) :=
  symbolFrom code.symbols code.counts 0 0 0 bits

/-! ## Copies -/

/-- The least length of each length symbol and how many bits add to it. -/
def lengthRanges : List (Nat × Nat) :=
  [(3, 0), (4, 0), (5, 0), (6, 0), (7, 0), (8, 0), (9, 0), (10, 0), (11, 1), (13, 1), (15, 1),
   (17, 1), (19, 2), (23, 2), (27, 2), (31, 2), (35, 3), (43, 3), (51, 3), (59, 3), (67, 4),
   (83, 4), (99, 4), (115, 4), (131, 5), (163, 5), (195, 5), (227, 5), (258, 0)]

/-- The same for distances. -/
def distanceRanges : List (Nat × Nat) :=
  [(1, 0), (2, 0), (3, 0), (4, 0), (5, 1), (7, 1), (9, 2), (13, 2), (17, 3), (25, 3), (33, 4),
   (49, 4), (65, 5), (97, 5), (129, 6), (193, 6), (257, 7), (385, 7), (513, 8), (769, 8),
   (1025, 9), (1537, 9), (2049, 10), (3073, 10), (4097, 11), (6145, 11), (8193, 12), (12289, 12),
   (16385, 13), (24577, 13)]

/-- The number that a symbol and the bits behind it stand for. -/
def inRange? (ranges : List (Nat × Nat)) (symbol : Nat) (bits : Bits) : Option (Nat × Bits) :=
  match ranges[symbol]? with
  | none => none
  | some (least, width) =>
    (bits.number? width).map fun (more, bits) => (least + more, bits)

/-- Appends so many bytes, each the one that stands a distance back. -/
def copyBack (distance : Nat) : Nat → ByteArray → ByteArray
  | 0, written => written
  | count + 1, written =>
    copyBack distance count (written.push ((written[written.size - distance]?).getD 0))

/-! ## Blocks -/

/-- The symbol that ends a block. -/
def endSymbol : Nat := 256

/-- Reads symbols up to the end of the block. -/
def symbols? (literals distances : Code) : Nat → Bits → ByteArray → Option (Bits × ByteArray)
  | 0, _, _ => none
  | fuel + 1, bits, written =>
    match literals.symbol? bits with
    | none => none
    | some (symbol, bits) =>
      if symbol < endSymbol then
        symbols? literals distances fuel bits (written.push (UInt8.ofNat symbol))
      else if symbol = endSymbol then some (bits, written)
      else
        match inRange? lengthRanges (symbol - (endSymbol + 1)) bits with
        | none => none
        | some (length, bits) =>
          match (distances.symbol? bits).bind fun (symbol, bits) =>
              inRange? distanceRanges symbol bits with
          | none => none
          | some (distance, bits) =>
            if written.size < distance then none
            else symbols? literals distances fuel bits (copyBack distance length written)

/-- Bytes that stand as they are: their count, its complement, and they
themselves, from the next whole byte on. -/
def plain? (bits : Bits) (written : ByteArray) : Option (Bits × ByteArray) :=
  let start := (bits.position + 7) / 8
  match byteAt? bits.data start, byteAt? bits.data (start + 1) with
  | some low, some high =>
    let first := start + 4
    let last := first + (high * 256 + low)
    if bits.data.size < last then none
    else some ({ bits with position := 8 * last }, written ++ bits.data.extract first last)
  | _, _ => none

/-- The codes of blocks that bring none of their own. -/
def commonLiterals : Code :=
  .ofLengths (List.replicate 144 8 ++ List.replicate 112 9 ++ List.replicate 24 7 ++
    List.replicate 8 8)

def commonDistances : Code := .ofLengths (List.replicate 30 5)

/-- In which order the lengths of the first code stand. -/
def lengthOrder : List Nat := [16, 17, 18, 0, 8, 7, 9, 6, 10, 5, 11, 4, 12, 3, 13, 2, 14, 1, 15]

/-- Reads lengths of codewords, newest first, until there are enough of them. -/
def lengthsFrom (code : Code) (wanted : Nat) : Nat → Bits → List Nat → Option (List Nat × Bits)
  | 0, _, _ => none
  | fuel + 1, bits, found =>
    if wanted ≤ found.length then some (found, bits)
    else
      match code.symbol? bits with
      | none => none
      | some (symbol, bits) =>
        let repeated (value base width : Nat) : Option (List Nat × Bits) :=
          match bits.number? width with
          | none => none
          | some (more, bits) =>
            lengthsFrom code wanted fuel bits (List.replicate (base + more) value ++ found)
        if symbol = 16 then repeated (found.headD 0) 3 2
        else if symbol = 17 then repeated 0 3 3
        else if symbol = 18 then repeated 0 11 7
        else lengthsFrom code wanted fuel bits (symbol :: found)

/-- The two codes that a block brings with it. -/
def ownCodes? (bits : Bits) : Option (Code × Code × Bits) := do
  let (literalCount, bits) ← bits.number? 5
  let (distanceCount, bits) ← bits.number? 5
  let (lengthCount, bits) ← bits.number? 4
  let (lengths, bits) ← bits.numbers? 3 (lengthCount + 4)
  let placed := lengthOrder.zip lengths
  let code := Code.ofLengths <| (List.range lengthOrder.length).map fun symbol =>
    ((placed.find? fun pair => pair.1 = symbol).map Prod.snd).getD 0
  let wanted := literalCount + 257 + (distanceCount + 1)
  let (found, bits) ← lengthsFrom code wanted (wanted + 1) bits []
  let all := found.reverse
  return (.ofLengths (all.take (literalCount + 257)), .ofLengths (all.drop (literalCount + 257)), bits)

/-- Reads blocks up to the last one. -/
def blocks? (limit : Nat) : Nat → Bits → ByteArray → Option ByteArray
  | 0, _, _ => none
  | fuel + 1, bits, written =>
    let read : Option (Nat × Bits × ByteArray) := do
      let (last, bits) ← bits.next?
      let (kind, bits) ← bits.number? 2
      let (bits, written) ← match kind with
        | 0 => plain? bits written
        | 1 => symbols? commonLiterals commonDistances limit bits written
        | 2 => do
          let (literals, distances, bits) ← ownCodes? bits
          symbols? literals distances limit bits written
        | _ => none
      return (last, bits, written)
    match read with
    | none => none
    | some (last, bits, written) =>
      if last = 1 then some written else blocks? limit fuel bits written

/-- How many bytes stand in front of the first block. -/
def headerSize : Nat := 2

/-- The data whose packed form starts at an offset. -/
def read? (data : ByteArray) (offset : Nat) : Option ByteArray :=
  let limit := 8 * data.size + 1
  blocks? limit limit ⟨data, 8 * (offset + headerSize)⟩ .empty

end ContextPack.Storage.Inflate
