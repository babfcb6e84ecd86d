import Screenplay.Compression.PrefixCode

/-!
Blocks of compressed bytes. A block holds bytes as they are, or words of a prefix code for bytes and
for repetitions of what came before; the code is a fixed one or stands at the start of the block.
-/
namespace Screenplay.Compression

open BitReader

/-- A number in a range of a size that is a power of two: where the range begins, and how many bits
tell the place in it. -/
structure Range where
  start : Nat
  bits : Nat
  deriving DecidableEq, Repr

def Range.read (r : Range) : BitReader Nat := return r.start + (← take r.bits)

/-- The lengths of repetitions. -/
def lengthRanges : Array Range :=
  #[⟨3, 0⟩, ⟨4, 0⟩, ⟨5, 0⟩, ⟨6, 0⟩, ⟨7, 0⟩, ⟨8, 0⟩, ⟨9, 0⟩, ⟨10, 0⟩, ⟨11, 1⟩, ⟨13, 1⟩, ⟨15, 1⟩,
    ⟨17, 1⟩, ⟨19, 2⟩, ⟨23, 2⟩, ⟨27, 2⟩, ⟨31, 2⟩, ⟨35, 3⟩, ⟨43, 3⟩, ⟨51, 3⟩, ⟨59, 3⟩, ⟨67, 4⟩,
    ⟨83, 4⟩, ⟨99, 4⟩, ⟨115, 4⟩, ⟨131, 5⟩, ⟨163, 5⟩, ⟨195, 5⟩, ⟨227, 5⟩, ⟨258, 0⟩]

/-- How far back repetitions reach. -/
def distanceRanges : Array Range :=
  #[⟨1, 0⟩, ⟨2, 0⟩, ⟨3, 0⟩, ⟨4, 0⟩, ⟨5, 1⟩, ⟨7, 1⟩, ⟨9, 2⟩, ⟨13, 2⟩, ⟨17, 3⟩, ⟨25, 3⟩, ⟨33, 4⟩,
    ⟨49, 4⟩, ⟨65, 5⟩, ⟨97, 5⟩, ⟨129, 6⟩, ⟨193, 6⟩, ⟨257, 7⟩, ⟨385, 7⟩, ⟨513, 8⟩, ⟨769, 8⟩,
    ⟨1025, 9⟩, ⟨1537, 9⟩, ⟨2049, 10⟩, ⟨3073, 10⟩, ⟨4097, 11⟩, ⟨6145, 11⟩, ⟨8193, 12⟩,
    ⟨12289, 12⟩, ⟨16385, 13⟩, ⟨24577, 13⟩]

/-- The order in which a block states the lengths of the words for lengths. -/
def statedOrder : List Nat := [16, 17, 18, 0, 8, 7, 9, 6, 10, 5, 11, 4, 12, 3, 13, 2, 14, 1, 15]

/-- The most bits of a word. -/
def longestWord : Nat := PrefixCode.longest

/-- The codes of a block. -/
structure BlockCodes where
  /-- Bytes, the end of the block and the lengths of repetitions. -/
  literals : PrefixCode
  distances : PrefixCode
  deriving DecidableEq, Repr

/-- The symbol for the end of a block; smaller ones are bytes and greater ones lengths. -/
def endOfBlock : Nat := 256

/-- The codes of blocks that state none. -/
def BlockCodes.fixed : BlockCodes where
  literals := .ofLengths (List.replicate 144 8 ++ List.replicate 112 9 ++ List.replicate 24 7 ++
    List.replicate 8 8)
  distances := .ofLengths (List.replicate 32 5)

/-- Reads a symbol of the code of literals. -/
def BlockCodes.readSymbol (codes : BlockCodes) : BitReader Nat := do
  match codes.literals.next (← bits) with
  | .symbol n rest =>
    leave rest
    return n
  | .unfinished => wait
  | .unassigned => fail .invalidLiteralLengthCode

/-- Reads how far back a repetition reaches. Ten bits settle that there is no such distance. -/
def BlockCodes.readDistance (codes : BlockCodes) : BitReader Nat := do
  let reject : BitReader Nat := do
    need 10
    fail .invalidDistanceCode
  match codes.distances.next (← bits) with
  | .symbol n rest =>
    match distanceRanges[n]? with
    | some range =>
      leave rest
      range.read
    | none => reject
  | .unfinished => wait
  | .unassigned => reject

/-- Appends a part of what is there already, byte for byte, so that it may repeat itself. -/
def repeatFrom (distance : Nat) : Nat → Array UInt8 → Array UInt8
  | 0, out => out
  | length + 1, out => repeatFrom distance length (out.push (out.getD (out.size - distance) 0))

/-- Ends a block if that is what comes next. Its end is found even if enough bytes are written, but
not if there are more, nor with the last few bits. -/
def BlockCodes.endBlock (codes : BlockCodes) (enough : Nat) : BitReader Unit := do
  if enough < (← get).written.size then wait
  need longestWord
  match codes.literals.next (← bits) with
  | .symbol n rest => if n = endOfBlock then leave rest else wait
  | .unfinished | .unassigned => wait

/-- Reads words up to the end of the block or until enough bytes are written. Each takes at least a
bit, so that the fuel does not run out before the bits do. -/
def readWords (codes : BlockCodes) (enough : Nat) : (fuel : Nat) → BitReader Unit
  | 0 => wait
  | fuel + 1 => do
    if enough ≤ (← get).written.size then codes.endBlock enough
    else
      let symbol ← codes.readSymbol
      if symbol < endOfBlock then
        write (·.push (UInt8.ofNat symbol))
        readWords codes enough fuel
      else if endOfBlock < symbol then
        match lengthRanges[symbol - endOfBlock - 1]? with
        | none => fail .invalidLiteralLengthCode
        | some range =>
          let length ← range.read
          let distance ← codes.readDistance
          if (← get).written.size < distance then fail .distanceTooFarBack
          write (repeatFrom distance length)
          readWords codes enough fuel

/-- Copies bytes as they are, until enough are written. -/
def readStored (enough : Nat) : Nat → BitReader Unit
  | 0 => return
  | count + 1 => do
    if enough ≤ (← get).written.size then wait
    let byte ← take 8
    write (·.push (UInt8.ofNat byte))
    readStored enough count

/-- Reads the lengths of words up to a number of them. A length is stated, or it is a repetition of
the one before or of 0. -/
def readLengths (code : PrefixCode) (total : Nat) :
    (fuel : Nat) → Array Nat → BitReader (Array Nat)
  | 0, _ => wait
  | fuel + 1, lengths => do
    if total ≤ lengths.size then return lengths
    need 7
    match code.next (← bits) with
    | .symbol n rest =>
      leave rest
      let repeated : Nat → Range → BitReader (Array Nat) := fun length range => do
        let count ← range.read
        if total < lengths.size + count then fail .invalidCodeLengthRepeat
        readLengths code total fuel (lengths ++ Array.replicate count length)
      if n < 16 then readLengths code total fuel (lengths.push n)
      else if n = 16 then
        need 2
        match lengths.back? with
        | none => fail .invalidCodeLengthRepeat
        | some length => repeated length ⟨3, 2⟩
      else if n = 17 then repeated 0 ⟨3, 3⟩
      else repeated 0 ⟨11, 7⟩
    | .unfinished => wait
    | .unassigned => fail .badCodeLengthHuffmanTree

/-- The code of literals for stated lengths. It has a word for the end of the block. -/
def literalCode (lengths : List Nat) : BitReader PrefixCode := do
  let code := PrefixCode.ofLengths lengths
  if lengths.getD endOfBlock 0 = 0 then fail .badLiteralLengthHuffmanTree
  if !code.isComplete then fail .badCodeLengthHuffmanTree
  return code

/-- The code of distances for stated lengths. A block that repeats little needs no complete one. -/
def distanceCode (lengths : List Nat) : BitReader PrefixCode := do
  let code := PrefixCode.ofLengths lengths
  if !code.isTrivial && !code.isComplete then fail .badDistanceHuffmanTree
  return code

/-- Reads the codes that stand at the start of a block. -/
def readCodes : BitReader BlockCodes := do
  need 14
  let literals := 257 + (← take 5)
  let distances := 1 + (← take 5)
  let stated := 4 + (← take 4)
  if 286 < literals then fail .invalidHlit
  if 30 < distances then fail .invalidHdist
  need (3 * stated)
  let values ← (List.range stated).mapM fun _ => take 3
  let code := PrefixCode.ofLengths <|
    (List.range 19).map fun n => ((statedOrder.zip values).lookup n).getD 0
  if !code.isComplete then fail .badCodeLengthHuffmanTree
  let lengths ← readLengths code (literals + distances) (literals + distances + 1) #[]
  return ⟨← literalCode (lengths.toList.take literals), ← distanceCode (lengths.toList.drop literals)⟩

/-- Reads a block, and tells whether it is the last one. There are at least ten bits left when a
block begins, since a checksum follows the last one. -/
def readBlock (enough : Nat) : BitReader Bool := do
  need 10
  let isLast := (← take 1) = 1
  let fuel := (← bits).length + 1
  match ← take 2 with
  | 0 =>
    let gap ← bitsToByte
    need (gap + 32)
    let _ ← take gap
    let length ← take 16
    if (← take 16) ≠ 65535 - length then fail .invalidUncompressedBlockLength
    readStored enough length
  | 1 => readWords .fixed enough fuel
  | 2 => readWords (← readCodes) enough fuel
  | _ => fail .invalidBlockType
  return isLast

/-- Reads blocks to the last one. Each takes some bits, so that the fuel does not run out before the
bits do. -/
def readBlocks (enough : Nat) : (fuel : Nat) → BitReader Unit
  | 0 => wait
  | fuel + 1 => do
    if !(← readBlock enough) then readBlocks enough fuel

end Screenplay.Compression
