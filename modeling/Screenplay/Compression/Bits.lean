/-!
Reading bits and writing bytes. Bytes give their bits from the least significant one on, and a number
is written the same way round. A reader stops when the bits run out, when enough bytes are written,
or when the bits are corrupt; what was written until then stays.
-/
namespace Screenplay.Compression

/-- What is wrong with compressed data. -/
inductive StreamFlaw where
  | badZlibHeader
  /-- The data ends before the stream does. -/
  | insufficientInput
  | invalidBlockType
  /-- The length of stored bytes and its complement do not fit. -/
  | invalidUncompressedBlockLength
  | invalidHlit
  | invalidHdist
  | invalidCodeLengthRepeat
  | badCodeLengthHuffmanTree
  | badLiteralLengthHuffmanTree
  | badDistanceHuffmanTree
  | invalidLiteralLengthCode
  | invalidDistanceCode
  | distanceTooFarBack
  deriving DecidableEq, Repr

def StreamFlaw.label : StreamFlaw → String
  | badZlibHeader => "BadZlibHeader"
  | insufficientInput => "InsufficientInput"
  | invalidBlockType => "InvalidBlockType"
  | invalidUncompressedBlockLength => "InvalidUncompressedBlockLength"
  | invalidHlit => "InvalidHlit"
  | invalidHdist => "InvalidHdist"
  | invalidCodeLengthRepeat => "InvalidCodeLengthRepeat"
  | badCodeLengthHuffmanTree => "BadCodeLengthHuffmanTree"
  | badLiteralLengthHuffmanTree => "BadLiteralLengthHuffmanTree"
  | badDistanceHuffmanTree => "BadDistanceHuffmanTree"
  | invalidLiteralLengthCode => "InvalidLiteralLengthCode"
  | invalidDistanceCode => "InvalidDistanceCode"
  | distanceTooFarBack => "DistanceTooFarBack"

/-- Why reading stops. -/
inductive Halt where
  /-- It takes more bits to go on, or nobody wants more bytes. -/
  | waiting
  | corrupt (flaw : StreamFlaw)
  deriving DecidableEq, Repr

/-- Where a reader stands. -/
structure Progress where
  bits : List Bool
  written : Array UInt8 := #[]
  deriving DecidableEq, Repr

/-- Reads from bits and writes bytes. -/
abbrev BitReader := ExceptT Halt (StateM Progress)

/-- The bits of a byte. -/
def bitsOfByte (b : UInt8) : List Bool := (List.range 8).map b.toNat.testBit

/-- The bits of bytes. -/
def bitsOf (bytes : List UInt8) : List Bool := bytes.flatMap bitsOfByte

/-- The number that bits denote. -/
def numberOf (bits : List Bool) : Nat := bits.foldr (fun b n => b.toNat + 2 * n) 0

namespace BitReader

def wait {α : Type} : BitReader α := throw .waiting

def fail {α : Type} (flaw : StreamFlaw) : BitReader α := throw (.corrupt flaw)

def bits : BitReader (List Bool) := return (← get).bits

def leave (rest : List Bool) : BitReader Unit := modify ({ · with bits := rest })

/-- Whether there are as many bits as that. -/
def has (count : Nat) : BitReader Bool := return ((← bits).take count).length = count

/-- Goes on only if there are as many bits as that. -/
def need (count : Nat) : BitReader Unit := do
  if !(← has count) then wait

/-- The number in the next bits. -/
def take (count : Nat) : BitReader Nat := do
  need count
  let all ← bits
  leave (all.drop count)
  return numberOf (all.take count)

/-- How many bits are left of a byte that was begun. -/
def bitsToByte : BitReader Nat := return (← bits).length % 8

def write (bytes : Array UInt8 → Array UInt8) : BitReader Unit :=
  modify fun p => { p with written := bytes p.written }

end BitReader

end Screenplay.Compression
