import Screenplay.Compression.Deflate

/-!
Compressed data in its wrapping: two bytes that say how it was compressed, blocks, and a checksum
that starts with a new byte. The checksum has to be there, but it is not compared.
-/
namespace Screenplay.Compression

open BitReader

/-- The first two bytes name the method and a window of at most 32 KiB, promise no dictionary, and
are as a number a multiple of 31. -/
def isZlibHeader (method flags : Nat) : Bool :=
  method % 16 = 8 && method / 16 ≤ 7 && !flags.testBit 5 && (256 * method + flags) % 31 = 0

/-- Reads a stream to its end or until enough bytes are written. -/
def readStream (enough : Nat) : BitReader Unit := do
  need 16
  let method ← take 8
  let flags ← take 8
  if !isZlibHeader method flags then fail .badZlibHeader
  readBlocks enough ((← bits).length + 1)
  need ((← bitsToByte) + 32)

/-- The bytes that were compressed, or the first of them if there are enough. What follows is looked
at only as far as it goes without writing a byte. -/
def inflate (enough : Nat) (bytes : List UInt8) : Except Halt (Array UInt8) :=
  match (readStream enough).run { bits := bitsOf bytes } with
  | (.ok (), progress) => .ok progress.written
  | (.error .waiting, progress) =>
    if enough ≤ progress.written.size then .ok progress.written else .error .waiting
  | (.error halt, _) => .error halt

end Screenplay.Compression
