import Screenplay.Compression.Bits
import Screenplay.Image.Png.Animation
import Screenplay.Image.Png.Picture

/-!
What can be wrong with a PNG file, and how it is reported.
-/
namespace Screenplay.Png

/-- Why a file gives no picture. -/
inductive Flaw where
  | truncated
  /-- The picture would take too much memory. -/
  | tooLarge
  | badSignature
  /-- A chunk of another type stands where the header has to be. -/
  | beforeHeader (type : ChunkType)
  /-- The data of a chunk is shorter or longer than its type allows. -/
  | wrongLength (type : ChunkType)
  /-- A chunk is damaged. -/
  | badChecksum (stored computed : Nat) (type : ChunkType)
  | header (flaw : HeaderFlaw)
  /-- There is a second header or palette. -/
  | duplicate (type : ChunkType)
  /-- Nothing is known about a chunk that a reader has to know. -/
  | unknownCritical (type : ChunkType)
  | frame (flaw : FrameFlaw)
  /-- Pixels of a later frame come before the first one. -/
  | outOfPlace (type : ChunkType)
  /-- The file is complete and has no pixels. -/
  | noPixels
  | stream (flaw : Compression.StreamFlaw)
  | picture (flaw : PictureFlaw)
  deriving DecidableEq, Repr

def PictureFlaw.message : PictureFlaw → String
  | filter n => s!"Unknown filter method {n}."
  | noPalette => "Missing palette of indexed image."
  | tooShort => "IDAT or fDAT chunk does not have enough data for image."

namespace Flaw

private def hexadecimal (n : Nat) : String := "0x" ++ String.ofList (Nat.toDigits 16 n)

/-- What went wrong, if it is the file itself that is wrong, or else the words for what came to an
end. -/
def message : Flaw → Except String String
  | truncated => .error "unexpected end of file"
  | tooLarge => .error "Memory limit exceeded"
  | badSignature => .ok "Invalid PNG signature."
  | beforeHeader type => .ok (type.describe ++ " chunk appeared before IHDR chunk")
  | wrongLength type => .ok ("Chunk length wrong: " ++ type.describe)
  | badChecksum stored computed type =>
    .ok ("CRC error: expected " ++ hexadecimal stored ++ " have " ++ hexadecimal computed ++
      " while decoding " ++ type.describe ++ " chunk.")
  | header flaw => .ok flaw.message
  | duplicate type => .ok ("Chunk " ++ type.describe ++ " must appear at most once.")
  | unknownCritical type => .ok ("Unrecognized critical chunk: " ++ type.describe)
  | frame flaw => .ok flaw.message
  | outOfPlace type => .ok ("Unexpected restart of " ++ type.describe ++ " chunk sequence")
  | noPixels => .ok "IDAT or fdAT chunk is missing."
  | stream flaw => .ok ("Corrupt deflate stream. " ++ flaw.label)
  | picture flaw => .ok flaw.message

/-- What went wrong, from the outermost cause to the innermost. -/
def causes (flaw : Flaw) : List String :=
  match flaw.message with
  | .error limit => List.replicate 2 limit
  | .ok cause => List.replicate 2 ("Format error decoding Png: " ++ cause) ++ [cause]

end Flaw

end Screenplay.Png
