import Screenplay.Text.Quoted

/-!
Chunks, of which a PNG file consists after its signature: the length of the data, a type of four
letters, the data, and a checksum of type and data. A file may end inside one.
-/
namespace Screenplay.Png

/-- The number that bytes denote, the most significant one first. -/
def number (bytes : List UInt8) : Nat := bytes.foldl (fun n b => n * 256 + b.toNat) 0

/-- Takes one bit out of a checksum. -/
def checksumStep (sum : UInt32) : UInt32 :=
  if sum % 2 = 1 then (sum >>> 1) ^^^ 0xEDB88320 else sum >>> 1

/-- The cyclic redundancy check of bytes. -/
def checksum (bytes : List UInt8) : UInt32 :=
  bytes.foldl (fun sum b => (List.range 8).foldl (fun sum _ => checksumStep sum) (sum ^^^ b.toUInt32))
    0xFFFFFFFF ^^^ 0xFFFFFFFF

/-- The type of a chunk, in four letters. -/
abbrev ChunkType := List UInt8

namespace ChunkType

/-- The header, `IHDR`. -/
def header : ChunkType := [0x49, 0x48, 0x44, 0x52]

/-- The colours of a palette, `PLTE`. -/
def palette : ChunkType := [0x50, 0x4C, 0x54, 0x45]

/-- The pixels, `IDAT`. -/
def pixels : ChunkType := [0x49, 0x44, 0x41, 0x54]

/-- The end of the file, `IEND`. -/
def ending : ChunkType := [0x49, 0x45, 0x4E, 0x44]

/-- The colours that are transparent, `tRNS`. -/
def transparency : ChunkType := [0x74, 0x52, 0x4E, 0x53]

/-- How a frame of an animation is shown, `fcTL`. -/
def frameControl : ChunkType := [0x66, 0x63, 0x54, 0x4C]

/-- The pixels of a later frame of an animation, `fdAT`. -/
def framePixels : ChunkType := [0x66, 0x64, 0x41, 0x54]

/-- The fifth bit of a letter tells lowercase from uppercase, and each case has a meaning. -/
def isLowercase (type : ChunkType) (letter : Nat) : Bool := type.getD letter 0 &&& 32 ≠ 0

/-- A reader that does not know the type cannot go on. -/
def isCritical (type : ChunkType) : Bool := !type.isLowercase 0

/-- The lengths, from the least to the greatest, that the data of a known type may have. -/
def lengths? (type : ChunkType) : Option (Nat × Nat) :=
  if type = header then some (13, 13)
  else if type = palette then some (3, 768)
  else if type = pixels then some (0, 0x7FFFFFFF)
  else if type = ending then some (0, 0)
  else if type = transparency then some (1, 256)
  else if type = frameControl then some (26, 26)
  else none

private def truth (b : Bool) : String := if b then "true" else "false"

/-- The type with what its letters mean. -/
def describe (type : ChunkType) : String :=
  "ChunkType \x7b type: " ++
    String.join (type.map fun b => Text.visible ['"', '\''] (Char.ofNat b.toNat)) ++
    ", critical: " ++ truth type.isCritical ++ ", private: " ++ truth (type.isLowercase 1) ++
    ", reserved: " ++ truth (type.isLowercase 2) ++ ", safecopy: " ++ truth (type.isLowercase 3) ++
    " \x7d"

end ChunkType

/-- A chunk as far as the file goes. -/
structure Chunk where
  /-- The length of the data that the file promises. -/
  length : Nat
  type : ChunkType
  /-- The data that is there. -/
  data : List UInt8
  /-- The checksum, unless the file ends before. -/
  stored? : Option Nat
  deriving DecidableEq, Repr

namespace Chunk

/-- Reads the chunk at the start of bytes, if its length and type are there. -/
def ofBytes? (bytes : List UInt8) : Option Chunk :=
  if bytes.length < 8 then none
  else
    let length := number (bytes.take 4)
    let stored := (bytes.drop (8 + length)).take 4
    some ⟨length, (bytes.drop 4).take 4, (bytes.drop 8).take length,
      if stored.length < 4 then none else some (number stored)⟩

theorem length_of_ofBytes? {bytes : List UInt8} {c : Chunk} (h : ofBytes? bytes = some c) :
    8 ≤ bytes.length := by
  unfold ofBytes? at h
  split at h
  · cases h
  · omega

/-- The bytes that a whole chunk takes. -/
def size (c : Chunk) : Nat := c.length + 12

/-- The checksum that the chunk should have. -/
def computed (c : Chunk) : Nat := (checksum (c.type ++ c.data)).toNat

/-- The length is not one that chunks of the type have. -/
def hasWrongLength (c : Chunk) : Bool :=
  c.type.lengths?.any fun (least, greatest) => c.length < least || greatest < c.length

end Chunk

end Screenplay.Png
