import Screenplay.Image.Png.Chunk

/-!
The header of a PNG file: thirteen bytes that hold the size of the picture, the depth and the kind
of its colours, and how its pixels are packed. What the header promises can be too much to hold.
-/
namespace Screenplay.Png

/-- How many bits each sample takes. -/
inductive BitDepth where
  | one
  | two
  | four
  | eight
  | sixteen
  deriving DecidableEq, Repr

namespace BitDepth

def toNat : BitDepth → Nat
  | one => 1
  | two => 2
  | four => 4
  | eight => 8
  | sixteen => 16

/-- The greatest sample. -/
def greatest : BitDepth → Nat
  | one => 1
  | two => 3
  | four => 15
  | eight => 255
  | sixteen => 65535

def ofNat? : Nat → Option BitDepth
  | 1 => some one
  | 2 => some two
  | 4 => some four
  | 8 => some eight
  | 16 => some sixteen
  | _ => none

def label : BitDepth → String
  | one => "One"
  | two => "Two"
  | four => "Four"
  | eight => "Eight"
  | sixteen => "Sixteen"

end BitDepth

/-- What the samples of a pixel are. -/
inductive ColorType where
  | grayscale
  | rgb
  | indexed
  | grayscaleAlpha
  | rgba
  deriving DecidableEq, Repr

namespace ColorType

def ofNat? : Nat → Option ColorType
  | 0 => some grayscale
  | 2 => some rgb
  | 3 => some indexed
  | 4 => some grayscaleAlpha
  | 6 => some rgba
  | _ => none

def label : ColorType → String
  | grayscale => "Grayscale"
  | rgb => "Rgb"
  | indexed => "Indexed"
  | grayscaleAlpha => "GrayscaleAlpha"
  | rgba => "Rgba"

/-- The samples of a pixel. -/
def samples : ColorType → Nat
  | grayscale => 1
  | rgb => 3
  | indexed => 1
  | grayscaleAlpha => 2
  | rgba => 4

/-- The samples of a pixel once its colour is looked up; a picture with transparent colours gets one
more for how opaque it is. -/
def samplesShown (colors : ColorType) (transparent : Bool) : Nat :=
  match colors with
  | grayscale => if transparent then 2 else 1
  | rgb | indexed => if transparent then 4 else 3
  | grayscaleAlpha => 2
  | rgba => 4

/-- A level of gray may have any depth, the number of a colour at most a byte, and each of several
samples at least a byte. -/
def allows : ColorType → BitDepth → Bool
  | grayscale, _ => true
  | indexed, depth => depth ≠ .sixteen
  | rgb, depth | grayscaleAlpha, depth | rgba, depth => depth = .eight || depth = .sixteen

end ColorType

/-- What is wrong with a header. -/
inductive HeaderFlaw where
  /-- The width or the height is zero. -/
  | noPixels
  | bitDepth (n : Nat)
  | colorType (n : Nat)
  /-- The colours cannot have this depth. -/
  | combination (colors : ColorType) (depth : BitDepth)
  | compression (n : Nat)
  | filter (n : Nat)
  | interlace (n : Nat)
  deriving DecidableEq, Repr

namespace HeaderFlaw

def message : HeaderFlaw → String
  | noPixels => "Invalid image dimensions"
  | bitDepth n => s!"Invalid bit depth {n}."
  | colorType n => s!"Invalid color type {n}."
  | combination colors depth =>
    "Invalid color/depth combination in header: " ++ colors.label ++ "/" ++ depth.label
  | compression n => s!"Unknown compression method {n}."
  | filter n => s!"Unknown filter method {n}."
  | interlace n => s!"Unknown interlace method {n}."

end HeaderFlaw

structure Header where
  width : Nat
  height : Nat
  depth : BitDepth
  colors : ColorType
  /-- The pixels come in seven passes. -/
  interlaced : Bool
  deriving DecidableEq, Repr

namespace Header

/-- Reads a header field by field, in the order in which the fields stand. -/
def ofBytes (data : List UInt8) : Except HeaderFlaw Header := do
  let field (i : Nat) : Nat := (data.getD i 0).toNat
  let width := number (data.take 4)
  let height := number ((data.drop 4).take 4)
  if width = 0 ∨ height = 0 then throw .noPixels
  let some depth := BitDepth.ofNat? (field 8) | throw (.bitDepth (field 8))
  let some colors := ColorType.ofNat? (field 9) | throw (.colorType (field 9))
  if !colors.allows depth then throw (.combination colors depth)
  if field 10 ≠ 0 then throw (.compression (field 10))
  if field 11 ≠ 0 then throw (.filter (field 11))
  if field 12 ≥ 2 then throw (.interlace (field 12))
  return { width, height, depth, colors, interlaced := field 12 = 1 }

/-- The bits of a pixel. -/
def pixelBits (h : Header) : Nat := h.colors.samples * h.depth.toNat

/-- The bytes of a row of pixels. A row starts with a new byte. -/
def rowBytes (h : Header) (width : Nat) : Nat := (width * h.pixelBits + 7) / 8

/-- The bytes of the whole picture as it is shown, with whole bytes for each sample. -/
def shownBytes (h : Header) (transparent : Bool) : Nat :=
  h.width * h.height * h.colors.samplesShown transparent * if h.depth = .sixteen then 2 else 1

/-- The most bytes that can have addresses. -/
def addressable : Nat := 0x7FFFFFFFFFFFFFFF

/-- The most bytes that a picture may take, 512 MiB. -/
def affordable : Nat := 0x20000000

end Header

end Screenplay.Png
