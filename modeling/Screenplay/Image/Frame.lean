import Screenplay.Overflow

/-!
Frames: rectangles of pixels in one of three formats, stored row by row without gaps.
-/
namespace Screenplay

inductive PixelFormat where
  | rgba
  | rgb
  | gray
  deriving DecidableEq, Repr

/-- Bytes of one pixel. -/
def PixelFormat.channels : PixelFormat → Nat
  | rgba => 4
  | rgb => 3
  | gray => 1

/-- The name of a format in a listing. -/
def PixelFormat.name : PixelFormat → String
  | rgba => "rgba8"
  | rgb => "rgb8"
  | gray => "gray8"

/-- The name of a format in a message. -/
def PixelFormat.label : PixelFormat → String
  | rgba => "Rgba8"
  | rgb => "Rgb8"
  | gray => "Gray8"

structure Frame where
  width : UInt32
  height : UInt32
  format : PixelFormat
  data : Array UInt8
  deriving DecidableEq, Repr

/-- Why bytes are no frame. -/
inductive FrameError where
  | emptyDimensions (width height : UInt32)
  | bufferSize (width height : UInt32) (format : PixelFormat) (expected : UInt64) (actual : Nat)
  /-- The program crashes, since no word holds the length that the dimensions call for. -/
  | overflow
  deriving DecidableEq, Repr

namespace FrameError

private def dimensions (width height : UInt32) : String :=
  Nat.repr width.toNat ++ "x" ++ Nat.repr height.toNat

def message : FrameError → String
  | emptyDimensions width height =>
    "frame dimensions must be non-zero (got " ++ dimensions width height ++ ")"
  | bufferSize width height format expected actual =>
    "frame buffer has " ++ Nat.repr actual ++ " bytes, expected " ++ Nat.repr expected.toNat ++
      " for " ++ dimensions width height ++ " " ++ format.label
  | overflow => "attempt to multiply with overflow"

end FrameError

namespace Frame

/-- The length that dimensions call for, in 64-bit arithmetic. -/
def expectedSize (width height : UInt32) (format : PixelFormat) : UInt64 :=
  width.toUInt64 * height.toUInt64 * format.channels.toUInt64

/-- A word holds the length that dimensions call for. -/
def sizeFits (width height : UInt32) (format : PixelFormat) : Bool :=
  width.toNat * height.toNat * format.channels < UInt64.size

/-- Wraps packed bytes. -/
def ofBytes (width height : UInt32) (format : PixelFormat) (data : Array UInt8)
    (overflow : Overflow := .wraps) : Except FrameError Frame :=
  if width = 0 ∨ height = 0 then .error (.emptyDimensions width height)
  else if overflow = .crashes ∧ !sizeFits width height format then .error .overflow
  else if data.size ≠ (expectedSize width height format).toNat then
    .error (.bufferSize width height format (expectedSize width height format) data.size)
  else .ok { width, height, format, data }

/-- A gray frame of the values of `f x y`. -/
def ofPixels (width height : UInt32) (f : Nat → Nat → UInt8) (overflow : Overflow := .wraps) :
    Except FrameError Frame :=
  if width = 0 then .error (.emptyDimensions width height)
  else
    let data := (Array.range height.toNat).flatMap fun y =>
      (Array.range width.toNat).map fun x => f x y
    ofBytes width height .gray data overflow

/-- Wraps the bytes of a decoded picture. -/
def ofRgba (width height : UInt32) (data : Array UInt8) (overflow : Overflow := .wraps) :
    Except FrameError Frame :=
  ofBytes width height .rgba data overflow

/-- Bytes of one row. -/
def stride (f : Frame) : Nat := f.width.toNat * f.format.channels

/-- The bytes of `count` pixels of a row. -/
def rowBytes (f : Frame) (x y count : Nat) : Array UInt8 :=
  let start := y * f.stride + x * f.format.channels
  f.data.extract start (start + count * f.format.channels)

/-- Where a stretch of pixels ends, if a word can tell. -/
def stretchEnd (start count : UInt32) : Option UInt32 :=
  if start.toNat + count.toNat < UInt32.size then some (start + count) else none

/-- Copies a rectangle out; none if it is empty or leaves the frame. -/
def crop (f : Frame) (x y width height : UInt32) : Option Frame :=
  if width = 0 ∨ height = 0 then none
  else do
    let right ← stretchEnd x width
    let bottom ← stretchEnd y height
    guard (right ≤ f.width ∧ bottom ≤ f.height)
    return {
      width, height, format := f.format
      data := (Array.range height.toNat).flatMap fun row =>
        f.rowBytes x.toNat (y.toNat + row) width.toNat }

/-- Changes every byte. -/
def mapBytes (f : Frame) (g : UInt8 → UInt8) : Frame := { f with data := f.data.map g }

/-- The number of whole pixels in the data. -/
def pixelCount (f : Frame) : Nat := f.data.size / f.format.channels

/-- A byte of the data; pixels are numbered row by row. -/
def byte (f : Frame) (pixel channel : Nat) : UInt8 := f.data.getD (pixel * f.format.channels + channel) 0

/-- The same picture in red, green, blue and alpha; gray goes to all three colours and a picture
without alpha is opaque. -/
def toRgba (f : Frame) : Frame :=
  { f with
    format := .rgba
    data := match f.format with
      | .rgba => f.data
      | .rgb => (Array.range f.pixelCount).flatMap fun i => #[f.byte i 0, f.byte i 1, f.byte i 2, 255]
      | .gray => (Array.range f.pixelCount).flatMap fun i => #[f.byte i 0, f.byte i 0, f.byte i 0, 255] }

end Frame

end Screenplay
