import Screenplay.Image.Frame

/-!
Brightness: one byte for each pixel, which is all that the matcher compares.
-/
namespace Screenplay

structure GrayBuffer where
  width : Nat
  height : Nat
  data : Array UInt8
  deriving DecidableEq, Repr

/-- The value at a position. -/
def GrayBuffer.get (g : GrayBuffer) (x y : Nat) : UInt8 := g.data.getD (y * g.width + x) 0

/-- The brightness of a colour, `0.299 R + 0.587 G + 0.114 B`, to the nearest byte. -/
def luminosity (r g b : UInt8) : UInt8 :=
  let l : Float := 0.299 * r.toFloat + 0.587 * g.toFloat + 0.114 * b.toFloat
  let rounded := l.round
  if rounded < 0 then 0 else if 255 < rounded then 255 else rounded.toUInt8

/-- The brightness of a frame; alpha does not count. -/
def Frame.toGray (f : Frame) : GrayBuffer :=
  { width := f.width.toNat
    height := f.height.toNat
    data := match f.format with
      | .gray => f.data
      | .rgb | .rgba =>
        (Array.range f.pixelCount).map fun i => luminosity (f.byte i 0) (f.byte i 1) (f.byte i 2) }

end Screenplay
