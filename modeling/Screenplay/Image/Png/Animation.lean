import Screenplay.Image.Png.Header

/-!
Frames of an animation. A file may say how its frames are shown; the first frame is the picture
itself and covers all of it.
-/
namespace Screenplay.Png

/-- What is wrong with what is said about a frame. -/
inductive FrameFlaw where
  /-- The frame is not the next one. -/
  | order (expected actual : Nat)
  | disposal (n : Nat)
  | blending (n : Nat)
  | noPixels
  | outOfBounds
  deriving DecidableEq, Repr

def FrameFlaw.message : FrameFlaw → String
  | order expected actual => s!"Sequence is not in order, expected #{expected} got #{actual}."
  | disposal n => s!"Invalid dispose op {n}."
  | blending n => s!"Invalid blend op {n}."
  | noPixels => "Invalid image dimensions"
  | outOfBounds => "Sub frame is out-of-bounds."

/-- Checks what is said about a frame that comes before the pixels, field by field in this order:
number, disposal, blending, size. -/
def checkFrame (h : Header) (expected : Nat) (data : List UInt8) : Except FrameFlaw Unit := do
  let field (i : Nat) : Nat := number ((data.drop (4 * i)).take 4)
  let disposal := (data.getD 24 0).toNat
  let blending := (data.getD 25 0).toNat
  if field 0 ≠ expected then throw (.order expected (field 0))
  if disposal > 2 then throw (.disposal disposal)
  if blending > 1 then throw (.blending blending)
  if field 1 = 0 ∨ field 2 = 0 then throw .noPixels
  if field 1 ≠ h.width ∨ field 2 ≠ h.height ∨ field 3 ≠ 0 ∨ field 4 ≠ 0 then throw .outOfBounds

end Screenplay.Png
