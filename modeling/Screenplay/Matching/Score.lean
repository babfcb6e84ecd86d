import Screenplay.Image.Gray

/-!
How well a template fits a place of a picture: the zero-mean normalised cross-correlation, cut off
below at 0, so that neither brightness nor contrast matters. Areas without texture have no
correlation; two of them are compared by their brightness, and one of them fits no texture.

The sums over pixels are words. What is made of them is written down for any arithmetic, and scores
are computed in floating point.
-/
namespace Screenplay

/-! ### Sums over pixels -/

/-- Sums over the pixels of an area `r` and of the template `t` that lies on it. -/
structure WindowSums where
  r : UInt64 := 0
  rr : UInt64 := 0
  rt : UInt64 := 0
  deriving DecidableEq, Repr

/-- Takes in one pair of pixels. -/
def WindowSums.add (s : WindowSums) (r t : UInt8) : WindowSums :=
  let r := r.toUInt64
  let t := t.toUInt64
  { r := s.r + r, rr := s.rr + r * r, rt := s.rt + r * t }

namespace GrayBuffer

/-- Takes in the pairs of one row, `count` of them from the right end. -/
def rowSums (source template : GrayBuffer) (x y row : Nat) : Nat → WindowSums → WindowSums
  | 0, sums => sums
  | count + 1, sums =>
    let column := template.width - (count + 1)
    rowSums source template x y row count
      (sums.add (source.get (x + column) (y + row)) (template.get column row))

/-- The sums over the area whose top left corner is `(x, y)`. -/
def windowSums (source template : GrayBuffer) (x y : Nat) : WindowSums :=
  (List.range template.height).foldl
    (fun sums row => rowSums source template x y row template.width sums) {}

/-- The sum of all bytes and the sum of their squares. -/
def sums (g : GrayBuffer) : UInt64 × UInt64 :=
  g.data.foldl
    (fun ((s, q) : UInt64 × UInt64) (v : UInt8) => (s + v.toUInt64, q + v.toUInt64 * v.toUInt64))
    (0, 0)

end GrayBuffer

/-! ### What is made of the sums -/

/-- An arithmetic in which scores can be computed, beyond the four operations and the order. -/
class Arithmetic (α : Type) where
  ofNat : Nat → α
  abs : α → α
  sqrt : α → α

instance : Arithmetic Float := ⟨Float.ofNat, Float.abs, Float.sqrt⟩

/-- The variance, in squared levels of brightness, from which on an area has texture. -/
def flatVariance : Nat := 1

/-- The greatest distance between two levels of brightness. -/
def brightnessRange : Nat := 255

/-- How bright an area is, and the sum of the squared deviations from that. -/
structure Statistics (α : Type) where
  mean : α
  deviation : α
  deriving DecidableEq, Repr

section
variable {α : Type} [Sub α] [Mul α] [Div α] [LT α] [DecidableLT α] [Arithmetic α]
open Arithmetic (ofNat)

namespace Statistics

/-- The statistics of `n` values by their sum and the sum of their squares. -/
def ofSums (n : Nat) (sum squares : UInt64) : Statistics α :=
  let total : α := ofNat sum.toNat
  let deviation := ofNat squares.toNat - total * total / ofNat n
  { mean := total / ofNat n
    deviation := if deviation < ofNat 0 then ofNat 0 else deviation }

def isFlat (n : Nat) (s : Statistics α) : Bool := s.deviation / ofNat n < ofNat flatVariance

/-- The correlation of a template with an area. -/
def correlation (template area : Statistics α) (sums : WindowSums) : α :=
  let covariance := ofNat sums.rt.toNat - template.mean * ofNat sums.r.toNat
  covariance / Arithmetic.sqrt (area.deviation * template.deviation)

/-- The score of a template over an area of as many pixels. -/
def score (n : Nat) (template area : Statistics α) (sums : WindowSums) : α :=
  match template.isFlat n, area.isFlat n with
  | true, true => ofNat 1 - Arithmetic.abs (template.mean - area.mean) / ofNat brightnessRange
  | true, false | false, true => ofNat 0
  | false, false =>
    let c := correlation template area sums
    if c < ofNat 0 then ofNat 0 else if ofNat 1 < c then ofNat 1 else c

end Statistics

end

/-- A template with its statistics. -/
structure PreparedTemplate where
  gray : GrayBuffer
  statistics : Statistics Float
  deriving DecidableEq, Repr

namespace PreparedTemplate

def width (t : PreparedTemplate) : Nat := t.gray.width
def height (t : PreparedTemplate) : Nat := t.gray.height

/-- The number of pixels. -/
def area (t : PreparedTemplate) : Nat := t.width * t.height

def ofGray (gray : GrayBuffer) : PreparedTemplate :=
  { gray, statistics := .ofSums (gray.width * gray.height) gray.sums.1 gray.sums.2 }

/-- The score of the sums over an area. -/
def scoreOf (t : PreparedTemplate) (sums : WindowSums) : Float :=
  t.statistics.score t.area (.ofSums t.area sums.r sums.rr) sums

/-- The template lies inside the source. -/
def fitsAt (t : PreparedTemplate) (source : GrayBuffer) (x y : Int) : Bool :=
  0 ≤ x && 0 ≤ y && x + t.width ≤ source.width && y + t.height ≤ source.height

/-- The score at an offset; where the template would leave the source it is 0. -/
def scoreAt (t : PreparedTemplate) (source : GrayBuffer) (x y : Int) : Float :=
  if t.fitsAt source x y then t.scoreOf (source.windowSums t.gray x.toNat y.toNat) else 0.0

end PreparedTemplate

end Screenplay
