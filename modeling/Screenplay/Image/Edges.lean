import Screenplay.Image.Gray

/-!
Edge maps: the strength of the brightness gradient at every pixel, by the two Sobel operators. A
pixel outside the buffer counts as its nearest one inside.
-/
namespace Screenplay

/-- The greatest byte whose square is at most `n`. -/
def byteRoot (n : Nat) : UInt8 :=
  let root := [128, 64, 32, 16, 8, 4, 2, 1].foldl
    (fun (root : Nat) (bit : Nat) => if (root + bit) * (root + bit) ≤ n then root + bit else root) 0
  .ofNat root

namespace GrayBuffer

/-- The brightness at a position that may lie just outside. -/
def sample (g : GrayBuffer) (x y : Int) : Int :=
  let x := min (max x 0) ((g.width : Int) - 1)
  let y := min (max y 0) ((g.height : Int) - 1)
  (g.get x.toNat y.toNat).toNat

/-- The change of brightness to the right. -/
def gradientX (g : GrayBuffer) (x y : Int) : Int :=
  (g.sample (x + 1) (y - 1) + 2 * g.sample (x + 1) y + g.sample (x + 1) (y + 1))
    - (g.sample (x - 1) (y - 1) + 2 * g.sample (x - 1) y + g.sample (x - 1) (y + 1))

/-- The change of brightness downwards. -/
def gradientY (g : GrayBuffer) (x y : Int) : Int :=
  (g.sample (x - 1) (y + 1) + 2 * g.sample x (y + 1) + g.sample (x + 1) (y + 1))
    - (g.sample (x - 1) (y - 1) + 2 * g.sample x (y - 1) + g.sample (x + 1) (y - 1))

/-- The length of the gradient, rounded down and cut off at the greatest byte. -/
def edge (g : GrayBuffer) (x y : Nat) : UInt8 :=
  let gx := g.gradientX x y
  let gy := g.gradientY x y
  byteRoot (gx * gx + gy * gy).toNat

/-- The edge map. -/
def sobel (g : GrayBuffer) : GrayBuffer :=
  { g with
    data := (Array.range g.height).flatMap fun y => (Array.range g.width).map fun x => g.edge x y }

end GrayBuffer

end Screenplay
