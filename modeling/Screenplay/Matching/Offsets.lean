/-!
The orders in which the search visits the places of a template: row by row on a grid, and outward
from a centre.
-/
namespace Screenplay

/-- A place of a template: the position of its top left corner in the source. -/
structure Offset where
  x : Int
  y : Int
  deriving DecidableEq, Repr

/-- The whole numbers from `lo` to `hi`, both included, in steps. -/
def stepsFrom (lo hi : Int) (step : Nat) : List Int :=
  if hi < lo then []
  else (List.range ((hi - lo).toNat / max step 1 + 1)).map fun (k : Nat) => lo + (k * max step 1 : Nat)

/-- The positions of `[lo, hi]` by distance from `center`, in steps: `c, c + s, c - s, c + 2 s, …`. -/
def outward (center lo hi : Int) (step : Nat) : List Int :=
  let step := max step 1
  let reach := max (max (center - lo) (hi - center)) 0
  (List.range (reach.toNat / step + 1)).flatMap fun (k : Nat) =>
    let d : Int := (k * step : Nat)
    let candidates := if k = 0 then [center] else [center + d, center - d]
    candidates.filter fun v => lo ≤ v && v ≤ hi

/-- The greatest offset at which the template lies inside the source. -/
structure Bounds where
  maxX : Int
  maxY : Int
  deriving DecidableEq, Repr

namespace Bounds

/-- The step of the search without a hint. -/
def gridStep : Nat := 4

/-- Every fourth offset in either direction, row by row. -/
def grid (b : Bounds) : List Offset :=
  (stepsFrom 0 b.maxY gridStep).flatMap fun y => (stepsFrom 0 b.maxX gridStep).map fun x => ⟨x, y⟩

/-- The step of the sweep around a hint, in both directions. -/
def sweepStep : Nat := 2

/-- How far the sweep goes to either side. -/
def sweepReach : Int := 24

/-- The offset of the bounds that lies nearest to a hint. -/
def clamp (b : Bounds) (hint : Offset) : Offset :=
  ⟨max 0 (min hint.x b.maxX), max 0 (min hint.y b.maxY)⟩

/-- Every second row outward from the hint, and in each every second column near the hint. -/
def sweep (b : Bounds) (hint : Offset) : List Offset :=
  let c := b.clamp hint
  let lo := max (c.x - sweepReach) 0
  let hi := min (c.x + sweepReach) b.maxX
  (outward c.y 0 b.maxY sweepStep).flatMap fun y => (outward c.x lo hi sweepStep).map fun x => ⟨x, y⟩

/-- The whole row of an offset, outward from it. -/
def row (b : Bounds) (center : Offset) : List Offset :=
  (outward center.x 0 b.maxX 1).map fun x => ⟨x, center.y⟩

/-- How far the last look around a place goes. -/
def fineReach : Int := 3

/-- The offsets around a place, row by row, the place itself among them. -/
def surroundings (b : Bounds) (center : Offset) : List Offset :=
  (stepsFrom (max (center.y - fineReach) 0) (min (center.y + fineReach) b.maxY) 1).flatMap fun y =>
    (stepsFrom (max (center.x - fineReach) 0) (min (center.x + fineReach) b.maxX) 1).map fun x => ⟨x, y⟩

end Bounds

end Screenplay
