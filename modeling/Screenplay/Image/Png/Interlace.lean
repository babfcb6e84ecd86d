/-!
The order of the pixels in a file. A picture comes row by row, or in seven passes that make it ever
finer; a pass takes the pixels at regular distances and is again a picture, maybe an empty one.
-/
namespace Screenplay.Png

/-- Pixels at regular distances: where they begin and how far apart they are. -/
structure Pass where
  column : Nat
  row : Nat
  columnStep : Nat
  rowStep : Nat
  deriving DecidableEq, Repr

namespace Pass

/-- All pixels. -/
def whole : Pass := ⟨0, 0, 1, 1⟩

/-- The seven passes of an interlaced picture. -/
def seven : List Pass :=
  [⟨0, 0, 8, 8⟩, ⟨4, 0, 8, 8⟩, ⟨0, 4, 4, 8⟩, ⟨2, 0, 4, 4⟩, ⟨0, 2, 2, 4⟩, ⟨1, 0, 2, 2⟩, ⟨0, 1, 1, 2⟩]

/-- How many columns of a picture belong to a pass. -/
def width (p : Pass) (columns : Nat) : Nat := (columns - p.column + p.columnStep - 1) / p.columnStep

/-- How many rows of a picture have pixels of a pass; there are none if no column has. -/
def height (p : Pass) (columns rows : Nat) : Nat :=
  if p.width columns = 0 then 0 else (rows - p.row + p.rowStep - 1) / p.rowStep

/-- Whether a pixel belongs to a pass. -/
def holds (p : Pass) (x y : Nat) : Bool :=
  p.column ≤ x && p.row ≤ y && (x - p.column) % p.columnStep = 0 && (y - p.row) % p.rowStep = 0

end Pass

end Screenplay.Png
