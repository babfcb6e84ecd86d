/-!
Filters of rows. Each byte of a row is stored as its difference from a prediction, which is made of
bytes that come before it: the one to the left of it, the one above, and the one above that.
-/
namespace Screenplay.Png

/-- How bytes are predicted. -/
inductive RowFilter where
  | zero
  | left
  | above
  | average
  | nearest
  deriving DecidableEq, Repr

namespace RowFilter

def ofNat? : Nat → Option RowFilter
  | 0 => some zero
  | 1 => some left
  | 2 => some above
  | 3 => some average
  | 4 => some nearest
  | _ => none

/-- How far apart two numbers are. -/
def gap (m n : Nat) : Nat := m - n + (n - m)

/-- Of three bytes the one that is nearest to `left + above - corner`; of two that are equally near,
the earlier. -/
def nearestOf (left above corner : UInt8) : UInt8 :=
  let toLeft := gap above.toNat corner.toNat
  let toAbove := gap left.toNat corner.toNat
  let toCorner := gap (left.toNat + above.toNat) (2 * corner.toNat)
  if toLeft ≤ toAbove ∧ toLeft ≤ toCorner then left
  else if toAbove ≤ toCorner then above
  else corner

/-- What a byte is expected to be. -/
def predict (filter : RowFilter) (l a corner : UInt8) : UInt8 :=
  match filter with
  | zero => 0
  | left => l
  | above => a
  | average => UInt8.ofNat ((l.toNat + a.toNat) / 2)
  | nearest => nearestOf l a corner

/-- The bytes of a row from their differences. The neighbour to the left is `step` bytes away, and
outside the picture all bytes are 0. -/
def undo (filter : RowFilter) (step : Nat) (rowAbove differences : Array UInt8) : Array UInt8 :=
  differences.foldl
    (fun row difference =>
      let i := row.size
      let before (bytes : Array UInt8) : UInt8 := if i < step then 0 else bytes.getD (i - step) 0
      row.push (difference + filter.predict (before row) (rowAbove.getD i 0) (before rowAbove)))
    #[]

end RowFilter

end Screenplay.Png
