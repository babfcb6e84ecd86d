import Screenplay.Decimal.Double

/-!
Whole numbers of 32 bits and doubles. Each of them is a double, and a double goes to the nearest one;
a half goes away from zero.
-/
namespace Screenplay.Decimal

/-- A whole number as a double. -/
def ofInt32 (n : Int32) : Float :=
  if n < 0 then -Float.ofNat n.toInt.natAbs else Float.ofNat n.toInt.natAbs

/-- The whole number that is nearest to the magnitude; a half counts as a whole. -/
def Double.nearest (d : Double) : Nat :=
  let (num, den) := d.ratio
  (2 * num + den) / (2 * den)

/-- The nearest whole number of a double; infinities and what is no number have none. -/
def nearest? (x : Float) : Option Int :=
  (Double.ofFloat? x).map fun d => if d.negative then -(d.nearest : Int) else d.nearest

/-- The nearest whole number of 32 bits: the last one for what lies beyond, and 0 for what is no
number. -/
def nearest (x : Float) : Int32 :=
  match nearest? x with
  | some n => Int32.ofIntClamp n
  | none => if x.isNaN then 0 else if x < 0 then Int32.minValue else Int32.maxValue

end Screenplay.Decimal
