import Screenplay.Decimal.Double

/-!
The fewest decimal digits that read back as the same double. A double stands for every real that
rounds to it; of the decimal grids, coarsest first, the first one that has a point in that
interval gives the digits, and of two such points the nearer one, a tie going to the even digit.
-/
namespace Screenplay.Decimal

/-- A positive decimal number `digits * 10 ^ exponent`. -/
structure Scaled where
  digits : Nat
  exponent : Int
  deriving DecidableEq, Repr

/-- The reals that round to a double, as whole numbers over one common denominator. -/
structure RoundingInterval where
  low : Nat
  value : Nat
  high : Nat
  denominator : Nat
  /-- The ends round to the double themselves. -/
  closed : Bool
  deriving DecidableEq, Repr

namespace RoundingInterval

/-- Below a power of two the neighbouring doubles lie twice as close. -/
def ofDouble (d : Double) : RoundingInterval :=
  let gapBelow := if d.significand = Nat.pow 2 52 ∧ -1074 < d.exponent then 1 else 2
  let m := 4 * d.significand
  let e := d.exponent - 2
  let scale := if 0 ≤ e then Nat.pow 2 e.toNat else 1
  let denominator := if 0 ≤ e then 1 else Nat.pow 2 (-e).toNat
  { low := (m - gapBelow) * scale, value := m * scale, high := (m + 2) * scale,
    denominator, closed := d.significand % 2 = 0 }

/-- The point `k * 10 ^ p` lies in the interval. -/
def holds (i : RoundingInterval) (k : Nat) (p : Int) : Bool :=
  let (up, down) := powerOfTen p
  let point := k * up * i.denominator
  if i.closed then decide (i.low * down ≤ point) && decide (point ≤ i.high * down)
  else decide (i.low * down < point) && decide (point < i.high * down)

/-- The point of the grid `10 ^ p` that stands for the interval, if the grid has one in it. -/
def pointOn (i : RoundingInterval) (p : Int) : Option Nat :=
  let (up, down) := powerOfTen p
  let whole := i.value * down / (up * i.denominator)
  let rest := i.value * down % (up * i.denominator)
  let below := decide (0 < whole) && i.holds whole p
  let above := i.holds (whole + 1) p
  if below && above then
    if 2 * rest < up * i.denominator then some whole
    else if up * i.denominator < 2 * rest then some (whole + 1)
    else some (if whole % 2 = 0 then whole else whole + 1)
  else if below then some whole
  else if above then some (whole + 1)
  else none

end RoundingInterval

/-- Moves the zeros at the end of the digits into the exponent. -/
def Scaled.trim (d : Scaled) : Scaled := go d.digits d.digits d.exponent
where
  go : Nat → Nat → Int → Scaled
    | 0, digits, exponent => ⟨digits, exponent⟩
    | fuel + 1, digits, exponent =>
      if digits ≠ 0 ∧ digits % 10 = 0 then go fuel (digits / 10) (exponent + 1)
      else ⟨digits, exponent⟩

/-- The shortest decimal of a double other than zero. The first grid tried is coarser than the
double, and seventeen digits always suffice, so a grid with a point is among those tried. -/
def shortest (d : Double) : Scaled :=
  let bits : Int := (d.significand.log2 : Int) + 1 + d.exponent
  let coarsest := bits * 30103 / 100000 + 1
  let grids := (List.range 24).map fun (k : Nat) => coarsest - (k : Int)
  let interval := RoundingInterval.ofDouble d
  match grids.findSome? fun p => (interval.pointOn p).map fun k => (⟨k, p⟩ : Scaled) with
  | some found => found.trim
  | none => ⟨d.significand, d.exponent⟩

end Screenplay.Decimal
