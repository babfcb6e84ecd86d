/-!
The exact value of a finite double: a sign, a whole significand and a power of two. Everything
that writes a double starts from here, so that no rounding happens before the text is chosen.
-/
namespace Screenplay.Decimal

/-- The magnitude `significand * 2 ^ exponent` of a double, with the sign beside it. -/
structure Double where
  negative : Bool
  significand : Nat
  exponent : Int
  deriving DecidableEq, Repr

namespace Double

/-- Reads the fields of the binary format; an infinity or a NaN has no such value. -/
def ofFloat? (x : Float) : Option Double :=
  let bits : Nat := x.toBits.toNat
  let fraction : Nat := bits % Nat.pow 2 52
  let biased : Nat := bits / Nat.pow 2 52 % Nat.pow 2 11
  let negative := decide (Nat.pow 2 63 ≤ bits)
  if biased = 2047 then none
  else if biased = 0 then some ⟨negative, fraction, -1074⟩
  else some ⟨negative, Nat.pow 2 52 + fraction, (biased : Int) - 1075⟩

/-- The magnitude as a quotient of two whole numbers. -/
def ratio (d : Double) : Nat × Nat :=
  if 0 ≤ d.exponent then (d.significand * Nat.pow 2 d.exponent.toNat, 1)
  else (d.significand, Nat.pow 2 (-d.exponent).toNat)

end Double

/-- Numerator and denominator of `10 ^ p`. -/
def powerOfTen (p : Int) : Nat × Nat :=
  if 0 ≤ p then (Nat.pow 10 p.toNat, 1) else (1, Nat.pow 10 (-p).toNat)

end Screenplay.Decimal
