import Screenplay.Json.Value

/-!
The value of a number in a JSON document. Digits are gathered while they fit 64 bits; what is left
over of the whole part scales the number and what is left over of the fraction is ignored. A whole
number that fits keeps its value exactly; any other is one scaling of the gathered digits by a
power of ten, rounded as doubles round.
-/
namespace Screenplay.Json

/-- A number as it is spelled. -/
structure Numeral where
  negative : Bool
  /-- The digits before the point. -/
  whole : List Nat
  /-- The digits after the point, if there is one. -/
  fraction : Option (List Nat)
  /-- The signed exponent, if there is one. -/
  exponent : Option Int
  deriving DecidableEq, Repr

namespace Numeral

/-- The digits that fit 64 bits after `n`, and those left over. -/
def gather (n : Nat) : List Nat → Nat × List Nat
  | [] => (n, [])
  | d :: rest => if n * 10 + d < UInt64.size then gather (n * 10 + d) rest else (n, d :: rest)

/-- A power of ten that is a finite double. -/
def tenTo (k : Nat) : Float := Float.ofScientific 1 false k

/-- The greatest `k` for which `10 ^ k` is a double. -/
def greatestPower : Nat := 308

/-- Divides by `10 ^ k`, in steps where that is no double; a zero stays what it is. -/
def scaleDown (f : Float) (k : Nat) : Float :=
  if k ≤ greatestPower then f / tenTo k
  else if f == 0 then f
  else scaleDown (f / tenTo greatestPower) (k - greatestPower)
termination_by k
decreasing_by simp only [greatestPower] at *; omega

/-- `n * 10 ^ k`; none where that is beyond every finite double. -/
def scale (n : Nat) (k : Int) : Option Float :=
  let f := Float.ofNat n
  if k < 0 then some (scaleDown f (-k).toNat)
  else if k.toNat ≤ greatestPower then
    let scaled := f * tenTo k.toNat
    if scaled.isInf then none else some scaled
  else if f == 0 then some f
  else none

/-- The value of a spelled number; none where it is too large for a double. -/
def value (n : Numeral) : Option Number :=
  let (gathered, surplus) := gather 0 n.whole
  let signed (f : Float) : Number := .double (if n.negative then -f else f)
  if n.fraction.isNone ∧ n.exponent.isNone ∧ surplus.isEmpty then
    if !n.negative then some (.whole gathered)
    else if 0 < gathered ∧ Int64.minValue.toInt ≤ -(gathered : Int) then some (.whole (-(gathered : Int)))
    else some (signed (Float.ofNat gathered))
  else
    let digits := n.fraction.getD []
    let (all, ignored) := gather gathered digits
    let power : Int := surplus.length - (digits.length - ignored.length) + n.exponent.getD 0
    (scale all power).map signed

end Numeral

end Screenplay.Json
