import Screenplay.Decimal.Double

/-!
A double with a fixed number of decimal places, rounded from its exact value; a half goes to the
even neighbour.
-/
namespace Screenplay.Decimal

/-- The nearest whole number to a quotient; a tie goes to the even one. -/
def roundHalfEven (num den : Nat) : Nat :=
  let whole := num / den
  let rest := num % den
  if 2 * rest < den then whole
  else if den < 2 * rest then whole + 1
  else if whole % 2 = 0 then whole else whole + 1

/-- Writes `places` digits after the point. -/
def fixed (places : Nat) (x : Float) : String :=
  match Double.ofFloat? x with
  | none => if x.isNaN then "NaN" else if x < 0 then "-inf" else "inf"
  | some d =>
    let (num, den) := d.ratio
    let scaled := roundHalfEven (num * Nat.pow 10 places) den
    let fraction := Nat.repr (scaled % Nat.pow 10 places)
    let sign := if d.negative then "-" else ""
    let zeros := String.ofList (List.replicate (places - fraction.length) '0')
    sign ++ Nat.repr (scaled / Nat.pow 10 places) ++ "." ++ zeros ++ fraction

end Screenplay.Decimal
