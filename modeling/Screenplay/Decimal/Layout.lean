import Screenplay.Decimal.Shortest

/-!
The text of a double in a JSON document: its shortest digits, positional in the middle of the
range and with an exponent outside it.
-/
namespace Screenplay.Decimal

/-- The decisions of a number format that leave the digits alone. -/
structure Layout where
  /-- The least position of the first digit that is written positionally. -/
  least : Int
  /-- The first position that is not. -/
  bound : Int
  /-- A positive exponent carries its sign. -/
  plus : Bool
  deriving DecidableEq, Repr

/-- JSON numbers are positional from `1e-5` to below `1e16`, keep one digit after the point
there, and sign every exponent. -/
def Layout.json : Layout := { least := -5, bound := 16, plus := true }

private def zeros (n : Nat) : String := String.ofList (List.replicate n '0')

/-- Places the point among the digits; `position` is the power of ten of the first digit. -/
def Layout.write (l : Layout) (d : Scaled) : String :=
  let digits := Nat.repr d.digits
  let position := d.exponent + digits.length - 1
  if l.least ≤ position ∧ position < l.bound then
    if 0 ≤ d.exponent then digits ++ zeros d.exponent.toNat ++ ".0"
    else if 0 ≤ position then
      let whole := (position + 1).toNat
      String.ofList (digits.toList.take whole) ++ "." ++ String.ofList (digits.toList.drop whole)
    else "0." ++ zeros (-position - 1).toNat ++ digits
  else
    let tail := digits.toList.drop 1
    let fraction := if tail.isEmpty then "" else "." ++ String.ofList tail
    let sign := if position < 0 then "-" else if l.plus then "+" else ""
    String.ofList (digits.toList.take 1) ++ fraction ++ "e" ++ sign ++ Nat.repr position.natAbs

/-- The text of a finite double; both zeros have one digit on either side of the point. -/
def Layout.text (l : Layout) (x : Float) : Option String :=
  (Double.ofFloat? x).map fun d =>
    let sign := if d.negative then "-" else ""
    if d.significand = 0 then sign ++ "0.0" else sign ++ l.write (shortest d)

end Screenplay.Decimal
