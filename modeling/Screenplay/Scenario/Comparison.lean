/-!
The six comparisons of a measured number with a given one. Equality allows for a small tolerance,
and inequality is its complement wherever both are numbers.
-/
namespace Screenplay

inductive Comparison where
  | atLeast
  | greater
  | equal
  | less
  | atMost
  | unequal
  deriving DecidableEq, Repr

namespace Comparison

/-- How far two equal numbers may lie apart. -/
def tolerance : Float := 1e-9

def holds (c : Comparison) (lhs rhs : Float) : Bool :=
  match c with
  | atLeast => rhs ≤ lhs
  | greater => rhs < lhs
  | equal => (lhs - rhs).abs ≤ tolerance
  | less => lhs < rhs
  | atMost => lhs ≤ rhs
  | unequal => tolerance < (lhs - rhs).abs

/-- The sign of the comparison in a scenario. -/
def symbol : Comparison → String
  | atLeast => ">="
  | greater => ">"
  | equal => "=="
  | less => "<"
  | atMost => "<="
  | unequal => "!="

/-- In the order in which the signs are listed to the user. -/
def all : List Comparison := [atLeast, greater, equal, less, atMost, unequal]

end Comparison

end Screenplay
