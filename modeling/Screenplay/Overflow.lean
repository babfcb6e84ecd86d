/-!
What becomes of a number that its word cannot hold. How the program was built decides on it.
-/
namespace Screenplay

inductive Overflow where
  /-- The program goes on with what the word can hold of the number, as in a release build. -/
  | wraps
  /-- The program crashes there, as in a build that checks its arithmetic. -/
  | crashes
  deriving DecidableEq, Repr

end Screenplay
