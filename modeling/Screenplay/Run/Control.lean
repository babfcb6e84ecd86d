/-!
Who owns an engine. At most one run is in flight; a request to stop reaches the run that is in
flight when it is made, and no other.
-/
namespace Screenplay

/-- What an engine shares with the handles that stop it. Runs are numbered as they are accepted. -/
structure Control where
  /-- The run in flight. -/
  active : Option Nat := none
  /-- How many runs were accepted so far. -/
  accepted : Nat := 0
  /-- The position of the action that was reached last. -/
  current : Nat := 0
  /-- The runs that were asked to stop. -/
  cancelled : List Nat := []
  deriving DecidableEq, Repr

namespace Control

def isRunning (c : Control) : Bool := c.active.isSome

/-- Begins a run, unless one is in flight: its number, and the engine from then on. -/
def accept (c : Control) : Option (Nat × Control) :=
  match c.active with
  | some _ => none
  | none => some (c.accepted,
      { c with active := some c.accepted, accepted := c.accepted + 1, current := 0 })

/-- Asks the run in flight to stop. The first part is the position at which it was asked; without
a run nothing happens. -/
def requestStop (c : Control) : Option Nat × Control :=
  match c.active with
  | none => (none, c)
  | some run => (some c.current, { c with cancelled := run :: c.cancelled })

/-- The run was asked to stop. -/
def isCancelled (c : Control) (run : Nat) : Bool := c.cancelled.contains run

def reach (c : Control) (index : Nat) : Control := { c with current := index }

/-- The end of a run, however it ends. -/
def release (c : Control) : Control := { c with active := none }

end Control

end Screenplay
