import Screenplay.Run.Report
import Screenplay.Scenario.Action

/-!
What a run tells those who watch it, in the order in which things happen. An index is always the
position in the sequence that is being walked; nested sequences start at 0 again.
-/
namespace Screenplay

/-- An action that owns conditions or passes. -/
inductive ControlKind where
  | branch
  | repeatWhile
  | loop
  deriving DecidableEq, Repr

def ControlKind.name : ControlKind → String
  | branch => "if"
  | repeatWhile => "while"
  | loop => "loop"

inductive Event where
  | start (totalActions : Nat)
  /-- Before a leaf is run. Of `total` actions of the top sequence, `reached` have been begun. -/
  | actionStart (index : Nat) (action : Action) (reached total : Nat)
  | actionComplete (index : Nat) (action : Action)
  | actionFailed (index : Nat) (action : Action) (error : String)
  | actionSkipped (index : Nat) (action : Action) (reason : Option String)
  /-- Once for each branch and once for each check of a conditional loop. -/
  | conditionEvaluated (owner : ControlKind) (condition : Option Condition) (result : Bool)
  /-- Before each pass, counted from 1. -/
  | loopIteration (owner : ControlKind) (iteration : Nat) (total : Option Nat)
  /-- The scenario ended the run. -/
  | terminated (index : Nat) (reason : String)
  /-- Someone asked the run to stop. -/
  | stopRequested (index : Nat)
  /-- The run stopped because it was asked to. -/
  | stopped (index : Nat)
  /-- The end of every run without a fault. -/
  | complete (result : Report)
  /-- The end of a run with a fault. -/
  | error (message : String) (result : Report)
  deriving Repr

namespace Event

/-- The part of the top sequence that has been begun. -/
def progress (reached total : Nat) : Float :=
  if total = 0 then 1.0 else Float.ofNat reached / Float.ofNat total

/-- The name of the signal. -/
def name : Event → String
  | start _ => "execution:start"
  | actionStart .. => "execution:action-start"
  | actionComplete .. => "execution:action-complete"
  | actionFailed .. => "execution:action-failed"
  | actionSkipped .. => "execution:action-skipped"
  | conditionEvaluated .. => "execution:condition-evaluated"
  | loopIteration .. => "execution:loop-iteration"
  | terminated .. => "execution:terminated"
  | stopRequested _ => "execution:stop-requested"
  | stopped _ => "execution:stopped"
  | complete _ => "execution:complete"
  | error .. => "execution:error"

/-- The event ends its run. -/
def isFinal : Event → Bool
  | complete _ | error .. => true
  | _ => false

end Event

end Screenplay
