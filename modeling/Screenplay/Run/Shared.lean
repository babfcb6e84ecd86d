import Screenplay.Run.Control
import Screenplay.Run.Event

/-!
What an engine shares with its runs and with those who stop them, cell by cell. Everyone takes one step
at a time, and the steps of different calls may come in any order. Publishing a run and asking a run to
stop happen under a lock; that a run is over is noted without it.
-/
namespace Screenplay

/-- The cells of an engine. A token is known by its number. -/
structure Cells where
  /-- A run is in flight. -/
  running : Bool := false
  /-- The token of the run that was published last; the engine comes with one of its own. -/
  token : Nat := 0
  /-- How many tokens were made. -/
  made : Nat := 1
  /-- The tokens that were cancelled. -/
  cancelled : List Nat := []
  /-- The position of the action that was reached last. -/
  current : Nat := 0
  events : Array Event := #[]
  deriving Repr

/-- How far a call has come that asks the engine to run. -/
inductive Execution where
  /-- It has not begun, or waits for the lock. -/
  | waiting
  /-- It has the lock and comes to the flag. -/
  | entering
  /-- The flag was set already; it still has the lock. -/
  | leaving
  /-- It has returned: another run is in flight. -/
  | refused
  /-- It has set the flag and comes to the position. -/
  | claiming
  /-- It has reset the position and comes to the token. -/
  | rewinding
  /-- It has put a new token in place and still has the lock. -/
  | publishing
  /-- Its run is published; this is the token that it took along. -/
  | running (token : Nat)
  /-- Its run has ended or broken off, or it was dropped. -/
  | closed
  deriving DecidableEq, Repr

/-- How far a call has come that asks the run in flight to stop. -/
inductive Stopping where
  /-- It has not begun, or waits for the lock. -/
  | waiting
  /-- It has the lock and comes to the flag. -/
  | looking
  /-- The flag was set; it comes to the position. -/
  | seeing
  /-- It has read the position and comes to tell it. -/
  | telling (index : Nat)
  /-- It has told the position and comes to the token. -/
  | cancelling
  /-- There is nothing left to do; it still has the lock. -/
  | leaving
  | done
  deriving DecidableEq, Repr

inductive Phase where
  | execute (execution : Execution)
  | stop (stopping : Stopping)
  deriving DecidableEq, Repr

/-- Who takes a step, and which one if there is a choice. -/
inductive Turn where
  /-- Someone makes a call, to run or to stop. -/
  | call (call : Nat) (stops : Bool)
  /-- A call goes on towards its run, or towards its end. -/
  | next (call : Nat)
  /-- The run of a call reaches an action. -/
  | reach (call index : Nat)
  /-- The run of a call tells something. -/
  | tell (call : Nat) (event : Event)
  /-- The run of a call is over: it ends, it breaks off or the call is dropped. A call that has not
  begun can be dropped as well. -/
  | close (call : Nat)
  deriving Repr

/-- An engine with all calls that were made to it. -/
structure Shared where
  cells : Cells := {}
  /-- The call that has the lock. -/
  holder : Option Nat := none
  calls : Nat → Option Phase := fun _ => none

namespace Shared

def put (m : Shared) (call : Nat) (phase : Phase) : Shared :=
  { m with calls := fun other => if other = call then some phase else m.calls other }

/-- Goes on with other cells. -/
def set (m : Shared) (call : Nat) (phase : Phase) (cells : Cells) : Shared :=
  { m.put call phase with cells }

/-- Goes on with the lock, unless someone has it. -/
def take (m : Shared) (call : Nat) (phase : Phase) : Option Shared :=
  match m.holder with
  | none => some { m.put call phase with holder := some call }
  | some _ => none

/-- Goes on without the lock. -/
def give (m : Shared) (call : Nat) (phase : Phase) : Shared :=
  { m.put call phase with holder := none }

def goOn (m : Shared) (call : Nat) : Phase → Option Shared
  | .execute .waiting => m.take call (.execute .entering)
  | .execute .entering =>
    if m.cells.running then some (m.put call (.execute .leaving))
    else some (m.set call (.execute .claiming) { m.cells with running := true })
  | .execute .leaving => some (m.give call (.execute .refused))
  | .execute .claiming => some (m.set call (.execute .rewinding) { m.cells with current := 0 })
  | .execute .rewinding =>
    some (m.set call (.execute .publishing)
      { m.cells with token := m.cells.made, made := m.cells.made + 1 })
  | .execute .publishing => some (m.give call (.execute (.running m.cells.token)))
  | .execute .refused | .execute (.running _) | .execute .closed => none
  | .stop .waiting => m.take call (.stop .looking)
  | .stop .looking => some (m.put call (.stop (if m.cells.running then .seeing else .leaving)))
  | .stop .seeing => some (m.put call (.stop (.telling m.cells.current)))
  | .stop (.telling index) =>
    some (m.set call (.stop .cancelling)
      { m.cells with events := m.cells.events.push (.stopRequested index) })
  | .stop .cancelling =>
    some (m.set call (.stop .leaving)
      { m.cells with cancelled := m.cells.token :: m.cells.cancelled })
  | .stop .leaving => some (m.give call (.stop .done))
  | .stop .done => none

/-- One step; none if it cannot be taken now. -/
def step (m : Shared) : Turn → Option Shared
  | .call call stops =>
    match m.calls call with
    | none => some (m.put call (if stops then .stop .waiting else .execute .waiting))
    | some _ => none
  | .next call =>
    match m.calls call with
    | none => none
    | some phase => m.goOn call phase
  | .reach call index =>
    match m.calls call with
    | some (.execute (.running _)) => some { m with cells := { m.cells with current := index } }
    | _ => none
  | .tell call event =>
    match m.calls call with
    | some (.execute (.running _)) =>
      some { m with cells := { m.cells with events := m.cells.events.push event } }
    | _ => none
  | .close call =>
    match m.calls call with
    | some (.execute (.running _)) =>
      some (m.set call (.execute .closed) { m.cells with running := false })
    | some (.execute .waiting) => some (m.put call (.execute .closed))
    | _ => none

/-- The steps that are taken, in order; none if one of them cannot be taken. -/
def run (m : Shared) : List Turn → Option Shared
  | [] => some m
  | turn :: rest =>
    match m.step turn with
    | none => none
    | some m => m.run rest

end Shared

end Screenplay
