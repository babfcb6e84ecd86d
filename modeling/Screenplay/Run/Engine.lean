import Screenplay.Run.Walk

/-!
An engine runs one list of actions at a time and reports how it went. Those who have a handle of it can
ask its run to stop.
-/
namespace Screenplay

structure Engine where
  options : RunOptions := {}
  control : Control := {}
  /-- How often a listener was attached. -/
  attached : Nat := 0
  deriving Repr

/-- What reaches the run of an engine from elsewhere. -/
structure StopHandle where
  /-- How often a listener had been attached to the engine when the handle was taken. -/
  attached : Nat
  deriving DecidableEq, Repr

/-- What a run that has ended gives back. -/
inductive RunResult where
  | ok (report : Report)
  | fault (f : RunFault) (partialReport : Report)
  deriving Repr

/-- Why a run gives back no report of its own. -/
def RunResult.report : RunResult → Report
  | ok r => r
  | fault _ r => r

/-- The text of a refusal to run twice at once. -/
def alreadyRunning : String := "execution already in progress"

/-- The text of a fault. -/
def RunFault.report (f : RunFault) : String := "execution aborted: " ++ f.message

/-- A run from its beginning to its end. -/
structure RunRecord (ω : Type) where
  engine : Engine
  world : ω
  events : Array Event
  /-- None for a run that was let go. -/
  result : Option RunResult
  /-- The engine as the caller saw it at the first pause. -/
  paused : Option Engine

/-- What comes of asking an engine to run. -/
inductive Attempt (ω : Type) where
  /-- A run is in flight already. -/
  | refused
  /-- The run did not end within the given number of steps. -/
  | unfinished
  | ran (r : RunRecord ω)

namespace Engine

/-- Asks the engine to stop while nothing is in flight or between the steps of its run. -/
def stop (e : Engine) : Engine := { e with control := e.control.requestStop.2 }

/-- Attaches a listener. The engine shares nothing any more with the handles that were taken before. -/
def withListener (e : Engine) : Engine := { e with control := {}, attached := e.attached + 1 }

def stopHandle (e : Engine) : StopHandle := ⟨e.attached⟩

/-- Closes a walk with its last event. -/
def close {ω : Type} (e : Engine) : Ending × RunState ω → RunRecord ω
  | (ending, s) =>
    let engine := { e with control := s.control.release }
    let paused := s.paused.map fun control => { e with control }
    match ending with
    | .abandoned => { engine, world := s.world, events := s.events, result := none, paused }
    | .fault f =>
      { engine, world := s.world, events := s.events.push (.error f.message s.report)
        result := some (.fault f s.report), paused }
    | _ =>
      { engine, world := s.world, events := s.events.push (.complete s.report)
        result := some (.ok s.report), paused }

/-- Runs actions for at most `fuel` steps. -/
def execute {ω : Type} (e : Engine) (performer : Performer ω) (actions : List Action) (world : ω)
    (atPause : AtPause) (fuel : Nat) : Attempt ω :=
  match e.control.accept with
  | none => .refused
  | some (run, control) =>
    let setup : RunSetup ω :=
      { performer, options := e.options, total := actions.length, run, atPause }
    let start : RunState ω := { world, control, events := #[.start actions.length] }
    match setup.walk fuel [.once actions] start with
    | none => .unfinished
    | some ended => .ran (e.close ended)

end Engine

namespace StopHandle

/-- The handle was taken after the last listener was attached. -/
def reaches (h : StopHandle) (e : Engine) : Bool := h.attached = e.attached

/-- Asks for a stop through the handle. -/
def stop (h : StopHandle) (e : Engine) : Engine := if h.reaches e then e.stop else e

/-- What the caller comes to at a pause by asking for a stop through the handle. -/
def atPause (h : StopHandle) (e : Engine) : AtPause := if h.reaches e then .stop else .goOn

/-- The performer in a run of the engine during which only the handle is used to ask for a stop. -/
def performer {ω : Type} (h : StopHandle) (e : Engine) (performer : Performer ω) : Performer ω :=
  if h.reaches e then performer else performer.unstopped

end StopHandle

end Screenplay
