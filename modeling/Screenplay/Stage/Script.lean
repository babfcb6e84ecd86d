import Screenplay.Stage.Scene

/-!
An executor that follows a script: it does nothing but note what it is given, and answers as the
script says. When the script is used up, everything succeeds.
-/
namespace Screenplay

/-- The answer to one task. -/
structure Cue where
  outcome : Outcome := .ok
  /-- The task cannot be run at all. -/
  raise : Option String := none
  /-- The run is asked to stop meanwhile. -/
  stop : Bool := false
  /-- The caller gets a chance to act meanwhile. -/
  pause : Bool := false
  deriving DecidableEq, Repr

/-- The answer to one probe. -/
structure ProbeCue where
  reading : ProbeReading := ⟨true, none⟩
  raise : Option String := none
  deriving DecidableEq, Repr

/-- What the executor was given. -/
inductive Visit where
  | task (t : Task)
  | probe (c : Condition)
  deriving DecidableEq, Repr

structure Script where
  cues : List Cue := []
  probes : List ProbeCue := []
  /-- What was visited so far, the latest first. -/
  visited : List Visit := []
  deriving DecidableEq, Repr

namespace Script

def perform (t : Task) (c : Context Script) : Reply (Context Script) (Except String Outcome) :=
  let cue := c.executor.cues.head?.getD {}
  let world := { c with executor := { c.executor with
    cues := c.executor.cues.tail, visited := .task t :: c.executor.visited } }
  { result := match cue.raise with
      | some message => .error message
      | none => .ok cue.outcome
    world
    signals := (if cue.pause then [.pause world] else []) ++ (if cue.stop then [.stop] else []) }

def probe (condition : Condition) (c : Context Script) :
    Reply (Context Script) (Except String ProbeReading) :=
  let cue := c.executor.probes.head?.getD {}
  { result := match cue.raise with
      | some message => .error message
      | none => .ok cue.reading
    world := { c with executor := { c.executor with
      probes := c.executor.probes.tail, visited := .probe condition :: c.executor.visited } } }

/-- Performs tasks and answers probes. -/
def executor : Executor Script where
  perform := perform
  probe := probe
  matchImage := Executor.matchInScene

/-- Performs tasks and has no probes. -/
def withoutProbes : Executor Script := { executor with probe := Executor.noProbe }

end Script

end Screenplay
