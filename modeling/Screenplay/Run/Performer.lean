import Screenplay.Scenario.Action

/-!
What a run needs from the world: someone who performs tasks and someone who judges conditions.
Either may take time, during which others may act; what they did is part of the reply.
-/
namespace Screenplay

/-- How a task went. -/
structure Outcome where
  success : Bool := false
  error : Option String := none
  /-- Where to go on in the current sequence, instead of at the next action. -/
  jumpTo : Option Nat := none
  /-- The whole run ends here. -/
  terminate : Bool := false
  deriving DecidableEq, Repr

namespace Outcome

def ok : Outcome := { success := true }

def failed (error : String) : Outcome := { error := some error }

end Outcome

/-- Something that happens while a call is in flight. -/
inductive Signal (ω : Type) where
  /-- The caller gets a chance to act; the world is seen as it is then. -/
  | pause (world : ω)
  /-- The run is asked to stop. -/
  | stop
  /-- The program crashes: nothing comes back from the call, and the world stays as it is then. -/
  | crash (world : ω)
  deriving Repr

namespace Signal

variable {ω ω' : Type}

/-- The same in a larger world. -/
def mapWorld (f : ω → ω') : Signal ω → Signal ω'
  | pause world => pause (f world)
  | stop => stop
  | crash world => crash (f world)

/-- How the world is seen then, if it is. -/
def world? : Signal ω → Option ω
  | pause world => some world
  | stop => none
  | crash world => some world

def isCrash : Signal ω → Bool
  | crash _ => true
  | _ => false

end Signal

/-- What a call gives back. -/
structure Reply (ω α : Type) where
  result : α
  world : ω
  /-- What happened meanwhile, in order. -/
  signals : List (Signal ω) := []

namespace Reply

variable {ω α : Type}

/-- The same reply in a larger world. -/
def mapWorld {ω' : Type} (f : ω → ω') (r : Reply ω α) : Reply ω' α where
  result := r.result
  world := f r.world
  signals := r.signals.map (Signal.mapWorld f)

/-- The reply to the call of this number, in a world that counts the calls. Someone may ask the run
to stop meanwhile. -/
def counted (r : Reply ω α) (call : Nat) (interrupt : Option Nat) : Reply (Nat × ω) α :=
  let told := r.mapWorld fun world => (call + 1, world)
  if interrupt = some call then { told with signals := told.signals ++ [.stop] } else told

/-- The reply without the requests to stop. -/
def unstopped (r : Reply ω α) : Reply ω α :=
  { r with signals := r.signals.filter fun
      | .stop => false
      | _ => true }

end Reply

structure Performer (ω : Type) where
  /-- An error means that the task could not be run at all. -/
  perform : Task → ω → Reply ω (Except String Outcome)
  judge : Condition → ω → Reply ω Bool

/-- The performer where nobody who asks the run to stop is heard. -/
def Performer.unstopped {ω : Type} (performer : Performer ω) : Performer ω where
  perform task w := (performer.perform task w).unstopped
  judge condition w := (performer.judge condition w).unstopped

/-- The performer while someone asks the run to stop during one of its calls, which are counted
from 0. -/
def Performer.interrupted {ω : Type} (performer : Performer ω) (interrupt : Option Nat) :
    Performer (Nat × ω) where
  perform task w := (performer.perform task w.2).counted w.1 interrupt
  judge condition w := (performer.judge condition w.2).counted w.1 interrupt

end Screenplay
