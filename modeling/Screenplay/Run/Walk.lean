import Screenplay.Run.Control
import Screenplay.Run.Event
import Screenplay.Run.Performer
import Screenplay.Scenario.Basic

/-!
Walking the actions of a scenario with a stack of open sequences. One step takes the next action of
the innermost sequence, or ends that sequence or begins its next pass. A request to stop is honoured
before an action is taken and before a pass is decided on.
-/
namespace Screenplay

/-- What happens when a sequence runs out of actions. -/
inductive Passes where
  /-- It is over. -/
  | once
  /-- It begins again until `count` passes were made; `made` were. -/
  | counted (count made : Nat)
  /-- It begins again while the condition holds, for at most `most` passes. -/
  | whileHolds (condition : Option Condition) (most made : Nat)
  deriving DecidableEq, Repr

/-- A sequence that is being walked. -/
structure OpenSequence where
  actions : List Action
  /-- The position of the next action. -/
  next : Nat
  passes : Passes
  deriving Repr

namespace OpenSequence

/-- A sequence that is walked once. -/
def once (actions : List Action) : OpenSequence := ⟨actions, 0, .once⟩

/-- A body that may be walked several times. It begins as if a pass had just ended, so that the
first pass is decided on like every other. -/
def repeating (actions : List Action) (passes : Passes) : OpenSequence :=
  ⟨actions, actions.length, passes⟩

/-- The sequence has no next action. -/
def isExhausted (s : OpenSequence) : Bool := s.actions.length ≤ s.next

end OpenSequence

/-- The open sequences, the innermost first. -/
abbrev Stack := List OpenSequence

namespace Stack

/-- The positions of the actions being executed, from the top sequence inwards. -/
def path (stack : Stack) : List Nat := (stack.map fun s => s.next - 1).reverse

/-- How many actions of the top sequence have been begun. -/
def reached (stack : Stack) : Nat := (stack.getLast?.map OpenSequence.next).getD 0

/-- The position of the action that owns the innermost of these sequences' children. -/
def ownerIndex (parents : Stack) : Nat := (parents.head?.map fun s => s.next - 1).getD 0

end Stack

/-- Why a run breaks off. -/
inductive RunFault where
  /-- The executor could not run a leaf. -/
  | raised (index : Nat) (kind : String) (error : String)
  /-- A leaf failed and the first failure ends the run. -/
  | failed (index : Nat) (kind : String) (error : String)
  | tooDeep (maxDepth : UInt64)
  deriving DecidableEq, Repr

def RunFault.message : RunFault → String
  | raised index kind error =>
    "Action " ++ Nat.repr index ++ " (" ++ kind ++ ") raised an error: " ++ error
  | failed index kind error => "Action " ++ Nat.repr index ++ " (" ++ kind ++ ") failed: " ++ error
  | tooDeep maxDepth =>
    "Maximum action nesting depth (" ++ Nat.repr maxDepth.toNat ++
      ") exceeded (possible runaway scenario)"

/-- How a walk ends. -/
inductive Ending where
  | finished
  | stopped
  | terminated
  | fault (f : RunFault)
  /-- The run was let go while a call was in flight: by the caller, or because the call crashed. -/
  | abandoned
  deriving DecidableEq, Repr

/-- What the caller does at the first pause of a run. -/
inductive AtPause where
  | goOn
  | stop
  | abandon
  deriving DecidableEq, Repr

/-- What one run keeps while it is walked. -/
structure RunState (ω : Type) where
  world : ω
  control : Control
  report : Report := {}
  events : Array Event := #[]
  /-- The engine as the caller saw it at the first pause. -/
  paused : Option Control := none

/-- What does not change during one run. -/
structure RunSetup (ω : Type) where
  performer : Performer ω
  options : RunOptions
  /-- The length of the top sequence. -/
  total : Nat
  /-- The number of the run. -/
  run : Nat
  atPause : AtPause := .goOn

/-- What comes after one step. -/
inductive Progress (ω : Type) where
  | more (stack : Stack) (state : RunState ω)
  | over (ending : Ending) (state : RunState ω)

/-- The reason given for a run that a `fail` without a message ends. -/
def defaultFailMessage : String := "Test failed"

/-- The reason given for a run that a leaf without an error message ends. -/
def defaultTerminateMessage : String := "Execution terminated by action"

/-- The error of a leaf that fails without giving one. -/
def defaultFailure : String := "action failed"

namespace RunState

variable {ω : Type}

def emit (s : RunState ω) (e : Event) : RunState ω := { s with events := s.events.push e }

def record (s : RunState ω) (path : List Nat) (action : Action) (status : ActionStatus)
    (error : Option String) : RunState ω :=
  { s with report := s.report.record path action.kind status error }

/-- Someone asks the run in flight to stop. -/
def requestStop (s : RunState ω) : RunState ω :=
  match s.control.requestStop with
  | (none, _) => s
  | (some index, control) => { s with control }.emit (.stopRequested index)

/-- Takes in what happened during a call. The second part is the world that the run leaves behind
if the caller abandons it or the call crashes. -/
def hear (s : RunState ω) (atPause : AtPause) : List (Signal ω) → RunState ω × Option ω
  | [] => (s, none)
  | .stop :: rest => s.requestStop.hear atPause rest
  | .crash world :: _ => (s, some world)
  | .pause world :: rest =>
    if s.paused.isSome then s.hear atPause rest
    else
      let s := { s with paused := some s.control }
      match atPause with
      | .goOn => s.hear atPause rest
      | .stop => s.requestStop.hear atPause rest
      | .abandon => (s, some world)

def stop (s : RunState ω) (index : Nat) : RunState ω :=
  { s with report := s.report.markStopped }.emit (.stopped index)

def terminate (s : RunState ω) (index : Nat) (reason : String) : RunState ω :=
  { s with report := s.report.markTerminated reason }.emit (.terminated index reason)

end RunState

namespace RunSetup

variable {ω : Type}

/-- Goes on with the reply to a call, unless the run is let go meanwhile. -/
def hearing {α : Type} (p : RunSetup ω) (s : RunState ω) (reply : Reply ω α)
    (next : RunState ω → α → Progress ω) : Progress ω :=
  match s.hear p.atPause reply.signals with
  | (s, some world) => .over .abandoned { s with world }
  | (s, none) => next { s with world := reply.world } reply.result

/-- Judges a condition; one that is not there holds. -/
def judging (p : RunSetup ω) (s : RunState ω) (owner : ControlKind) (condition : Option Condition)
    (next : RunState ω → Bool → Progress ω) : Progress ω :=
  match condition with
  | none => next (s.emit (.conditionEvaluated owner none true)) true
  | some c => p.hearing s (p.performer.judge c s.world) fun s result =>
    next (s.emit (.conditionEvaluated owner (some c) result)) result

/-- Opens a sequence inside the others. -/
def enter (p : RunSetup ω) (s : RunState ω) (stack : Stack) (inner : OpenSequence) : Progress ω :=
  if p.options.maxDepth.toNat ≤ stack.length then .over (.fault (.tooDeep p.options.maxDepth)) s
  else .more (inner :: stack) s

/-- Decides whether an exhausted sequence is walked again. -/
def turn (p : RunSetup ω) (s : RunState ω) (top : OpenSequence) (parents : Stack) : Progress ω :=
  match top.passes with
  | .once => .more parents s
  | .counted count made =>
    if count ≤ made then .more parents s
    else .more ({ top with next := 0, passes := .counted count (made + 1) } :: parents)
      (s.emit (.loopIteration .loop (made + 1) (some count)))
  | .whileHolds condition most made =>
    if most ≤ made then .more parents s
    else p.judging s .repeatWhile condition fun s result =>
      if result then
        .more ({ top with next := 0, passes := .whileHolds condition most (made + 1) } :: parents)
          (s.emit (.loopIteration .repeatWhile (made + 1) none))
      else .more parents s

/-- Takes in the outcome of a task; `stack` holds the position after it. -/
def settle (p : RunSetup ω) (s : RunState ω) (top : OpenSequence) (parents : Stack) (index : Nat)
    (task : Task) : Except String Outcome → Progress ω
  | .error error =>
    let action := Action.task task
    let s := s.record (Stack.path (top :: parents)) action .failed (some error)
    .over (.fault (.raised index task.kind error)) (s.emit (.actionFailed index action error))
  | .ok outcome =>
    let action := Action.task task
    let path := Stack.path (top :: parents)
    let error := outcome.error.getD defaultFailure
    let s :=
      if outcome.success then (s.record path action .completed none).emit (.actionComplete index action)
      else (s.record path action .failed (some error)).emit (.actionFailed index action error)
    if !outcome.success && p.options.stopOnFailure && !outcome.terminate then
      .over (.fault (.failed index task.kind error)) s
    else if outcome.terminate then
      .over .terminated (s.terminate index (outcome.error.getD defaultTerminateMessage))
    else match outcome.jumpTo with
      | none => .more (top :: parents) s
      | some target => .more ({ top with next := target } :: parents) s

/-- Tells that a leaf begins; `stack` holds the position after it. -/
def begin (p : RunSetup ω) (s : RunState ω) (stack : Stack) (index : Nat) (action : Action) :
    RunState ω :=
  s.emit (.actionStart index action (Stack.reached stack) p.total)

/-- Executes the action at a position; `top` is the sequence after it. -/
def execute (p : RunSetup ω) (s : RunState ω) (top : OpenSequence) (parents : Stack) (index : Nat)
    (action : Action) : Progress ω :=
  let stack := top :: parents
  match action with
  | .branch condition thenActions elseActions =>
    p.judging s .branch condition fun s result =>
      match if result then some thenActions else elseActions with
      | none => .more stack s
      | some actions => p.enter s stack (.once actions)
  | .repeatWhile condition actions maxIterations =>
    let most := (maxIterations.getD p.options.defaultMaxIterations).toNat
    p.enter s stack (.repeating actions (.whileHolds condition most 0))
  | .loop count actions => p.enter s stack (.repeating actions (.counted count.toNat 0))
  | .skip reason =>
    let s := (p.begin s stack index action).record (Stack.path stack) action .skipped none
    .more stack (s.emit (.actionSkipped index action reason))
  | .fail message =>
    let reason := message.getD defaultFailMessage
    let s := (p.begin s stack index action).record (Stack.path stack) action .failed (some reason)
    .over .terminated ((s.emit (.actionFailed index action reason)).terminate index reason)
  | .test _ =>
    let s := (p.begin s stack index action).record (Stack.path stack) action .completed none
    .more stack (s.emit (.actionComplete index action))
  | .task task =>
    let s := p.begin s stack index action
    p.hearing s (p.performer.perform task s.world) fun s result =>
      p.settle s top parents index task result

/-- One step of the walk. -/
def step (p : RunSetup ω) (stack : Stack) (s : RunState ω) : Progress ω :=
  match stack with
  | [] => .over .finished s
  | top :: parents =>
    match top.actions[top.next]? with
    | none =>
      if top.passes ≠ .once ∧ s.control.isCancelled p.run then
        .over .stopped (s.stop (Stack.ownerIndex parents))
      else p.turn s top parents
    | some action =>
      if s.control.isCancelled p.run then .over .stopped (s.stop top.next)
      else
        let s := { s with control := s.control.reach top.next }
        p.execute s { top with next := top.next + 1 } parents top.next action

/-- Walks at most `fuel` steps; none if that is not enough. -/
def walk (p : RunSetup ω) : Nat → Stack → RunState ω → Option (Ending × RunState ω)
  | 0, _, _ => none
  | fuel + 1, stack, s =>
    match p.step stack s with
    | .over ending s => some (ending, s)
    | .more stack s => p.walk fuel stack s

end RunSetup

end Screenplay
