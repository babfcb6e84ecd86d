import Screenplay.Run.Engine

/-!
What a list of actions means, by recursion on the tree that the actions form. There is no stack: a
sequence is evaluated with a position of its own, and a branch or a body is evaluated to its end
before what follows its owner. How the run goes on is part of the result of every evaluation.
-/
namespace Screenplay

/-- How the evaluation of a part of the tree ends. -/
inductive Exit where
  /-- The part is done, and what follows it comes next. -/
  | done
  /-- The action is done, and its own sequence goes on at another position. -/
  | jump (target : Nat)
  /-- The whole run is over. -/
  | ends (ending : Ending)
  deriving DecidableEq, Repr

namespace Exit

/-- Where a sequence goes on after its action at `index`. -/
def next (index : Nat) : Exit → Option Nat
  | done => some (index + 1)
  | jump target => some target
  | ends _ => none

/-- How a run ends whose top sequence is left in this way. -/
def ending : Exit → Ending
  | ends ending => ending
  | done | jump _ => .finished

end Exit

/-- A part of the tree. Its place tells the positions of the actions around it, from the top
sequence inwards. -/
inductive Part where
  /-- A sequence, from a position to its end. -/
  | sequence (place : List Nat) (actions : List Action) (next : Nat)
  /-- The action at a position of a sequence. -/
  | action (place : List Nat) (index : Nat) (action : Action)
  /-- The passes of a body that are still to be made. -/
  | passes (place : List Nat) (body : List Action) (passes : Passes)

/-- The branch that a judgement selects, if there is one. -/
def chosen (result : Bool) (thenActions : List Action) (elseActions : Option (List Action)) :
    Option (List Action) :=
  if result then some thenActions else elseActions

/-- The position of the action that owns what stands at a place. -/
def ownerOf (place : List Nat) : Nat := place.getLast?.getD 0

/-- The state in which the action at a position is taken. -/
def RunState.reaching {ω : Type} (s : RunState ω) (index : Nat) : RunState ω :=
  { s with control := s.control.reach index }

namespace RunSetup

variable {ω : Type}

/-- Takes in the reply to a call; without a result the run was let go meanwhile. -/
def heard {α : Type} (p : RunSetup ω) (s : RunState ω) (reply : Reply ω α) :
    RunState ω × Option α :=
  match s.hear p.atPause reply.signals with
  | (s, some world) => ({ s with world }, none)
  | (s, none) => ({ s with world := reply.world }, some reply.result)

/-- Judges a condition once; one that is not there holds. -/
def judged (p : RunSetup ω) (s : RunState ω) (owner : ControlKind) (condition : Option Condition) :
    RunState ω × Option Bool :=
  match condition with
  | none => (s.emit (.conditionEvaluated owner none true), some true)
  | some c =>
    match p.heard s (p.performer.judge c s.world) with
    | (s, none) => (s, none)
    | (s, some result) => (s.emit (.conditionEvaluated owner (some c) result), some result)

/-- Sequences may be open at this place: it is not too deep. -/
def Admits (p : RunSetup ω) (place : List Nat) : Prop := place.length < p.options.maxDepth.toNat

/-- Tells that the leaf at the end of a path begins. -/
def started (p : RunSetup ω) (s : RunState ω) (path : List Nat) (index : Nat) (action : Action) :
    RunState ω :=
  s.emit (.actionStart index action (path.headD 0 + 1) p.total)

/-- What becomes of the run when a task was answered. -/
def answered (p : RunSetup ω) (s : RunState ω) (path : List Nat) (index : Nat) (task : Task) :
    Except String Outcome → Exit × RunState ω
  | .error error =>
    (.ends (.fault (.raised index task.kind error)),
      (s.record path (.task task) .failed (some error)).emit (.actionFailed index (.task task) error))
  | .ok outcome =>
    let error := outcome.error.getD defaultFailure
    let s :=
      if outcome.success then
        (s.record path (.task task) .completed none).emit (.actionComplete index (.task task))
      else
        (s.record path (.task task) .failed (some error)).emit
          (.actionFailed index (.task task) error)
    if outcome.terminate then
      (.ends .terminated, s.terminate index (outcome.error.getD defaultTerminateMessage))
    else if !outcome.success && p.options.stopOnFailure then
      (.ends (.fault (.failed index task.kind error)), s)
    else
      match outcome.jumpTo with
      | none => (.done, s)
      | some target => (.jump target, s)

end RunSetup

/-- The rules of evaluation: from a state, a part of the tree ends in a way and in a state. -/
inductive Evaluates {ω : Type} (p : RunSetup ω) : Part → RunState ω → Exit → RunState ω → Prop where
  /-- A position behind the last action ends the sequence. -/
  | exhausted {place next s} {actions : List Action}
    (behind : actions.length ≤ next) :
    Evaluates p (.sequence place actions next) s .done s
  /-- A request to stop is honoured before an action is taken. -/
  | stopped {place next a s} {actions : List Action}
    (here : actions[next]? = some a) (cancelled : s.control.isCancelled p.run = true) :
    Evaluates p (.sequence place actions next) s (.ends .stopped) (s.stop next)
  /-- The sequence goes on behind its action, or where the action sends it. -/
  | step {place next n a s s' s'' x y} {actions : List Action}
    (here : actions[next]? = some a) (running : s.control.isCancelled p.run = false)
    (first : Evaluates p (.action place next a) (s.reaching next) x s')
    (goesOn : x.next next = some n) (rest : Evaluates p (.sequence place actions n) s' y s'') :
    Evaluates p (.sequence place actions next) s y s''
  | stepOver {place next a s s' e} {actions : List Action}
    (here : actions[next]? = some a) (running : s.control.isCancelled p.run = false)
    (first : Evaluates p (.action place next a) (s.reaching next) (.ends e) s') :
    Evaluates p (.sequence place actions next) s (.ends e) s'
  /-- A leaf that the engine runs itself. -/
  | skip {place index s reason} :
    Evaluates p (.action place index (.skip reason)) s .done
      (((p.started s (place ++ [index]) index (.skip reason)).record (place ++ [index])
        (.skip reason) .skipped none).emit (.actionSkipped index (.skip reason) reason))
  | test {place index s name} :
    Evaluates p (.action place index (.test name)) s .done
      (((p.started s (place ++ [index]) index (.test name)).record (place ++ [index])
        (.test name) .completed none).emit (.actionComplete index (.test name)))
  | fail {place index s message} :
    Evaluates p (.action place index (.fail message)) s (.ends .terminated)
      ((((p.started s (place ++ [index]) index (.fail message)).record (place ++ [index])
        (.fail message) .failed (some (message.getD defaultFailMessage))).emit
          (.actionFailed index (.fail message) (message.getD defaultFailMessage))).terminate index
            (message.getD defaultFailMessage))
  /-- A leaf that the executor runs. -/
  | taskAbandoned {place index s s' task}
    (call : p.heard (p.started s (place ++ [index]) index (.task task))
      (p.performer.perform task s.world) = (s', none)) :
    Evaluates p (.action place index (.task task)) s (.ends .abandoned) s'
  | task {place index s s' s'' x task answer}
    (call : p.heard (p.started s (place ++ [index]) index (.task task))
      (p.performer.perform task s.world) = (s', some answer))
    (outcome : p.answered s' (place ++ [index]) index task answer = (x, s'')) :
    Evaluates p (.action place index (.task task)) s x s''
  /-- A branch judges its condition once and evaluates at most one of its lists. -/
  | branchAbandoned {place thenActions elseActions condition index s s'}
    (judged : p.judged s .branch condition = (s', none)) :
    Evaluates p (.action place index (.branch condition thenActions elseActions)) s
      (.ends .abandoned) s'
  | branchNone {place thenActions elseActions condition index s s' result}
    (judged : p.judged s .branch condition = (s', some result))
    (nothing : chosen result thenActions elseActions = none) :
    Evaluates p (.action place index (.branch condition thenActions elseActions)) s .done s'
  | branchTooDeep {place thenActions elseActions condition index s s' result} {actions : List Action}
    (judged : p.judged s .branch condition = (s', some result))
    (taken : chosen result thenActions elseActions = some actions)
    (deep : ¬ p.Admits (place ++ [index])) :
    Evaluates p (.action place index (.branch condition thenActions elseActions)) s
      (.ends (.fault (.tooDeep p.options.maxDepth))) s'
  | branch {place thenActions elseActions condition index s s' s'' x result} {actions : List Action}
    (judged : p.judged s .branch condition = (s', some result))
    (taken : chosen result thenActions elseActions = some actions)
    (admits : p.Admits (place ++ [index]))
    (inner : Evaluates p (.sequence (place ++ [index]) actions 0) s' x s'') :
    Evaluates p (.action place index (.branch condition thenActions elseActions)) s x s''
  /-- A body is one level further in than its owner. -/
  | whileTooDeep {place body condition index s maxIterations}
    (deep : ¬ p.Admits (place ++ [index])) :
    Evaluates p (.action place index (.repeatWhile condition body maxIterations)) s
      (.ends (.fault (.tooDeep p.options.maxDepth))) s
  | whileLoop {place body condition index most s s' x maxIterations}
    (admits : p.Admits (place ++ [index]))
    (bound : most = (maxIterations.getD p.options.defaultMaxIterations).toNat)
    (inner : Evaluates p (.passes (place ++ [index]) body (.whileHolds condition most 0)) s x s') :
    Evaluates p (.action place index (.repeatWhile condition body maxIterations)) s x s'
  | loopTooDeep {place body index s count}
    (deep : ¬ p.Admits (place ++ [index])) :
    Evaluates p (.action place index (.loop count body)) s
      (.ends (.fault (.tooDeep p.options.maxDepth))) s
  | loop {place body index s s' x count}
    (admits : p.Admits (place ++ [index]))
    (inner : Evaluates p (.passes (place ++ [index]) body (.counted count.toNat 0)) s x s') :
    Evaluates p (.action place index (.loop count body)) s x s'
  | once {place body s} : Evaluates p (.passes place body .once) s .done s
  /-- A request to stop is honoured before a pass is decided on. -/
  | passesStopped {place body s passes}
    (repeats : passes ≠ .once)
    (cancelled : s.control.isCancelled p.run = true) :
    Evaluates p (.passes place body passes) s (.ends .stopped) (s.stop (ownerOf place))
  /-- A counted body is evaluated until its count is reached. -/
  | countedEnough {place body count made s}
    (running : s.control.isCancelled p.run = false) (enough : count ≤ made) :
    Evaluates p (.passes place body (.counted count made)) s .done s
  | countedPass {place body count made s s' s'' x}
    (running : s.control.isCancelled p.run = false) (more : made < count)
    (pass : Evaluates p (.sequence place body 0)
      (s.emit (.loopIteration .loop (made + 1) (some count))) .done s')
    (rest : Evaluates p (.passes place body (.counted count (made + 1))) s' x s'') :
    Evaluates p (.passes place body (.counted count made)) s x s''
  | countedOver {place body count made s s' e}
    (running : s.control.isCancelled p.run = false) (more : made < count)
    (pass : Evaluates p (.sequence place body 0)
      (s.emit (.loopIteration .loop (made + 1) (some count))) (.ends e) s') :
    Evaluates p (.passes place body (.counted count made)) s (.ends e) s'
  /-- Before each pass the condition is judged again, unless the bound is reached. -/
  | whileEnough {place body condition made most s}
    (running : s.control.isCancelled p.run = false) (enough : most ≤ made) :
    Evaluates p (.passes place body (.whileHolds condition most made)) s .done s
  | whileAbandoned {place body condition made most s s'}
    (running : s.control.isCancelled p.run = false) (more : made < most)
    (judged : p.judged s .repeatWhile condition = (s', none)) :
    Evaluates p (.passes place body (.whileHolds condition most made)) s (.ends .abandoned) s'
  | whileFalse {place body condition made most s s'}
    (running : s.control.isCancelled p.run = false) (more : made < most)
    (judged : p.judged s .repeatWhile condition = (s', some false)) :
    Evaluates p (.passes place body (.whileHolds condition most made)) s .done s'
  | whilePass {place body condition made most s s' s'' x t}
    (running : s.control.isCancelled p.run = false) (more : made < most)
    (judged : p.judged s .repeatWhile condition = (s', some true))
    (pass : Evaluates p (.sequence place body 0)
      (s'.emit (.loopIteration .repeatWhile (made + 1) none)) .done s'')
    (rest : Evaluates p (.passes place body (.whileHolds condition most (made + 1))) s'' x t) :
    Evaluates p (.passes place body (.whileHolds condition most made)) s x t
  | whileOver {place body condition made most s s' s'' e}
    (running : s.control.isCancelled p.run = false) (more : made < most)
    (judged : p.judged s .repeatWhile condition = (s', some true))
    (pass : Evaluates p (.sequence place body 0)
      (s'.emit (.loopIteration .repeatWhile (made + 1) none)) (.ends e) s'') :
    Evaluates p (.passes place body (.whileHolds condition most made)) s (.ends e) s''

end Screenplay
