import Screenplay.Proofs.Accounting

/-!
Two runs that differ in one option: whether the first failure ends the run. Their steps are the same
up to a task that fails and does nothing more (`RunSetup.agrees_or_parts`), and at that task the strict
run breaks off. So a strict run is the other run, or what the other run was when it told of its first
failed leaf (`Engine.progress_strict`).
-/
namespace Screenplay

variable {ω : Type}

/-! ### Runs step by step -/

namespace RunState

/-- Others ask the run in flight to stop, this many times. -/
def requestStops (s : RunState ω) : Nat → RunState ω
  | 0 => s
  | n + 1 => s.requestStop.requestStops n

theorem hears_requestStops (s : RunState ω) (n : Nat) :
    ∃ requests, s.Hears (s.requestStops n) requests := by
  induction n generalizing s with
  | zero => exact ⟨[], .nothing⟩
  | succ n ih =>
    obtain ⟨first, hears⟩ := hears_requestStop s
    obtain ⟨later, hears'⟩ := ih s.requestStop
    exact ⟨first ++ later, hears.trans hears'⟩

theorem requestStops_world (s : RunState ω) (n : Nat) : (s.requestStops n).world = s.world := by
  induction n generalizing s with
  | zero => rfl
  | succ n ih =>
    refine (ih s.requestStop).trans ?_
    rw [requestStop]
    split <;> rfl

end RunState

/-- A walk after so many steps, or at its end if it has ended before. Before each step others may ask
the run to stop; how often they do is up to all that has happened. -/
def RunSetup.going (p : RunSetup ω) (asks : RunState ω → Nat) : Nat → Stack → RunState ω → Progress ω
  | 0, stack, s => .more stack s
  | n + 1, stack, s =>
    match p.step stack (s.requestStops (asks s)) with
    | .more rest t => p.going asks n rest t
    | .over ending t => .over ending t

/-- How the walk ended, if it has. -/
def Progress.ended : Progress ω → Option (Ending × RunState ω)
  | .more _ _ => none
  | .over ending s => some (ending, s)

/-- Without others it is the walk. -/
theorem RunSetup.ended_going (p : RunSetup ω) (n : Nat) (stack : Stack) (s : RunState ω) :
    (p.going (fun _ => 0) n stack s).ended = p.walk n stack s := by
  induction n generalizing stack s with
  | zero => rfl
  | succ n ih =>
    rw [going, walk]
    change (match p.step stack s with
      | .more rest t => p.going (fun _ => 0) n rest t
      | .over ending t => .over ending t).ended = _
    rcases p.step stack s with ⟨rest, t⟩ | ⟨ending, t⟩
    · exact ih rest t
    · rfl

namespace Engine

/-- A run of the engine after so many steps; none if the engine refuses to run. -/
def progress (e : Engine) (performer : Performer ω) (actions : List Action) (world : ω)
    (atPause : AtPause) (asks : RunState ω → Nat) (n : Nat) : Option (Progress ω) :=
  e.control.accept.map fun (run, control) =>
    (e.setup performer actions run atPause).going asks n [.once actions] (opening actions world control)

/-- What a run gives back, if it has ended. -/
def conclude (e : Engine) (progress : Progress ω) : Option (RunRecord ω) :=
  progress.ended.map e.close

/-- Without others it is what comes of asking the engine to run. -/
theorem execute_eq_progress (e : Engine) (performer : Performer ω) (actions : List Action) (world : ω)
    (atPause : AtPause) (fuel : Nat) :
    e.execute performer actions world atPause fuel =
      match e.progress performer actions world atPause (fun _ => 0) fuel with
      | none => .refused
      | some progress =>
        match e.conclude progress with
        | none => .unfinished
        | some record => .ran record := by
  rw [execute, progress]
  rcases e.control.accept with _ | ⟨run, control⟩
  · rfl
  have walked := (e.setup performer actions run atPause).ended_going fuel [.once actions]
    (opening actions world control)
  simp only [setup, opening] at walked
  simp only [Option.map_some, conclude, setup, opening, walked]
  split <;> rename_i same <;> rw [same] <;> rfl

end Engine

/-! ### Where two runs part -/

/-- A task that failed is recorded, and its failure is told. -/
def RunState.noteFailure (s : RunState ω) (path : List Nat) (index : Nat) (task : Task)
    (error : String) : RunState ω :=
  (s.record path (.task task) .failed (some error)).emit (.actionFailed index (.task task) error)

/-- The outcome is a failure and nothing more: it does not ask for the end of the run. -/
def Outcome.IsMereFailure (o : Outcome) : Prop := o.success = false ∧ o.terminate = false

namespace RunSetup

/-- The same run, except that the first failure ends it. -/
def strict (p : RunSetup ω) : RunSetup ω :=
  { p with options := { p.options with stopOnFailure := true } }

/-- The step of a task that fails and does nothing more, up to the event that tells so. -/
inductive Fails (p : RunSetup ω) :
    Stack → RunState ω → Nat → Task → String → RunState ω → Prop where
  | mk {top parents s s' task outcome} (here : top.actions[top.next]? = some (.task task))
    (running : s.control.isCancelled p.run = false)
    (call : p.heard (p.begin (s.reaching top.next) ({ top with next := top.next + 1 } :: parents)
      top.next (.task task)) (p.performer.perform task s.world) = (s', some (.ok outcome)))
    (merely : outcome.IsMereFailure) :
    Fails p (top :: parents) s top.next task (outcome.error.getD defaultFailure)
      (s'.noteFailure (Stack.path ({ top with next := top.next + 1 } :: parents)) top.next task
        (outcome.error.getD defaultFailure))

section Strict

variable (p : RunSetup ω) (s : RunState ω) (top : OpenSequence) (parents : Stack) (index : Nat)

theorem turn_strict : p.strict.turn s top parents = p.turn s top parents := by
  obtain ⟨actions, next, passes⟩ := top
  cases passes <;> rfl

/-- The option decides only over a failure that is nothing more. -/
theorem settle_strict (task : Task) {answer : Except String Outcome}
    (more : ∀ outcome, answer = .ok outcome → ¬ outcome.IsMereFailure) :
    p.strict.settle s top parents index task answer = p.settle s top parents index task answer := by
  cases answer with
  | error error => rfl
  | ok outcome =>
    obtain ⟨success, error, jumpTo, terminate⟩ := outcome
    cases success with
    | true => rfl
    | false =>
      cases terminate with
      | true => simp only [settle, Bool.not_true, Bool.and_false, Bool.false_eq_true, if_false]
      | false => exact absurd ⟨rfl, rfl⟩ (more _ rfl)

/-- Over such a failure the strict run breaks off where the other run goes on. -/
theorem settle_merely (task : Task) {outcome : Outcome} (goesOn : p.options.stopOnFailure = false)
    (merely : outcome.IsMereFailure) :
    (∃ rest, p.settle s top parents index task (.ok outcome) = .more rest
      (s.noteFailure (Stack.path (top :: parents)) index task (outcome.error.getD defaultFailure))) ∧
    p.strict.settle s top parents index task (.ok outcome) =
      .over (.fault (.failed index task.kind (outcome.error.getD defaultFailure)))
        (s.noteFailure (Stack.path (top :: parents)) index task (outcome.error.getD defaultFailure)) := by
  obtain ⟨success, error, jumpTo, terminate⟩ := outcome
  obtain ⟨rfl, rfl⟩ := merely
  refine ⟨?_, rfl⟩
  simp only [settle, goesOn]
  cases jumpTo <;> exact ⟨_, rfl⟩

theorem execute_task (task : Task) :
    p.execute s top parents index (.task task) =
      match p.heard (p.begin s (top :: parents) index (.task task))
        (p.performer.perform task s.world) with
      | (s, none) => .over .abandoned s
      | (s, some answer) => p.settle s top parents index task answer := by
  have asked : (p.begin s (top :: parents) index (.task task)).world = s.world := rfl
  rw [execute, hearing_eq, asked]
  rcases p.heard (p.begin s (top :: parents) index (.task task)) (p.performer.perform task s.world)
    with ⟨t, _ | answer⟩ <;> rfl

theorem execute_strict {a : Action} (taskless : ∀ task, a ≠ .task task) :
    p.strict.execute s top parents index a = p.execute s top parents index a := by
  cases a with
  | task task => exact absurd rfl (taskless task)
  | branch condition => cases condition <;> rfl
  | repeatWhile | loop | skip | fail | test => rfl

end Strict

/-- The two runs take the same step, and it is not one at which a task merely fails. -/
def Agrees (p : RunSetup ω) (stack : Stack) (s : RunState ω) : Prop :=
  p.strict.step stack s = p.step stack s ∧ ∀ index task error t, ¬ p.Fails stack s index task error t

/-- The two runs part: a task merely fails, and there the strict run breaks off while the other goes
on. -/
def Parts (p : RunSetup ω) (stack : Stack) (s : RunState ω) : Prop :=
  ∃ index task error rest t, p.Fails stack s index task error t ∧ p.step stack s = .more rest t ∧
    p.strict.step stack s = .over (.fault (.failed index task.kind error)) t

variable {p : RunSetup ω} {s : RunState ω} {top : OpenSequence} {parents : Stack}

theorem agrees_or_parts_task {task : Task} (goesOn : p.options.stopOnFailure = false)
    (here : top.actions[top.next]? = some (.task task))
    (running : s.control.isCancelled p.run = false) :
    p.Agrees (top :: parents) s ∨ p.Parts (top :: parents) s := by
  have stepped : p.step (top :: parents) s = p.execute (s.reaching top.next)
      { top with next := top.next + 1 } parents top.next (.task task) := step_running here running
  have stepped' : p.strict.step (top :: parents) s = p.strict.execute (s.reaching top.next)
      { top with next := top.next + 1 } parents top.next (.task task) := step_running here running
  rcases call : p.heard (p.begin (s.reaching top.next) ({ top with next := top.next + 1 } :: parents)
    top.next (.task task)) (p.performer.perform task s.world) with ⟨s', answer⟩
  -- what is heard of the task does not depend on the option
  have call' : p.strict.heard (p.strict.begin (s.reaching top.next)
      ({ top with next := top.next + 1 } :: parents) top.next (.task task))
      (p.strict.performer.perform task (s.reaching top.next).world) = (s', answer) := call
  have reached : (s.reaching top.next).world = s.world := rfl
  rw [execute_task, reached, call] at stepped
  rw [execute_task, call'] at stepped'
  by_cases merely : ∃ outcome, answer = some (.ok outcome) ∧ outcome.IsMereFailure
  · obtain ⟨outcome, rfl, merely⟩ := merely
    obtain ⟨⟨rest, settled⟩, settled'⟩ := p.settle_merely s' { top with next := top.next + 1 } parents
      top.next task goesOn merely
    exact .inr ⟨_, _, _, rest, _, .mk here running call merely, stepped.trans settled,
      stepped'.trans settled'⟩
  · refine .inl ⟨?_, fun _ _ _ _ fails => ?_⟩
    · rw [stepped, stepped']
      rcases answer with _ | answer
      · rfl
      exact p.settle_strict s' _ parents top.next task fun outcome same more =>
        merely ⟨outcome, congrArg some same, more⟩
    · cases fails with
      | mk here' _ heard more =>
        cases here.symm.trans here'
        cases call.symm.trans heard
        exact merely ⟨_, rfl, more⟩

/-- At every step the two runs agree or part. -/
theorem agrees_or_parts (goesOn : p.options.stopOnFailure = false) (stack : Stack) (s : RunState ω) :
    p.Agrees stack s ∨ p.Parts stack s := by
  cases stack with
  | nil =>
    refine .inl ⟨rfl, fun _ _ _ _ fails => ?_⟩
    cases fails
  | cons top parents =>
    rcases here : top.actions[top.next]? with _ | a
    · have behind := List.getElem?_eq_none_iff.mp here
      refine .inl ⟨?_, fun _ _ _ _ fails => ?_⟩
      · rw [step_exhausted behind, step_exhausted behind, turn_strict]
        rfl
      · cases fails with
        | mk here' => cases here.symm.trans here'
    rcases running : s.control.isCancelled p.run with _ | _
    · by_cases taskless : ∀ task, a ≠ .task task
      · refine .inl ⟨?_, fun _ _ _ _ fails => ?_⟩
        · rw [step_running here running, ← p.execute_strict _ _ _ _ taskless]
          exact step_running here running
        · cases fails with
          | mk here' => exact taskless _ (Option.some.inj (here.symm.trans here'))
      · obtain ⟨task, rfl⟩ : ∃ task, a = .task task := by simpa using taskless
        exact agrees_or_parts_task goesOn here running
    · refine .inl ⟨?_, fun _ _ _ _ fails => ?_⟩
      · rw [step_stopped here running]
        exact step_stopped here running
      · cases fails with
        | mk _ running' => cases running.symm.trans running'

end RunSetup

/-! ### Failures between two states -/

namespace Performer

/-- The task could not be run, or its outcome is no success. -/
def fails (performer : Performer ω) : Call × ω → Bool
  | (.perform task, world) =>
    match (performer.perform task world).result with
    | .error _ => true
    | .ok outcome => !outcome.success
  | (.judge _, _) => false

/-- The task could be run, and its outcome is a failure and nothing more. -/
def FailsMerely (performer : Performer ω) (call : Call × ω) : Prop :=
  ∃ task outcome, call.1 = .perform task ∧
    (performer.perform task call.2).result = .ok outcome ∧ outcome.IsMereFailure

theorem FailsMerely.fails {performer : Performer ω} {call : Call × ω}
    (merely : performer.FailsMerely call) : performer.fails call = true := by
  obtain ⟨call, world⟩ := call
  obtain ⟨task, outcome, rfl, result, failure, _⟩ := merely
  simp only [Performer.fails, result, failure, Bool.not_false]

end Performer

namespace RunState

/-- The second state comes after the first. In between only such events are told and only such calls
are made. -/
structure Adds (s t : RunState (Watched ω)) (tells : Event → Prop) (makes : Call × ω → Prop) : Prop where
  events : ∃ told, t.events.toList = s.events.toList ++ told ∧ ∀ e ∈ told, tells e
  calls : ∃ made, t.world.calls = s.world.calls ++ made ∧ ∀ call ∈ made, makes call
  outcomes : s.report.outcomes.toList <+: t.report.outcomes.toList

variable {s t u : RunState (Watched ω)} {tells tells' : Event → Prop} {makes makes' : Call × ω → Prop}

theorem Adds.nothing (events : t.events = s.events) (world : t.world = s.world)
    (report : t.report = s.report) : s.Adds t tells makes where
  events := ⟨[], by simp [events]⟩
  calls := ⟨[], by simp [world]⟩
  outcomes := by simp [report]

theorem Adds.trans (first : s.Adds t tells makes) (later : t.Adds u tells makes) :
    s.Adds u tells makes := by
  obtain ⟨told, events, tells⟩ := first.events
  obtain ⟨made, calls, makes⟩ := first.calls
  obtain ⟨told', events', tells'⟩ := later.events
  obtain ⟨made', calls', makes'⟩ := later.calls
  refine ⟨⟨told ++ told', by rw [events', events, List.append_assoc], ?_⟩,
    ⟨made ++ made', by rw [calls', calls, List.append_assoc], ?_⟩, first.outcomes.trans later.outcomes⟩
  · intro e member
    exact (List.mem_append.mp member).elim (tells e) (tells' e)
  · intro call member
    exact (List.mem_append.mp member).elim (makes call) (makes' call)

theorem Adds.mono (adds : s.Adds t tells makes) (weaker : ∀ e, tells e → tells' e)
    (weaker' : ∀ call, makes call → makes' call) : s.Adds t tells' makes' := by
  obtain ⟨told, events, tells⟩ := adds.events
  obtain ⟨made, calls, makes⟩ := adds.calls
  exact ⟨⟨told, events, fun e member => weaker e (tells e member)⟩,
    ⟨made, calls, fun call member => weaker' call (makes call member)⟩, adds.outcomes⟩

theorem Adds.emit {e : Event} (adds : s.Adds t tells makes) (holds : tells e) :
    s.Adds (t.emit e) tells makes := by
  have told : (t.emit e).events.toList = t.events.toList ++ [e] := Array.toList_push
  have made : (t.emit e).world.calls = t.world.calls ++ [] := (List.append_nil _).symm
  exact adds.trans ⟨⟨[e], told, by simpa using holds⟩, ⟨[], made, by simp⟩, List.prefix_rfl⟩

theorem Adds.record {path : List Nat} {a : Action} {status : ActionStatus} {error : Option String}
    (adds : s.Adds t tells makes) : s.Adds (t.record path a status error) tells makes := by
  have told : (t.record path a status error).events.toList = t.events.toList ++ [] :=
    (List.append_nil _).symm
  have made : (t.record path a status error).world.calls = t.world.calls ++ [] :=
    (List.append_nil _).symm
  refine adds.trans ⟨⟨[], told, by simp⟩, ⟨[], made, by simp⟩, ?_⟩
  simp only [RunState.record, Report.outcomes_record, Array.toList_push]
  exact List.prefix_append _ _

theorem Adds.stop {index : Nat} (adds : s.Adds t tells makes) (holds : tells (.stopped index)) :
    s.Adds (t.stop index) tells makes := by
  have marked : s.Adds { t with report := t.report.markStopped } tells makes := { adds with }
  exact marked.emit holds

theorem Adds.terminate {index : Nat} {reason : String} (adds : s.Adds t tells makes)
    (holds : tells (.terminated index reason)) : s.Adds (t.terminate index reason) tells makes := by
  have marked : s.Adds { t with report := t.report.markTerminated reason } tells makes :=
    { adds with }
  exact marked.emit holds

theorem Adds.hears {requests : List Event} (hears : s.Hears t requests)
    (quiet : ∀ e, e.isStopRequest = true → tells e)
    (calls : ∃ made, t.world.calls = s.world.calls ++ made ∧ ∀ call ∈ made, makes call) :
    s.Adds t tells makes where
  events := ⟨requests, hears.events, fun e member => quiet e (hears.requested e member)⟩
  calls := calls
  outcomes := by simp [hears.report]

end RunState

theorem Event.unfailed_of_stopRequest {e : Event} (request : e.isStopRequest = true) :
    e.ends .failed = false := by
  cases e <;> simp_all [isStopRequest, ends, leafEnd]

namespace RunState

/-- No leaf fails between the two states. -/
abbrev Spares (performer : Performer ω) (s t : RunState (Watched ω)) : Prop :=
  s.Adds t (fun e => e.ends .failed = false) (fun call => performer.fails call = false)

/-- No task merely fails between the two states. -/
abbrev Excuses (performer : Performer ω) (s t : RunState (Watched ω)) : Prop :=
  s.Adds t (fun _ => True) (fun call => ¬ performer.FailsMerely call)

theorem Adds.excuses {performer : Performer ω} {s t : RunState (Watched ω)}
    (spares : s.Spares performer t) : s.Excuses performer t :=
  spares.mono (fun _ _ => trivial) fun _ unfailed merely => by
    cases unfailed.symm.trans merely.fails

end RunState

namespace RunSetup

variable {p : RunSetup ω} {s t u : RunState (Watched ω)} {tells : Event → Prop}
  {makes : Call × ω → Prop} {α : Type}

/-- A call that is answered is added. -/
theorem adds_heard {reply : Reply (Watched ω) α} {answer : α} {k : Call × ω}
    (heard : p.watched.heard s reply = (t, some answer))
    (asks : reply.world.calls = s.world.calls ++ [k])
    (quiet : ∀ e, e.isStopRequest = true → tells e) (holds : makes k) : s.Adds t tells makes := by
  obtain ⟨world, requests, hears⟩ := hears_heard heard
  exact .hears hears quiet ⟨[k], by rw [world, asks], by simpa using holds⟩

theorem spares_judged {owner : ControlKind} {condition : Option Condition} {result : Bool}
    (judged : p.watched.judged s owner condition = (t, some result)) :
    s.Spares p.performer t := by
  cases condition with
  | none =>
    cases judged
    exact (RunState.Adds.nothing rfl rfl rfl).emit rfl
  | some c =>
    rw [RunSetup.judged] at judged
    split at judged
    next => cases judged
    next _ t result call =>
      cases judged
      have heard : s.Spares p.performer t := adds_heard (k := (.judge c, s.world.world)) call rfl
        (fun _ => Event.unfailed_of_stopRequest) rfl
      exact heard.emit rfl

/-- What is added by a task that is answered otherwise than by a mere failure. -/
theorem adds_answered {path : List Nat} {index : Nat} {task : Task} {x : Exit}
    {answer : Except String Outcome}
    (call : p.watched.heard (p.watched.started s path index (.task task))
      (p.watched.performer.perform task s.world) = (t, some answer))
    (more : ∀ outcome, answer = .ok outcome → ¬ outcome.IsMereFailure)
    (answered : p.watched.answered t path index task answer = (x, u)) :
    if (x.next index).isSome then s.Spares p.performer u else s.Excuses p.performer u := by
  have result : (p.watched.performer.perform task s.world).result = answer := heard_answer call
  change (p.performer.perform task s.world.world).result = answer at result
  have heard {tells : Event → Prop} {makes : Call × ω → Prop}
      (quiet : ∀ e, e.ends .failed = false → tells e) (holds : makes (.perform task, s.world.world)) :
      s.Adds t tells makes :=
    ((RunState.Adds.nothing rfl rfl rfl).emit (quiet _ rfl)).trans
      (adds_heard call rfl (fun _ request => quiet _ (Event.unfailed_of_stopRequest request)) holds)
  cases answer with
  | error error =>
    cases answered
    have unlike : ¬ p.performer.FailsMerely (.perform task, s.world.world) := by
      rintro ⟨_, outcome, ⟨⟩, answer, _⟩
      cases result.symm.trans answer
    exact (heard (fun _ _ => trivial) unlike).record.emit trivial
  | ok outcome =>
    have unlike : ¬ p.performer.FailsMerely (.perform task, s.world.world) := by
      rintro ⟨_, outcome', ⟨⟩, answer, merely⟩
      cases result.symm.trans answer
      exact more _ rfl merely
    obtain ⟨success, error, jumpTo, terminate⟩ := outcome
    cases terminate with
    | true =>
      cases answered
      have closed : s.Excuses p.performer t := heard (fun _ _ => trivial) unlike
      cases success <;> exact (closed.record.emit trivial).terminate trivial
    | false =>
      cases success with
      | false => exact absurd ⟨rfl, rfl⟩ (more _ rfl)
      | true =>
        have unfailed : p.performer.fails (.perform task, s.world.world) = false := by
          simp only [Performer.fails, result, Bool.not_true]
        have closed : s.Spares p.performer t := heard (fun _ quiet => quiet) unfailed
        cases jumpTo <;> cases answered <;> exact closed.record.emit rfl

end RunSetup

/-- What is added by a leaf at which no task merely fails. -/
theorem Evaluates.adds {p : RunSetup ω} {place : List Nat} {index : Nat} {a : Action}
    {s t : RunState (Watched ω)} {x : Exit} (top : OpenSequence) (parents : Stack)
    (leaf : a.isControl = false)
    (unlike : ∀ task outcome u, a = .task task →
      p.watched.heard (p.watched.started s (place ++ [index]) index a)
        (p.watched.performer.perform task s.world) = (u, some (.ok outcome)) →
      ¬ outcome.IsMereFailure)
    (evaluated : Evaluates p.watched (.action place index a) s x t) :
    (Progress.leave top parents x t).Leaves (fun _ t => s.Spares p.performer t) fun ending t =>
      ending ≠ .abandoned → s.Excuses p.performer t := by
  have begun : s.Spares p.performer (p.watched.started s (place ++ [index]) index a) :=
    (RunState.Adds.nothing rfl rfl rfl).emit rfl
  cases evaluated with
  | skip | test => exact begun.record.emit rfl
  | fail => exact fun _ => (begun.excuses.record.emit trivial).terminate trivial
  | taskAbandoned => exact fun kept => absurd rfl kept
  | task call outcome =>
    have adds := RunSetup.adds_answered call
      (fun outcome same => unlike _ outcome _ rfl (same ▸ call)) outcome
    cases x with
    | done | jump target => exact adds
    | ends e => exact fun _ => adds
  | branchAbandoned | branchNone | branchTooDeep | branch => simp [Action.isControl] at leaf
  | whileTooDeep | whileLoop | loopTooDeep | loop => simp [Action.isControl] at leaf

/-- No leaf fails in a step after which the walk goes on, and no task merely fails in a step that ends
it, unless it is one at which a task merely fails. -/
theorem Moves.adds {p : RunSetup ω} {top : OpenSequence} {parents : Stack}
    {s : RunState (Watched ω)} {after : Progress (Watched ω)} (begun : Stack.Begun parents)
    (unlike : ∀ index task error t, ¬ p.watched.Fails (top :: parents) s index task error t)
    (moves : Moves p.watched top parents s after) :
    after.Leaves (fun _ t => s.Spares p.performer t) fun ending t =>
      ending ≠ .abandoned → s.Excuses p.performer t := by
  have nothing : s.Spares p.performer s := .nothing rfl rfl rfl
  have reached : s.Spares p.performer (s.reaching top.next) := .nothing rfl rfl rfl
  cases moves with
  | stoppedBetween | stopped => exact fun _ => nothing.excuses.stop trivial
  | once | countedEnough | whileEnough => exact nothing
  | countedPass => exact nothing.emit rfl
  | whileAbandoned | branchAbandoned => exact fun kept => absurd rfl kept
  | whileFalse _ _ _ _ judged => exact RunSetup.spares_judged judged
  | whilePass _ _ _ _ judged =>
    have judged : s.Spares p.performer _ := RunSetup.spares_judged judged
    exact judged.emit rfl
  | branchNone _ _ judged | branch _ _ judged => exact reached.trans (RunSetup.spares_judged judged)
  | branchTooDeep _ _ judged => exact fun _ => (reached.trans (RunSetup.spares_judged judged)).excuses
  | whileTooDeep | loopTooDeep => exact fun _ => reached.excuses
  | whileLoop | loop => exact reached
  | @leaf a x t here running leaf evaluated =>
    have unlike' : ∀ task outcome u, a = .task task →
        p.watched.heard (p.watched.started (s.reaching top.next)
          (Stack.path parents ++ [top.next]) top.next a)
          (p.watched.performer.perform task (s.reaching top.next).world) = (u, some (.ok outcome)) →
        ¬ outcome.IsMereFailure := by
      rintro task outcome u rfl call merely
      have begun' : Stack.Begun ({ top with next := top.next + 1 } :: parents) :=
        Stack.begun_cons rfl begun
      have behind : Stack.path ({ top with next := top.next + 1 } :: parents) =
          Stack.path parents ++ [top.next] := Stack.path_behind rfl
      rw [← behind, ← RunSetup.begin_eq begun'] at call
      exact unlike _ _ _ _ (.mk here running call merely)
    have adds := evaluated.adds { top with next := top.next + 1 } parents leaf unlike'
    cases x with
    | done | jump target => exact reached.trans adds
    | ends ending => exact fun kept => reached.excuses.trans (adds kept)

/-- What is added up to a failure that is nothing more. -/
theorem RunSetup.Fails.adds {p : RunSetup ω} {stack : Stack} {s t : RunState (Watched ω)} {index : Nat}
    {task : Task} {error : String} (fails : p.watched.Fails stack s index task error t) :
    (∃ told, t.events.toList = s.events.toList ++ told ++ [.actionFailed index (.task task) error] ∧
      ∀ e ∈ told, e.ends .failed = false) ∧
    t.world = ⟨p.performer.after (.perform task) s.world.world,
      s.world.calls ++ [(.perform task, s.world.world)]⟩ ∧
    p.performer.FailsMerely (.perform task, s.world.world) ∧
    s.report.outcomes.toList <+: t.report.outcomes.toList := by
  cases fails with
  | @mk top parents s s' task outcome here running call merely =>
    obtain ⟨world, _⟩ := RunSetup.hears_heard call
    have result : (p.watched.performer.perform task s.world).result = .ok outcome :=
      RunSetup.heard_answer call
    have reached : s.Adds (s.reaching top.next) (fun e => e.ends .failed = false) (fun _ => True) :=
      .nothing rfl rfl rfl
    have begun : s.Adds (p.watched.begin (s.reaching top.next)
        ({ top with next := top.next + 1 } :: parents) top.next (.task task))
        (fun e => e.ends .failed = false) (fun _ => True) := reached.emit rfl
    have heard := begun.trans (RunSetup.adds_heard (k := (.perform task, s.world.world)) call rfl
      (fun _ => Event.unfailed_of_stopRequest) trivial)
    obtain ⟨told, events, unfailed⟩ := heard.events
    refine ⟨⟨told, ?_, unfailed⟩, world, ⟨task, outcome, rfl, result, merely⟩, heard.record.outcomes⟩
    rw [← events]
    exact Array.toList_push

/-! ### Whole runs -/

namespace RunState

/-- No leaf has failed so far, and the report is in line with that. -/
structure Unfailed (performer : Performer ω) (s : RunState (Watched ω)) : Prop where
  events : ∀ e ∈ s.events.toList, e.ends .failed = false
  calls : ∀ call ∈ s.world.calls, performer.fails call = false
  accounts : s.Accounts .done

variable {performer : Performer ω} {s t : RunState (Watched ω)}

theorem Unfailed.spares (unfailed : s.Unfailed performer) (spares : s.Spares performer t)
    (accounts : t.Accounts .done) : t.Unfailed performer := by
  obtain ⟨told, events, tells⟩ := spares.events
  obtain ⟨made, calls, makes⟩ := spares.calls
  refine ⟨?_, ?_, accounts⟩
  · intro e member
    rw [events] at member
    exact (List.mem_append.mp member).elim (unfailed.events e) (tells e)
  · intro call member
    rw [calls] at member
    exact (List.mem_append.mp member).elim (unfailed.calls call) (makes call)

theorem Unfailed.requestStops (unfailed : s.Unfailed performer) (n : Nat) :
    s.Spares performer (s.requestStops n) ∧ (s.requestStops n).Unfailed performer := by
  obtain ⟨requests, hears⟩ := s.hears_requestStops n
  have spares : s.Spares performer (s.requestStops n) :=
    .hears hears (fun _ => Event.unfailed_of_stopRequest) ⟨[], by simp [requestStops_world]⟩
  exact ⟨spares, unfailed.spares spares (unfailed.accounts.hears hears)⟩

end RunState

/-- The first task that failed did nothing more than fail: it could be run, and it did not ask for the
end of the run. A `fail` that comes first leaves no task behind it. -/
def Progress.FailsMerely (performer : Performer ω) (progress : Progress (Watched ω)) : Prop :=
  ∃ call, progress.state.world.calls.find? performer.fails = some call ∧ performer.FailsMerely call

/-- The first state is what the second one was when it told of its first failed leaf. -/
structure RunState.Cuts (performer : Performer ω) (index : Nat) (task : Task) (error : String)
    (t lax : RunState (Watched ω)) : Prop where
  events : ∃ told, t.events.toList = told ++ [.actionFailed index (.task task) error] ∧
    ∀ e ∈ told, e.ends .failed = false
  shown : t.events.toList <+: lax.events.toList
  calls : ∃ before world, t.world.calls = before ++ [(.perform task, world)] ∧
    t.world.world = performer.after (.perform task) world ∧
    lax.world.calls.find? performer.fails = some (.perform task, world) ∧
    performer.FailsMerely (.perform task, world)
  made : t.world.calls <+: lax.world.calls
  outcomes : t.report.outcomes.toList <+: lax.report.outcomes.toList
  failed : t.report.failed = 1

namespace RunSetup

section Going

variable {p : RunSetup ω} {asks : RunState ω → Nat} {n : Nat} {stack rest : Stack} {s t : RunState ω}
  {ending : Ending}

theorem going_more (step : p.step stack (s.requestStops (asks s)) = .more rest t) :
    p.going asks (n + 1) stack s = p.going asks n rest t := by
  rw [going, step]

theorem going_over (step : p.step stack (s.requestStops (asks s)) = .over ending t) :
    p.going asks (n + 1) stack s = .over ending t := by
  rw [going, step]

end Going

variable {p : RunSetup ω} {asks : RunState (Watched ω) → Nat} {n : Nat} {stack : Stack}
  {s : RunState (Watched ω)}

theorem Agrees.adds (agrees : p.watched.Agrees stack s) (begun : Stack.Begun stack.tail) :
    (p.watched.step stack s).Leaves (fun _ t => s.Spares p.performer t) fun ending t =>
      ending ≠ .abandoned → s.Excuses p.performer t := by
  cases stack with
  | nil => exact fun _ => .nothing rfl rfl rfl
  | cons top parents => exact (step_moves begun).adds begun agrees.2

/-- A run that is not abandoned only adds to what there is. -/
theorem going_extends (goesOn : p.options.stopOnFailure = false) (begun : Stack.Begun stack.tail)
    (kept : ∀ t, p.watched.going asks n stack s ≠ .over .abandoned t) :
    s.Adds (p.watched.going asks n stack s).state (fun _ => True) (fun _ => True) := by
  induction n generalizing stack s with
  | zero => exact .nothing rfl rfl rfl
  | succ n ih =>
    have asked : s.Adds (s.requestStops (asks s)) (fun _ => True) (fun _ => True) := by
      obtain ⟨requests, hears⟩ := s.hears_requestStops (asks s)
      exact .hears hears (fun _ _ => trivial) ⟨[], by simp [RunState.requestStops_world]⟩
    rcases agrees_or_parts (p := p.watched) goesOn stack (s.requestStops (asks s)) with
      agrees | ⟨index, task, error, rest, t, fails, step, _⟩
    · have adds := agrees.adds begun
      rcases step : p.watched.step stack (s.requestStops (asks s)) with ⟨rest, t⟩ | ⟨ending, t⟩
      · rw [step] at adds
        rw [going_more step] at kept ⊢
        exact (asked.trans (adds.mono (fun _ _ => trivial) fun _ _ => trivial)).trans
          (ih (step_tail begun step) kept)
      · rw [step] at adds
        rw [going_over step] at kept ⊢
        have adds := adds fun same => kept t (by rw [same])
        exact asked.trans (adds.mono (fun _ _ => trivial) fun _ _ => trivial)
    · obtain ⟨⟨told, events, _⟩, world, _, outcomes⟩ := fails.adds
      rw [going_more step] at kept ⊢
      have adds : (s.requestStops (asks s)).Adds t (fun _ => True) (fun _ => True) :=
        ⟨⟨told ++ [.actionFailed index (.task task) error], by rw [events, List.append_assoc],
          fun _ _ => trivial⟩, ⟨_, by rw [world], fun _ _ => trivial⟩, outcomes⟩
      exact (asked.trans adds).trans (ih (step_tail begun step) kept)

/-- At a failure that is nothing more, and is the first one, the run is cut. -/
theorem Fails.cuts {index : Nat} {task : Task} {error : String} {t lax : RunState (Watched ω)}
    (fails : p.watched.Fails stack s index task error t) (unfailed : s.Unfailed p.performer)
    (accounts : t.Accounts .done) (later : t.Adds lax (fun _ => True) (fun _ => True)) :
    t.Cuts p.performer index task error lax := by
  obtain ⟨⟨told, events, quiet⟩, world, merely, _⟩ := fails.adds
  obtain ⟨told', events', _⟩ := later.events
  obtain ⟨made', calls', _⟩ := later.calls
  have calls : t.world.calls = s.world.calls ++ [(.perform task, s.world.world)] := by rw [world]
  have earlier : ∀ e ∈ s.events.toList ++ told, e.ends .failed = false := by
    intro e member
    exact (List.mem_append.mp member).elim (unfailed.events e) (quiet e)
  refine ⟨⟨_, events, earlier⟩, ⟨told', events'.symm⟩, ⟨_, _, calls, by rw [world], ?_, merely⟩,
    ⟨made', calls'.symm⟩, later.outcomes, ?_⟩
  · have none_before : s.world.calls.find? p.performer.fails = none := by
      simpa using unfailed.calls
    rw [calls', calls, List.find?_append, List.find?_append, none_before]
    simp [merely.fails]
  · have counts : t.report.failed = t.events.toList.countP (Event.ends .failed) :=
      accounts.tallies.counts .failed
    have before : (s.events.toList ++ told).countP (Event.ends .failed) = 0 := by
      rw [List.countP_eq_zero]
      simpa using earlier
    rw [counts, events, List.countP_append, before]
    rfl

/-- A strict walk is the other walk, or what that was when it told of its first failed leaf. -/
theorem going_strict (goesOn : p.options.stopOnFailure = false) (begun : Stack.Begun stack.tail)
    (unfailed : s.Unfailed p.performer)
    (kept : ∀ t, p.watched.going asks n stack s ≠ .over .abandoned t) :
    (¬ (p.watched.going asks n stack s).FailsMerely p.performer →
      p.watched.strict.going asks n stack s = p.watched.going asks n stack s) ∧
    ((p.watched.going asks n stack s).FailsMerely p.performer → ∃ index task error t,
      p.watched.strict.going asks n stack s = .over (.fault (.failed index task.kind error)) t ∧
      t.Cuts p.performer index task error (p.watched.going asks n stack s).state) := by
  induction n generalizing stack s with
  | zero =>
    refine ⟨fun _ => rfl, fun ⟨call, found, _⟩ => ?_⟩
    have spared := unfailed.calls call (List.mem_of_find?_eq_some found)
    cases spared.symm.trans (List.find?_some found)
  | succ n ih =>
    obtain ⟨_, unfailed⟩ := unfailed.requestStops (asks s)
    have accounts := p.watched.keeps_accounts.leaves begun unfailed.accounts
    rcases agrees_or_parts (p := p.watched) goesOn stack (s.requestStops (asks s)) with
      agrees | ⟨index, task, error, rest, t, fails, step, broken⟩
    · have adds := agrees.adds begun
      rcases step : p.watched.step stack (s.requestStops (asks s)) with ⟨rest, t⟩ | ⟨ending, t⟩
      · rw [step] at adds accounts
        rw [going_more step] at kept ⊢
        rw [going_more (agrees.1.trans step)]
        exact ih (step_tail begun step) (unfailed.spares adds accounts) kept
      · rw [step] at adds
        rw [going_over step] at kept ⊢
        rw [going_over (agrees.1.trans step)]
        refine ⟨fun _ => rfl, fun ⟨call, found, merely⟩ => ?_⟩
        obtain ⟨made, calls, excused⟩ := (adds fun same => kept t (by rw [same])).calls
        have member := List.mem_of_find?_eq_some found
        have world : (Progress.over ending t).state.world.calls = t.world.calls := rfl
        rw [world, calls] at member
        rcases List.mem_append.mp member with before | last
        · cases (unfailed.calls call before).symm.trans merely.fails
        · exact absurd merely (excused call last)
    · rw [step] at accounts
      rw [going_more step] at kept ⊢
      have cuts := fails.cuts unfailed accounts (going_extends goesOn (step_tail begun step) kept)
      obtain ⟨_, world, _, _, found, merely⟩ := cuts.calls
      exact ⟨fun unlike => absurd ⟨_, found, merely⟩ unlike,
        fun _ => ⟨index, task, error, t, going_over broken, cuts⟩⟩

end RunSetup

namespace Engine

/-- The same engine, except that the first failure ends a run. -/
def strict (e : Engine) : Engine := { e with options := { e.options with stopOnFailure := true } }

end Engine

/-- The same record, of an engine for which the first failure ends a run. -/
def RunRecord.strict (record : RunRecord ω) : RunRecord ω :=
  { record with engine := record.engine.strict, paused := record.paused.map Engine.strict }

namespace Engine

theorem close_strict (e : Engine) (ended : Ending × RunState ω) :
    e.strict.close ended = (e.close ended).strict := by
  obtain ⟨ending, s⟩ := ended
  have paused : s.paused.map (fun control => { e.strict with control }) =
      (s.paused.map fun control => { e with control }).map strict := by
    cases s.paused <;> rfl
  cases ending <;> simp only [close, paused, RunRecord.strict] <;> rfl

theorem unfailed_opening (performer : Performer ω) (actions : List Action) (world : ω)
    (control : Control) : (opening actions (⟨world, []⟩ : Watched ω) control).Unfailed performer where
  events := by simp [opening, Event.ends, Event.leafEnd]
  calls := by simp [opening]
  accounts := accounts_opening actions _ control

/-- Take a run that goes on over failures, as far as it has come, and the run for which the first
failure is the end, with the same performer and the same requests to stop. Unless a task is the first
to fail and does nothing more, the two runs are the same, with all their events, calls and records.
Otherwise the second run is what the first was when it told of that failure, followed by the event of
a fault; its report counts one failed leaf. -/
theorem progress_strict {e : Engine} {performer : Performer ω} {actions : List Action} {world : ω}
    {atPause : AtPause} {asks : RunState (Watched ω) → Nat} {n : Nat} {lax : Progress (Watched ω)}
    (goesOn : e.options.stopOnFailure = false)
    (came : e.progress performer.watched actions ⟨world, []⟩ atPause asks n = some lax)
    (kept : ∀ t, lax ≠ .over .abandoned t) :
    ∃ strict, e.strict.progress performer.watched actions ⟨world, []⟩ atPause asks n = some strict ∧
      (¬ lax.FailsMerely performer →
        strict = lax ∧ e.strict.conclude strict = (e.conclude lax).map RunRecord.strict) ∧
      (lax.FailsMerely performer → ∃ index task error t record,
        strict = .over (.fault (.failed index task.kind error)) t ∧
        t.Cuts performer index task error lax.state ∧
        e.strict.conclude strict = some record ∧ record.world = t.world ∧
        record.events.toList = t.events.toList ++
          [.error (RunFault.failed index task.kind error).message t.report] ∧
        record.result = some (.fault (.failed index task.kind error) t.report)) := by
  obtain ⟨⟨run, control⟩, accepted, rfl⟩ := Option.map_eq_some_iff.mp came
  have accepted' : e.strict.control.accept = some (run, control) := accepted
  have came' : e.strict.progress performer.watched actions ⟨world, []⟩ atPause asks n =
      some ((e.setup performer actions run atPause).watched.strict.going asks n [.once actions]
        (opening actions ⟨world, []⟩ control)) := by
    rw [progress, accepted', Option.map_some]
    rfl
  obtain ⟨same, cut⟩ := RunSetup.going_strict (p := e.setup performer actions run atPause) goesOn
    (Stack.begun_once actions) (unfailed_opening performer actions world control) kept
  refine ⟨_, came', fun unlike => ⟨same unlike, ?_⟩, fun merely => ?_⟩
  · refine (congrArg e.strict.conclude (same unlike)).trans ?_
    rw [conclude, conclude, Option.map_map]
    exact Option.map_congr fun ended _ => e.close_strict ended
  · obtain ⟨index, task, error, t, broken, cuts⟩ := cut merely
    exact ⟨index, task, error, t, e.strict.close (.fault (.failed index task.kind error), t), broken,
      cuts, congrArg e.strict.conclude broken, rfl, Array.toList_push, rfl⟩

/-- A run that goes on after a failure is asked to stop before its next action. The strict run is
over at the failure. -/
theorem progress_strict_cut :
    ∃ (performer : Performer Unit) (lax : Progress (Watched Unit)) (record : RunRecord (Watched Unit))
      (f : RunFault) (report : Report),
      progress {} performer.watched [.task (.input "b"), .task (.input "a"), .skip none] ⟨(), []⟩ .goOn
        (fun s => s.report.failed) 4 = some lax ∧
      lax.state.report.stopped = true ∧ lax.state.events.size = 7 ∧
      (∃ strict, progress (Engine.strict {}) performer.watched
        [.task (.input "b"), .task (.input "a"), .skip none] ⟨(), []⟩ .goOn
        (fun s => s.report.failed) 4 = some strict ∧ conclude (Engine.strict {}) strict = some record) ∧
      record.result = some (.fault f report) ∧ report.failed = 1 ∧
      record.world.calls <+: lax.state.world.calls := by
  let performer : Performer Unit :=
    ⟨fun task _ => ⟨.ok (if task = .input "a" then .failed "locked" else .ok), (), []⟩,
      fun _ _ => ⟨true, (), []⟩⟩
  obtain ⟨lax, came, kept, stopped, told, merely⟩ : ∃ lax : Progress (Watched Unit),
      progress {} performer.watched [.task (.input "b"), .task (.input "a"), .skip none] ⟨(), []⟩ .goOn
        (fun s => s.report.failed) 4 = some lax ∧
      (∀ t, lax ≠ .over .abandoned t) ∧ lax.state.report.stopped = true ∧
      lax.state.events.size = 7 ∧ lax.FailsMerely performer :=
    ⟨_, rfl, nofun, rfl, rfl, _, rfl, .input "a", .failed "locked", rfl, rfl, rfl, rfl⟩
  obtain ⟨strict, came', _, cut⟩ := progress_strict rfl came kept
  obtain ⟨_, _, _, t, record, _, cuts, concluded, world, _, result⟩ := cut merely
  exact ⟨performer, lax, record, _, t.report, came, stopped, told, ⟨strict, came', concluded⟩, result,
    cuts.failed, world ▸ cuts.made⟩

end Engine

end Screenplay
