import Screenplay.Proofs.Reaching

/-!
What one step of the walk asks for and tells. A step makes at most one call. While the call is in
flight nothing is told but requests to stop; then the call's own event is told, and after it the step
only remarks on what became of the run (`Moves.notes`). A step that ends the run has a reason to
(`Moves.concludes`).
-/
namespace Screenplay

variable {ω ω' : Type}

/-- What a run asks of its performer. -/
inductive Call where
  | perform (task : Task)
  | judge (condition : Condition)
  deriving DecidableEq, Repr

/-- The world that a call leaves behind. -/
def Performer.after (performer : Performer ω) : Call → ω → ω
  | .perform task, world => (performer.perform task world).world
  | .judge condition, world => (performer.judge condition world).world

theorem Reply.result_counted {α : Type} (r : Reply ω α) (call : Nat) (interrupt : Option Nat) :
    (r.counted call interrupt).result = r.result := by
  rw [counted]
  split <;> rfl

theorem Performer.after_interrupted (performer : Performer ω) (interrupt : Option Nat) (call : Call)
    (world : Nat × ω) :
    (performer.interrupted interrupt).after call world = (world.1 + 1, performer.after call world.2) := by
  cases call <;> simp only [after, interrupted, Reply.counted] <;> split <;> rfl

/-- The call that a sequence comes to next. -/
inductive OpenSequence.Asks (q : OpenSequence) : Call → Prop where
  | task {task} (here : q.actions[q.next]? = some (.task task)) : Asks q (.perform task)
  | branch {condition thenActions elseActions}
    (here : q.actions[q.next]? = some (.branch (some condition) thenActions elseActions)) :
    Asks q (.judge condition)
  | pass {condition most made} (kind : q.passes = .whileHolds (some condition) most made) :
    Asks q (.judge condition)

/-! ### Events around a call -/

/-- The task whose leaf begins. -/
def Event.startedTask : Event → Option Task
  | .actionStart _ (.task task) _ _ => some task
  | _ => none

/-- The condition that was judged. -/
def Event.judged : Event → Option Condition
  | .conditionEvaluated _ condition _ => condition
  | _ => none

def Event.isStopRequest : Event → Bool
  | .stopRequested _ => true
  | _ => false

/-- The event tells of no leaf, of no judgement and of no request. -/
def Event.isRemark : Event → Bool
  | .loopIteration .. | .terminated .. | .stopped _ | .complete _ | .error .. => true
  | _ => false

theorem Event.unasked_of_remark {e : Event} (remark : e.isRemark = true) :
    e.isStopRequest = false := by
  cases e <;> simp_all [isRemark, isStopRequest]

theorem Event.taskless_of_remark {e : Event} (remark : e.isRemark = true) : e.startedTask = none := by
  cases e <;> simp_all [isRemark, startedTask]

theorem Event.unjudged_of_remark {e : Event} (remark : e.isRemark = true) : e.judged = none := by
  cases e <;> simp_all [isRemark, judged]

/-- What the last event of a leaf tells. -/
structure LeafEnd where
  index : Nat
  /-- The tag of the leaf. -/
  action : String
  status : ActionStatus
  error : Option String
  deriving DecidableEq, Repr

def Event.leafEnd : Event → Option LeafEnd
  | .actionComplete index a => some ⟨index, a.kind, .completed, none⟩
  | .actionFailed index a failure => some ⟨index, a.kind, .failed, some failure⟩
  | .actionSkipped index a _ => some ⟨index, a.kind, .skipped, none⟩
  | _ => none

/-- What is told before a call is made. -/
inductive Call.Opens : Call → List Event → Prop where
  | perform {task} (index reached total : Nat) :
    Opens (.perform task) [.actionStart index (.task task) reached total]
  | judge {condition} : Opens (.judge condition) []

/-- The event tells how a call went. -/
inductive Call.Answers : Call → Event → Prop where
  | complete {task} (index : Nat) : Answers (.perform task) (.actionComplete index (.task task))
  | failed {task} (index : Nat) (error : String) :
    Answers (.perform task) (.actionFailed index (.task task) error)
  | judged {condition} (owner : ControlKind) (result : Bool) :
    Answers (.judge condition) (.conditionEvaluated owner (some condition) result)

/-! ### Requests that are heard -/

namespace RunState

/-- Between the two states nothing happens but these requests to stop. Each of them reaches the run
that is in flight. -/
structure Hears (s s' : RunState ω) (requests : List Event) : Prop where
  events : s'.events.toList = s.events.toList ++ requests
  requested : ∀ e ∈ requests, e.isStopRequest = true
  report : s'.report = s.report
  active : s'.control.active = s.control.active
  heeded : requests ≠ [] → ∀ run, s.control.active = some run → s'.control.isCancelled run = true
  kept : ∀ run, s.control.isCancelled run = true → s'.control.isCancelled run = true

variable {s s' s'' : RunState ω}

theorem Hears.nothing : s.Hears s [] where
  events := (List.append_nil _).symm
  requested := by simp
  report := rfl
  active := rfl
  heeded := fun some => absurd rfl some
  kept := fun _ cancelled => cancelled

theorem Hears.trans {first later : List Event} (hears : s.Hears s' first)
    (hears' : s'.Hears s'' later) : s.Hears s'' (first ++ later) where
  events := by rw [hears'.events, hears.events, List.append_assoc]
  requested := by
    intro e member
    rcases List.mem_append.mp member with early | late
    · exact hears.requested e early
    · exact hears'.requested e late
  report := hears'.report.trans hears.report
  active := hears'.active.trans hears.active
  heeded := by
    intro some run active
    by_cases none : first = []
    · subst none
      exact hears'.heeded some run (hears.active.trans active)
    · exact hears'.kept run (hears.heeded none run active)
  kept := fun run cancelled => hears'.kept run (hears.kept run cancelled)

theorem hears_requestStop (s : RunState ω) : ∃ requests, s.Hears s.requestStop requests := by
  rcases flight : s.control.active with _ | run
  · refine ⟨[], ?_⟩
    simp only [requestStop, Control.requestStop, flight]
    exact .nothing
  · refine ⟨[.stopRequested s.control.current], ?_⟩
    simp only [requestStop, Control.requestStop, flight]
    constructor
    · simp [emit]
    · simp [Event.isStopRequest]
    · rfl
    · exact flight.symm
    · intro _ run' active
      cases flight.symm.trans active
      simp [emit, Control.isCancelled]
    · intro run' cancelled
      simp only [Control.isCancelled, List.contains_eq_mem, decide_eq_true_eq] at cancelled ⊢
      exact List.mem_cons_of_mem run cancelled

theorem hears_hear (s : RunState ω) (atPause : AtPause) (signals : List (Signal ω)) :
    ∃ requests, s.Hears (s.hear atPause signals).1 requests := by
  induction signals generalizing s with
  | nil => exact ⟨[], .nothing⟩
  | cons signal rest ih =>
    -- a request in front of the rest
    have asked (t : RunState ω) : ∃ requests, t.Hears (t.requestStop.hear atPause rest).1 requests := by
      obtain ⟨first, hears⟩ := hears_requestStop t
      obtain ⟨later, hears'⟩ := ih t.requestStop
      exact ⟨first ++ later, hears.trans hears'⟩
    cases signal with
    | stop => exact asked s
    | crash world => exact ⟨[], .nothing⟩
    | pause world =>
      rw [hear]
      split
      · exact ih s
      -- that the caller had a look changes nothing that is told
      have looked : s.Hears { s with paused := some s.control } [] := { Hears.nothing (s := s) with }
      cases atPause with
      | goOn =>
        obtain ⟨later, hears⟩ := ih { s with paused := some s.control }
        exact ⟨[] ++ later, looked.trans hears⟩
      | stop =>
        obtain ⟨later, hears⟩ := asked { s with paused := some s.control }
        exact ⟨[] ++ later, looked.trans hears⟩
      | abandon => exact ⟨[], looked⟩

end RunState

/-! ### What a step notes -/

/-- What happens between two states: nothing is asked for, or one call is made and answered. -/
inductive Notes (p : RunSetup ω) (top : OpenSequence) (s s' : RunState ω) : Prop where
  | quiet {told : List Event} (world : s'.world = s.world)
    (active : s'.control.active = s.control.active)
    (events : s'.events.toList = s.events.toList ++ told)
    (unasked : ∀ e ∈ told, e.isStopRequest = false)
    (taskless : told.filterMap Event.startedTask = [])
    (unjudged : ∀ e ∈ told, e.judged = none)
  | call {call : Call} {opening requests later : List Event} {own : Event}
    (asks : top.Asks call) (world : s'.world = p.performer.after call s.world)
    (active : s'.control.active = s.control.active)
    (events : s'.events.toList = s.events.toList ++ (opening ++ requests ++ own :: later))
    (opens : call.Opens opening) (requested : ∀ e ∈ requests, e.isStopRequest = true)
    (heeded : requests ≠ [] →
      ∀ run, s.control.active = some run → s'.control.isCancelled run = true)
    (answers : call.Answers own) (remarks : ∀ e ∈ later, e.isRemark = true)

namespace Notes

variable {p : RunSetup ω} {top : OpenSequence} {s s' s'' : RunState ω}

theorem nothing : Notes p top s s :=
  .quiet rfl rfl (List.append_nil _).symm (by simp) rfl (by simp)

/-- That an action is reached is not told. -/
theorem of_reaching {index : Nat} (notes : Notes p top (s.reaching index) s') : Notes p top s s' := by
  cases notes with
  | quiet world active events unasked taskless unjudged =>
    exact .quiet world active events unasked taskless unjudged
  | call asks world active events opens requested heeded answers remarks =>
    exact .call asks world active events opens requested heeded answers remarks

/-- A remark after all else. -/
theorem remark {e : Event} (notes : Notes p top s s') (remark : e.isRemark = true)
    (world : s''.world = s'.world) (control : s''.control = s'.control)
    (told : s''.events = s'.events.push e) : Notes p top s s'' := by
  have events : s''.events.toList = s'.events.toList ++ [e] := by rw [told, Array.toList_push]
  cases notes with
  | @quiet before sameWorld active before_events unasked taskless unjudged =>
    have all : s''.events.toList = s.events.toList ++ (before ++ [e]) := by
      rw [events, before_events, List.append_assoc]
    refine .quiet (world.trans sameWorld) (by rw [control, active]) all ?_ ?_ ?_
    · intro e' member
      rcases List.mem_append.mp member with early | late
      · exact unasked e' early
      · rw [List.mem_singleton.mp late]
        exact Event.unasked_of_remark remark
    · rw [List.filterMap_append, taskless,
        List.filterMap_cons_none (Event.taskless_of_remark remark)]
      rfl
    · intro e' member
      rcases List.mem_append.mp member with early | late
      · exact unjudged e' early
      · rw [List.mem_singleton.mp late]
        exact Event.unjudged_of_remark remark
  | @call call opening requests later own asks after active before opens requested heeded answers
      remarks =>
    have all : s''.events.toList =
        s.events.toList ++ (opening ++ requests ++ own :: (later ++ [e])) := by
      simp [events, before]
    refine .call asks (world.trans after) (by rw [control, active]) all opens requested
      (by rw [control]; exact heeded) answers ?_
    intro e' member
    rcases List.mem_append.mp member with early | late
    · exact remarks e' early
    · rw [List.mem_singleton.mp late]
      exact remark

end Notes

namespace RunSetup

variable {p : RunSetup ω} {top : OpenSequence} {parents : Stack} {s s' s'' : RunState ω}

theorem hears_heard {α : Type} {reply : Reply ω α} {answer : α}
    (heard : p.heard s reply = (s', some answer)) :
    s'.world = reply.world ∧ ∃ requests, s.Hears s' requests := by
  obtain ⟨requests, hears⟩ := RunState.hears_hear s p.atPause reply.signals
  rw [RunSetup.heard] at heard
  split at heard
  next => cases heard
  next t split =>
    cases heard
    rw [split] at hears
    exact ⟨rfl, requests, { hears with }⟩

/-- A judgement is a call, unless there is nothing to judge. -/
theorem notes_judged {owner : ControlKind} {condition : Option Condition} {result : Bool}
    (asks : ∀ c, condition = some c → top.Asks (.judge c))
    (judged : p.judged s owner condition = (s', some result)) : Notes p top s s' := by
  cases condition with
  | none =>
    cases judged
    have events : (s.emit (.conditionEvaluated owner none true)).events.toList =
        s.events.toList ++ [.conditionEvaluated owner none true] := Array.toList_push
    exact .quiet rfl rfl events (by simp [Event.isStopRequest]) rfl (by simp [Event.judged])
  | some c =>
    rw [RunSetup.judged] at judged
    split at judged
    next => cases judged
    next _ t result call =>
      cases judged
      obtain ⟨world, requests, hears⟩ := hears_heard call
      have events : (t.emit (.conditionEvaluated owner (some c) result)).events.toList =
          s.events.toList ++ ([] ++ requests ++ [.conditionEvaluated owner (some c) result]) := by
        simp [RunState.emit, hears.events]
      exact .call (asks c rfl) world hears.active events .judge hears.requested hears.heeded
        (.judged owner result) (by simp)

/-- What becomes of the run when a task was answered. The end of its leaf is recorded and told; then
the run goes on, breaks off or is terminated. -/
inductive Settles (s : RunState ω) (path : List Nat) (index : Nat) (task : Task) :
    Exit → RunState ω → Prop where
  | goesOn {status error own x} (answers : (Call.perform task).Answers own)
    (tells : own.leafEnd = some ⟨index, task.kind, status, error⟩) (on : (x.next index).isSome) :
    Settles s path index task x ((s.record path (.task task) status error).emit own)
  | breaksOff {status error own} (answers : (Call.perform task).Answers own)
    (tells : own.leafEnd = some ⟨index, task.kind, status, error⟩) (f : RunFault) :
    Settles s path index task (.ends (.fault f))
      ((s.record path (.task task) status error).emit own)
  | terminated {status error own} (answers : (Call.perform task).Answers own)
    (tells : own.leafEnd = some ⟨index, task.kind, status, error⟩) (reason : String) :
    Settles s path index task (.ends .terminated)
      (((s.record path (.task task) status error).emit own).terminate index reason)

theorem answered_settles {path : List Nat} {index : Nat} {task : Task} {x : Exit}
    {answer : Except String Outcome} (answered : p.answered s path index task answer = (x, s')) :
    Settles s path index task x s' := by
  cases answer with
  | error error =>
    cases answered
    exact .breaksOff (.failed index error) rfl _
  | ok outcome =>
    obtain ⟨status, error, own, answers, tells, closed⟩ : ∃ status error own,
        (Call.perform task).Answers own ∧ own.leafEnd = some ⟨index, task.kind, status, error⟩ ∧
        (if outcome.success then
          (s.record path (.task task) .completed none).emit (.actionComplete index (.task task))
        else
          (s.record path (.task task) .failed (some (outcome.error.getD defaultFailure))).emit
            (.actionFailed index (.task task) (outcome.error.getD defaultFailure))) =
          (s.record path (.task task) status error).emit own := by
      cases outcome.success with
      | true => exact ⟨_, _, _, .complete index, rfl, rfl⟩
      | false => exact ⟨_, _, _, .failed index _, rfl, rfl⟩
    simp only [RunSetup.answered, closed] at answered
    split at answered
    · cases answered
      exact .terminated answers tells _
    split at answered
    · cases answered
      exact .breaksOff answers tells _
    split at answered
    · cases answered
      exact .goesOn answers tells rfl
    · cases answered
      exact .goesOn answers tells rfl

/-- A task is a call between the beginning of its leaf and its end. -/
theorem notes_task {path : List Nat} {index : Nat} {task : Task} {answer : Except String Outcome}
    {x : Exit} (asks : top.Asks (.perform task))
    (call : p.heard (p.started s path index (.task task)) (p.performer.perform task s.world) =
      (s', some answer))
    (outcome : p.answered s' path index task answer = (x, s'')) : Notes p top s s'' := by
  obtain ⟨world, requests, hears⟩ := hears_heard call
  have events : s'.events.toList = s.events.toList ++
      ([.actionStart index (.task task) (path.headD 0 + 1) p.total] ++ requests) := by
    rw [hears.events]
    simp [started, RunState.emit]
  have closed {status : ActionStatus} {error : Option String} {own : Event}
      (answers : (Call.perform task).Answers own) :
      Notes p top s ((s'.record path (.task task) status error).emit own) := by
    have all : ((s'.record path (.task task) status error).emit own).events.toList =
        s.events.toList ++
          ([.actionStart index (.task task) (path.headD 0 + 1) p.total] ++ requests ++ [own]) := by
      simp [RunState.emit, RunState.record, events]
    exact .call asks world hears.active all (.perform index (path.headD 0 + 1) p.total)
      hears.requested hears.heeded answers (by simp)
  cases answered_settles outcome with
  | goesOn answers => exact closed answers
  | breaksOff answers => exact closed answers
  | terminated answers tells reason => exact (closed answers).remark rfl rfl rfl rfl

end RunSetup

/-- A leaf that the engine runs itself asks for nothing. -/
theorem RunSetup.notes_closed {p : RunSetup ω} {top : OpenSequence} {s : RunState ω}
    {path : List Nat} {index : Nat} {a : Action} {status : ActionStatus} {error : Option String}
    {own : Event} (taskless : ∀ task, a ≠ .task task) (closes : own.leafEnd.isSome) :
    Notes p top s (((p.started s path index a).record path a status error).emit own) := by
  have opening : (Event.actionStart index a (path.headD 0 + 1) p.total).startedTask = none := by
    cases a with
    | task task => exact absurd rfl (taskless task)
    | branch | repeatWhile | loop | skip | fail | test => rfl
  have closing : own.startedTask = none ∧ own.isStopRequest = false ∧ own.judged = none := by
    cases own <;> simp_all [Event.leafEnd, Event.startedTask, Event.isStopRequest, Event.judged]
  have events : (((p.started s path index a).record path a status error).emit own).events.toList =
      s.events.toList ++ [.actionStart index a (path.headD 0 + 1) p.total, own] := by
    simp [RunSetup.started, RunState.emit, RunState.record]
  refine .quiet rfl rfl events ?_ ?_ ?_
  · intro e member
    simp only [List.mem_cons, List.not_mem_nil, or_false] at member
    rcases member with rfl | rfl
    · rfl
    · exact closing.2.1
  · rw [List.filterMap_cons_none opening, List.filterMap_cons_none closing.1]
    rfl
  · intro e member
    simp only [List.mem_cons, List.not_mem_nil, or_false] at member
    rcases member with rfl | rfl
    · rfl
    · exact closing.2.2

theorem Progress.state_leave (top : OpenSequence) (parents : Stack) (x : Exit) (s : RunState ω) :
    (Progress.leave top parents x s).state = s := by
  cases x <;> rfl

/-- What a leaf notes, unless the run is let go meanwhile. -/
theorem Evaluates.notes {p : RunSetup ω} {top : OpenSequence} {place : List Nat} {a : Action}
    {s s' : RunState ω} {x : Exit} (here : top.actions[top.next]? = some a)
    (leaf : a.isControl = false) (evaluated : Evaluates p (.action place top.next a) s x s') :
    x = .ends .abandoned ∨ Notes p top s s' := by
  cases evaluated with
  | skip | test => exact .inr (RunSetup.notes_closed (by simp) rfl)
  | fail => exact .inr ((RunSetup.notes_closed (by simp) rfl).remark rfl rfl rfl rfl)
  | taskAbandoned => exact .inl rfl
  | task call outcome => exact .inr (RunSetup.notes_task (.task here) call outcome)
  | branchAbandoned | branchNone | branchTooDeep | branch => simp [Action.isControl] at leaf
  | whileTooDeep | whileLoop | loopTooDeep | loop => simp [Action.isControl] at leaf

/-- What a step notes, unless the run is let go meanwhile. -/
theorem Moves.notes {p : RunSetup ω} {top : OpenSequence} {parents : Stack} {s : RunState ω}
    {after : Progress ω} (moves : Moves p top parents s after) :
    (∃ t, after = .over .abandoned t) ∨ Notes p top s after.state := by
  cases moves with
  | stoppedBetween | stopped => exact .inr (Notes.nothing.remark rfl rfl rfl rfl)
  | once | countedEnough | whileEnough => exact .inr .nothing
  | countedPass => exact .inr (Notes.nothing.remark rfl rfl rfl rfl)
  | whileAbandoned | branchAbandoned => exact .inl ⟨_, rfl⟩
  | whileFalse behind running kind more judged =>
    refine .inr (RunSetup.notes_judged ?_ judged)
    rintro c rfl
    exact .pass kind
  | whilePass behind running kind more judged =>
    refine .inr (Notes.remark (RunSetup.notes_judged ?_ judged) rfl rfl rfl rfl)
    rintro c rfl
    exact .pass kind
  | branchNone here running judged | branchTooDeep here running judged
  | branch here running judged =>
    refine .inr (Notes.of_reaching (RunSetup.notes_judged ?_ judged))
    rintro c rfl
    exact .branch here
  | whileTooDeep | whileLoop | loopTooDeep | loop => exact .inr (Notes.of_reaching .nothing)
  | @leaf a x s' here running leaf evaluated =>
    rcases evaluated.notes here leaf with rfl | notes
    · exact .inl ⟨s', rfl⟩
    · rw [Progress.state_leave]
      exact .inr notes.of_reaching

/-! ### How a step ends the run -/

/-- What happens during a call. -/
def Performer.signals (performer : Performer ω) : Call → ω → List (Signal ω)
  | .perform task, world => (performer.perform task world).signals
  | .judge condition, world => (performer.judge condition world).signals

/-- The worlds that are seen during a call: at its pauses, and where it crashes. -/
def Performer.seen (performer : Performer ω) (call : Call) (world : ω) : List ω :=
  (performer.signals call world).filterMap Signal.world?

theorem Signal.world?_mapWorld (f : ω → ω') (signal : Signal ω) :
    (signal.mapWorld f).world? = signal.world?.map f := by
  cases signal <;> rfl

/-- What is seen of a larger world is what is seen of the world in it. -/
theorem Reply.seen_mapWorld {α : Type} (f : ω → ω') (r : Reply ω α) :
    (r.mapWorld f).signals.filterMap Signal.world? = (r.signals.filterMap Signal.world?).map f := by
  rw [mapWorld, List.filterMap_map, List.map_filterMap]
  congr 1
  funext signal
  exact signal.world?_mapWorld f

/-- Requests to stop do not show the world. -/
theorem Performer.seen_interrupted (performer : Performer ω) (interrupt : Option Nat) (call : Call)
    (world : Nat × ω) : (performer.interrupted interrupt).seen call world =
      (performer.seen call world.2).map fun seen => (world.1 + 1, seen) := by
  have counted {α : Type} (r : Reply ω α) : (r.counted world.1 interrupt).signals.filterMap Signal.world? =
      (r.signals.filterMap Signal.world?).map fun seen => (world.1 + 1, seen) := by
    rw [← Reply.seen_mapWorld, Reply.counted]
    split
    · rw [List.filterMap_append]
      exact List.append_nil _
    · rfl
  cases call <;> exact counted _

theorem RunState.hear_abandoned {s t : RunState ω} {atPause : AtPause} {signals : List (Signal ω)}
    {world : ω} (abandoned : s.hear atPause signals = (t, some world)) :
    world ∈ signals.filterMap Signal.world? := by
  induction signals generalizing s with
  | nil => cases abandoned
  | cons signal rest ih =>
    cases signal with
    | stop => exact ih abandoned
    | crash seen =>
      cases abandoned
      exact List.mem_cons_self
    | pause seen =>
      rw [hear] at abandoned
      split at abandoned
      · exact List.mem_cons_of_mem _ (ih abandoned)
      cases atPause with
      | goOn => exact List.mem_cons_of_mem _ (ih abandoned)
      | stop => exact List.mem_cons_of_mem _ (ih abandoned)
      | abandon =>
        cases abandoned
        exact List.mem_cons_self

theorem RunSetup.heard_abandoned {α : Type} {p : RunSetup ω} {s t : RunState ω} {reply : Reply ω α}
    (abandoned : p.heard s reply = (t, none)) : t.world ∈ reply.signals.filterMap Signal.world? := by
  rw [heard] at abandoned
  split at abandoned
  next hears =>
    cases abandoned
    exact RunState.hear_abandoned hears
  next => cases abandoned

theorem RunSetup.judged_abandoned {p : RunSetup ω} {top : OpenSequence} {s t : RunState ω}
    {owner : ControlKind} {condition : Option Condition}
    (asks : ∀ c, condition = some c → top.Asks (.judge c))
    (abandoned : p.judged s owner condition = (t, none)) :
    ∃ call, top.Asks call ∧ t.world ∈ p.performer.seen call s.world := by
  cases condition with
  | none => cases abandoned
  | some c =>
    rw [judged] at abandoned
    split at abandoned
    next call =>
      cases abandoned
      exact ⟨.judge c, asks c rfl, heard_abandoned call⟩
    next => cases abandoned

/-- Why a step breaks off the run. -/
inductive Breaks (p : RunSetup ω) (top : OpenSequence) (parents : Stack) (s : RunState ω) :
    RunFault → Prop where
  | raised {task error} (here : top.actions[top.next]? = some (.task task))
    (raises : (p.performer.perform task s.world).result = .error error) :
    Breaks p top parents s (.raised top.next task.kind error)
  | failed {task outcome} (here : top.actions[top.next]? = some (.task task))
    (fails : (p.performer.perform task s.world).result = .ok outcome)
    (failure : outcome.success = false) (stops : p.options.stopOnFailure = true) :
    Breaks p top parents s (.failed top.next task.kind (outcome.error.getD defaultFailure))
  | tooDeep {a} (here : top.actions[top.next]? = some a) (control : a.isControl = true)
    (deep : p.options.maxDepth.toNat ≤ parents.length + 1) :
    Breaks p top parents s (.tooDeep p.options.maxDepth)

/-- How a step ends the run. A run that is let go leaves the world behind as it was seen during the
call. -/
inductive Concludes (p : RunSetup ω) (top : OpenSequence) (parents : Stack) (s : RunState ω) :
    Ending → RunState ω → Prop where
  | stopped {index} : Concludes p top parents s .stopped (s.stop index)
  | terminated {t} : Concludes p top parents s .terminated t
  | abandoned {call t} (asks : top.Asks call)
    (during : t.world ∈ p.performer.seen call s.world) :
    Concludes p top parents s .abandoned t
  | broken {f t} (breaks : Breaks p top parents s f) : Concludes p top parents s (.fault f) t

theorem RunSetup.concludes_answered {p : RunSetup ω} {top : OpenSequence} {parents : Stack}
    {s s' t : RunState ω} {path : List Nat} {task : Task} {ending : Ending}
    (here : top.actions[top.next]? = some (.task task))
    (answered : p.answered s' path top.next task (p.performer.perform task s.world).result =
      (.ends ending, t)) :
    Concludes p top parents s ending t := by
  rcases result : (p.performer.perform task s.world).result with error | outcome
  · rw [result] at answered
    cases answered
    exact .broken (.raised here result)
  · rw [result] at answered
    simp only [RunSetup.answered] at answered
    split at answered
    · cases answered
      exact .terminated
    split at answered
    next stops =>
      cases answered
      simp only [Bool.and_eq_true, Bool.not_eq_true'] at stops
      exact .broken (.failed here result stops.1 stops.2)
    · split at answered <;> cases answered

/-- Every step that ends the run does so in one of these ways. -/
theorem Moves.concludes {p : RunSetup ω} {top : OpenSequence} {parents : Stack} {s t : RunState ω}
    {ending : Ending} (moves : Moves p top parents s (.over ending t)) :
    Concludes p top parents s ending t := by
  generalize ends : Progress.over ending t = after at moves
  have height (deep : ¬ p.Admits (Stack.path parents ++ [top.next])) :
      p.options.maxDepth.toNat ≤ parents.length + 1 := by
    simp only [RunSetup.Admits, List.length_append, Stack.length_path, List.length_cons,
      List.length_nil] at deep
    omega
  cases moves with
  | once | countedEnough | countedPass | whileEnough | whileFalse | whilePass => cases ends
  | branchNone | branch | whileLoop | loop => cases ends
  | stoppedBetween | stopped =>
    cases ends
    exact .stopped
  | whileAbandoned _ _ kind _ judged =>
    cases ends
    obtain ⟨call, asks, during⟩ :=
      RunSetup.judged_abandoned (fun c same => .pass (same ▸ kind)) judged
    exact .abandoned asks during
  | branchAbandoned here _ judged =>
    cases ends
    obtain ⟨call, asks, during⟩ :=
      RunSetup.judged_abandoned (fun c same => .branch (same ▸ here)) judged
    exact .abandoned asks during
  | branchTooDeep here _ _ _ deep | whileTooDeep here _ deep | loopTooDeep here _ deep =>
    cases ends
    exact .broken (.tooDeep here rfl (height deep))
  | @leaf a x s' here running leaf evaluated =>
    cases x with
    | done | jump => cases ends
    | ends e =>
      cases ends
      cases evaluated with
      | fail => exact .terminated
      | taskAbandoned call => exact .abandoned (.task here) (RunSetup.heard_abandoned call)
      | task call outcome =>
        rw [← RunSetup.heard_answer call] at outcome
        exact RunSetup.concludes_answered here outcome
      | branchAbandoned | branchTooDeep | branch => simp [Action.isControl] at leaf
      | whileTooDeep | whileLoop | loopTooDeep | loop => simp [Action.isControl] at leaf

end Screenplay
