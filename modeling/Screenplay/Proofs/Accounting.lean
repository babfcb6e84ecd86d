import Screenplay.Proofs.Watching

/-!
The report of a run adds up what the run told. Every step keeps the report in line with the events
(`Moves.accounts`), and every task that was begun with the calls of the performer (`Notes.performed`),
so the result of a run that ends can be read off its events (`Engine.execute_adds_up`).
-/
namespace Screenplay

variable {ω : Type}

/-! ### What is counted -/

namespace Event

/-- The event ends a leaf in this way. -/
def ends (status : ActionStatus) (e : Event) : Bool := e.leafEnd.any fun l => l.status == status

def isStopped : Event → Bool
  | stopped _ => true
  | _ => false

def terminationReason : Event → Option String
  | terminated _ reason => some reason
  | _ => none

/-- The report has nothing to say about the event. -/
def isAside : Event → Bool
  | start _ | conditionEvaluated .. | loopIteration .. | stopRequested _ | complete _ | error .. => true
  | _ => false

theorem isAside_of_stopRequest {e : Event} (request : e.isStopRequest = true) : e.isAside = true := by
  cases e <;> simp_all [isStopRequest, isAside]

end Event

/-- What a record says of the end of its leaf. -/
def ActionRecord.leafEnd (r : ActionRecord) : LeafEnd := ⟨ownerOf r.path, r.action, r.status, r.error⟩

namespace Report

/-- The number of leaves that ended in this way. -/
def count (r : Report) : ActionStatus → Nat
  | .completed => r.completed
  | .failed => r.failed
  | .skipped => r.skipped

/-- The report is in line with the events, except for leaves that are in flight. -/
structure Tallies (r : Report) (inFlight : Nat) (events : List Event) : Prop where
  counts : ∀ status, r.count status = events.countP (Event.ends status)
  begun : events.countP Event.isActionStart = r.visited + inFlight
  recorded : r.outcomes.size = r.visited
  outcomes : r.outcomes.toList.map ActionRecord.leafEnd = events.filterMap Event.leafEnd
  stopped : r.stopped = events.any Event.isStopped
  reason : r.terminationReason.toList = events.filterMap Event.terminationReason

variable {r : Report} {n : Nat} {events : List Event}

theorem Tallies.aside {e : Event} (tallies : r.Tallies n events) (aside : e.isAside = true) :
    r.Tallies n (events ++ [e]) := by
  obtain ⟨counts, begun, recorded, outcomes, stopped, reason⟩ := tallies
  have other : e.leafEnd = none ∧ e.isActionStart = false ∧ e.isStopped = false ∧
      e.terminationReason = none := by
    cases e <;> simp_all [Event.isAside, Event.leafEnd, Event.isActionStart, Event.isStopped,
      Event.terminationReason]
  obtain ⟨noEnd, noStart, noStop, noReason⟩ := other
  constructor
  · intro status
    simp [counts, Event.ends, noEnd]
  · simp [begun, noStart]
  · exact recorded
  · simp [outcomes, noEnd]
  · simp [stopped, noStop]
  · simp [reason, noReason]

theorem Tallies.asides {told : List Event} (tallies : r.Tallies n events)
    (aside : ∀ e ∈ told, e.isAside = true) : r.Tallies n (events ++ told) := by
  induction told generalizing events with
  | nil =>
    rw [List.append_nil]
    exact tallies
  | cons e rest ih =>
    have first : r.Tallies n (events ++ [e]) := tallies.aside (aside e List.mem_cons_self)
    have later := ih first fun e' member => aside e' (List.mem_cons_of_mem e member)
    rw [List.append_assoc] at later
    exact later

theorem Tallies.begin {index reached total : Nat} {a : Action} (tallies : r.Tallies n events) :
    r.Tallies (n + 1) (events ++ [.actionStart index a reached total]) := by
  obtain ⟨counts, begun, recorded, outcomes, stopped, reason⟩ := tallies
  constructor
  · intro status
    simp [counts, Event.ends, Event.leafEnd]
  · simp [begun, Event.isActionStart, Nat.add_assoc]
  · exact recorded
  · simp [outcomes, Event.leafEnd]
  · simp [stopped, Event.isStopped]
  · simp [reason, Event.terminationReason]

theorem visited_record (path : List Nat) (action : String) (status : ActionStatus)
    (error : Option String) : (r.record path action status error).visited = r.visited + 1 := by
  cases status <;> simp only [record, visited] <;> omega

theorem count_record (path : List Nat) (action : String) (status status' : ActionStatus)
    (error : Option String) :
    (r.record path action status error).count status' =
      r.count status' + if status = status' then 1 else 0 := by
  cases status <;> cases status' <;> simp [record, count]

theorem outcomes_record (path : List Nat) (action : String) (status : ActionStatus)
    (error : Option String) :
    (r.record path action status error).outcomes =
      r.outcomes.push { path, action, status, error } := by
  cases status <;> rfl

theorem stopped_record (path : List Nat) (action : String) (status : ActionStatus)
    (error : Option String) : (r.record path action status error).stopped = r.stopped := by
  cases status <;> rfl

theorem terminationReason_record (path : List Nat) (action : String) (status : ActionStatus)
    (error : Option String) :
    (r.record path action status error).terminationReason = r.terminationReason := by
  cases status <;> rfl

/-- A leaf that was in flight is recorded as its last event tells. -/
theorem Tallies.record {path : List Nat} {action : String} {status : ActionStatus}
    {error : Option String} {own : Event} (tallies : r.Tallies (n + 1) events)
    (tells : own.leafEnd = some ⟨ownerOf path, action, status, error⟩) :
    (r.record path action status error).Tallies n (events ++ [own]) := by
  obtain ⟨counts, begun, recorded, outcomes, stopped, reason⟩ := tallies
  have other : own.isActionStart = false ∧ own.isStopped = false ∧ own.terminationReason = none := by
    cases own <;> simp_all [Event.leafEnd, Event.isActionStart, Event.isStopped,
      Event.terminationReason]
  obtain ⟨noStart, noStop, noReason⟩ := other
  constructor
  · intro status'
    simp [count_record, counts, Event.ends, tells, List.countP_cons]
  · rw [visited_record]
    simp [begun, noStart]
    omega
  · simp [outcomes_record, visited_record, recorded]
  · simp [outcomes_record, outcomes, tells, ActionRecord.leafEnd]
  · simp [stopped_record, stopped, noStop]
  · simp [terminationReason_record, reason, noReason]

theorem Tallies.stop {index : Nat} (tallies : r.Tallies n events) :
    r.markStopped.Tallies n (events ++ [.stopped index]) := by
  obtain ⟨counts, begun, recorded, outcomes, stopped, reason⟩ := tallies
  constructor
  · intro status
    have same : r.markStopped.count status = r.count status := by cases status <;> rfl
    simp [same, counts, Event.ends, Event.leafEnd]
  · simp [begun, Event.isActionStart, markStopped, visited]
  · exact recorded
  · simp [outcomes, Event.leafEnd, markStopped]
  · simp [Event.isStopped, markStopped]
  · simp [reason, Event.terminationReason, markStopped]

theorem Tallies.terminate {index : Nat} {why : String} (tallies : r.Tallies n events)
    (open_ : r.terminationReason = none) :
    (r.markTerminated why).Tallies n (events ++ [.terminated index why]) := by
  obtain ⟨counts, begun, recorded, outcomes, stopped, reason⟩ := tallies
  rw [open_] at reason
  constructor
  · intro status
    have same : (r.markTerminated why).count status = r.count status := by cases status <;> rfl
    simp [same, counts, Event.ends, Event.leafEnd]
  · simp [begun, Event.isActionStart, markTerminated, visited]
  · exact recorded
  · simp [outcomes, Event.leafEnd, markTerminated]
  · simp [stopped, Event.isStopped, markTerminated]
  · simp [← reason, Event.terminationReason, markTerminated]

theorem Tallies.stopped_iff (tallies : r.Tallies n events) :
    r.stopped = true ↔ ∃ index, .stopped index ∈ events := by
  rw [tallies.stopped, List.any_eq_true]
  constructor
  · rintro ⟨event, member, halted⟩
    cases event with
    | stopped index => exact ⟨index, member⟩
    | _ => cases halted
  · rintro ⟨index, member⟩
    exact ⟨.stopped index, member, rfl⟩

theorem Tallies.success_iff (tallies : r.Tallies n events) :
    r.success = true ↔ ∀ e ∈ events, e.ends .failed = false ∧ e.terminationReason = none := by
  have failed : r.failed = 0 ↔ ∀ e ∈ events, e.ends .failed = false := by
    rw [show r.failed = events.countP (Event.ends .failed) from tallies.counts .failed]
    simp [List.countP_eq_zero]
  have reason : r.terminationReason = none ↔ ∀ e ∈ events, e.terminationReason = none := by
    rw [← List.filterMap_eq_nil_iff, ← tallies.reason]
    cases r.terminationReason <;> simp
  simp only [success, Bool.and_eq_true, beq_iff_eq, Option.isNone_iff_eq_none, failed, reason]
  constructor
  · rintro ⟨unfailed, unended⟩ e member
    exact ⟨unfailed e member, unended e member⟩
  · intro both
    exact ⟨fun e member => (both e member).1, fun e member => (both e member).2⟩

end Report

/-! ### What a step adds to the report -/

namespace RunState

/-- The report of a state in which a part was left is in line with the events, and it says that the
run was stopped or terminated exactly if that is how the part was left. -/
structure Accounts (s : RunState ω) (x : Exit) : Prop where
  tallies : s.report.Tallies 0 s.events.toList
  stopped : s.report.stopped = true ↔ x = .ends .stopped
  terminated : s.report.terminationReason.isSome = true ↔ x = .ends .terminated

variable {s s' : RunState ω} {x : Exit}

/-- No leaf is in flight while the walk goes on, and nothing has ended the run. -/
theorem Accounts.going (accounts : s.Accounts .done) :
    s.report.stopped = false ∧ s.report.terminationReason = none := by
  have stopped := accounts.stopped
  have terminated := accounts.terminated
  constructor
  · simpa using stopped
  · simpa using terminated

theorem accounts_of_going (tallies : s.report.Tallies 0 s.events.toList)
    (running : s.report.stopped = false) (open_ : s.report.terminationReason = none)
    (unstopped : x ≠ .ends .stopped) (unterminated : x ≠ .ends .terminated) : s.Accounts x where
  tallies := tallies
  stopped := by simp [running, unstopped]
  terminated := by simp [open_, unterminated]

theorem Accounts.aside {e : Event} (accounts : s.Accounts .done) (aside : e.isAside = true) :
    (s.emit e).Accounts .done := by
  obtain ⟨running, open_⟩ := accounts.going
  refine accounts_of_going ?_ running open_ (by simp) (by simp)
  rw [emit, Array.toList_push]
  exact accounts.tallies.aside aside

theorem Accounts.hears {requests : List Event} (accounts : s.Accounts .done)
    (hears : s.Hears s' requests) : s'.Accounts .done := by
  obtain ⟨running, open_⟩ := accounts.going
  refine accounts_of_going ?_ ?_ ?_ (by simp) (by simp)
  · rw [hears.report, hears.events]
    exact accounts.tallies.asides fun e member => Event.isAside_of_stopRequest (hears.requested e member)
  · rw [hears.report, running]
  · rw [hears.report, open_]

theorem Accounts.stop {index : Nat} (accounts : s.Accounts .done) :
    (s.stop index).Accounts (.ends .stopped) := by
  obtain ⟨running, open_⟩ := accounts.going
  constructor
  · rw [RunState.stop, emit, Array.toList_push]
    exact accounts.tallies.stop
  · simp [RunState.stop, emit, Report.markStopped]
  · simp [RunState.stop, emit, Report.markStopped, open_]

theorem Accounts.terminate {index : Nat} {reason : String} (accounts : s.Accounts .done) :
    (s.terminate index reason).Accounts (.ends .terminated) := by
  obtain ⟨running, open_⟩ := accounts.going
  constructor
  · rw [RunState.terminate, emit, Array.toList_push]
    exact accounts.tallies.terminate open_
  · simp [RunState.terminate, emit, Report.markTerminated, running]
  · simp [RunState.terminate, emit, Report.markTerminated]

/-- A fault says nothing in the report. -/
theorem Accounts.fault (accounts : s.Accounts .done) (f : RunFault) :
    s.Accounts (.ends (.fault f)) := by
  obtain ⟨running, open_⟩ := accounts.going
  exact accounts_of_going accounts.tallies running open_ (by simp) (by simp)

/-- While nothing has ended the run the report is in line with the events but for one leaf, which is
in flight. -/
structure InFlight (s : RunState ω) : Prop where
  tallies : s.report.Tallies 1 s.events.toList
  running : s.report.stopped = false
  unended : s.report.terminationReason = none

theorem InFlight.hears {requests : List Event} (flight : s.InFlight) (hears : s.Hears s' requests) :
    s'.InFlight := by
  constructor
  · rw [hears.report, hears.events]
    exact flight.tallies.asides fun e member => Event.isAside_of_stopRequest (hears.requested e member)
  · rw [hears.report, flight.running]
  · rw [hears.report, flight.unended]

/-- A leaf that was in flight is recorded and told. -/
theorem InFlight.closed {place : List Nat} {index : Nat} {a : Action} {status : ActionStatus}
    {error : Option String} {own : Event} (flight : s.InFlight)
    (tells : own.leafEnd = some ⟨index, a.kind, status, error⟩) :
    ((s.record (place ++ [index]) a status error).emit own).Accounts .done := by
  have path : ownerOf (place ++ [index]) = index := by simp [ownerOf]
  refine accounts_of_going ?_ ?_ ?_ (by simp) (by simp)
  · rw [emit, Array.toList_push]
    exact flight.tallies.record (by rw [path, tells])
  · exact (Report.stopped_record _ a.kind status error).trans flight.running
  · exact (Report.terminationReason_record _ a.kind status error).trans flight.unended

end RunState

namespace RunSetup

variable {p : RunSetup ω} {s s' s'' : RunState ω}

theorem inFlight_started {path : List Nat} {index : Nat} {a : Action} (accounts : s.Accounts .done) :
    (p.started s path index a).InFlight := by
  obtain ⟨running, open_⟩ := accounts.going
  refine ⟨?_, running, open_⟩
  rw [started, RunState.emit, Array.toList_push]
  exact accounts.tallies.begin

theorem accounts_judged {owner : ControlKind} {condition : Option Condition} {result : Bool}
    (accounts : s.Accounts .done) (judged : p.judged s owner condition = (s', some result)) :
    s'.Accounts .done := by
  cases condition with
  | none =>
    cases judged
    exact accounts.aside rfl
  | some c =>
    rw [RunSetup.judged] at judged
    split at judged
    next => cases judged
    next _ t result call =>
      cases judged
      obtain ⟨_, requests, hears⟩ := hears_heard call
      exact (accounts.hears hears).aside rfl

end RunSetup

/-- The report after a step is in line with the events, unless the run was let go. -/
def Progress.Accounts (after : Progress ω) : Prop :=
  after.Leaves (fun _ s => s.Accounts .done) fun ending s =>
    ending ≠ .abandoned → s.Accounts (.ends ending)

/-- A leaf is recorded as it is told. -/
theorem Evaluates.accounts {p : RunSetup ω} {top : OpenSequence} {parents : Stack}
    {place : List Nat} {index : Nat} {a : Action} {s s' : RunState ω} {x : Exit}
    (accounts : s.Accounts .done) (leaf : a.isControl = false)
    (evaluated : Evaluates p (.action place index a) s x s') :
    (Progress.leave top parents x s').Accounts := by
  have begun : (p.started s (place ++ [index]) index a).InFlight := RunSetup.inFlight_started accounts
  cases evaluated with
  | skip | test => exact begun.closed rfl
  | fail => exact fun _ => (begun.closed rfl).terminate
  | taskAbandoned => exact fun kept => absurd rfl kept
  | task call outcome =>
    obtain ⟨_, requests, hears⟩ := RunSetup.hears_heard call
    have flight := begun.hears hears
    cases RunSetup.answered_settles outcome with
    | goesOn answers tells on =>
      cases x with
      | done | jump target => exact flight.closed tells
      | ends e => cases on
    | breaksOff answers tells f => exact fun _ => (flight.closed tells).fault f
    | terminated answers tells reason => exact fun _ => (flight.closed tells).terminate
  | branchAbandoned | branchNone | branchTooDeep | branch => simp [Action.isControl] at leaf
  | whileTooDeep | whileLoop | loopTooDeep | loop => simp [Action.isControl] at leaf

/-- Every step keeps the report in line with the events. -/
theorem Moves.accounts {p : RunSetup ω} {top : OpenSequence} {parents : Stack} {s : RunState ω}
    {after : Progress ω} (accounts : s.Accounts .done) (moves : Moves p top parents s after) :
    after.Accounts := by
  -- an action that is reached changes neither the report nor the events
  have reached : (s.reaching top.next).Accounts .done := { accounts with }
  cases moves with
  | stoppedBetween | stopped => exact fun _ => accounts.stop
  | once | countedEnough | whileEnough => exact accounts
  | countedPass => exact accounts.aside rfl
  | whileAbandoned | branchAbandoned => exact fun kept => absurd rfl kept
  | whileFalse _ _ _ _ judged => exact RunSetup.accounts_judged accounts judged
  | whilePass _ _ _ _ judged => exact (RunSetup.accounts_judged accounts judged).aside rfl
  | leaf here running leaf evaluated => exact evaluated.accounts reached leaf
  | branchNone _ _ judged | branch _ _ judged => exact RunSetup.accounts_judged reached judged
  | branchTooDeep _ _ judged => exact fun _ => (RunSetup.accounts_judged reached judged).fault _
  | whileTooDeep | loopTooDeep => exact fun _ => reached.fault _
  | whileLoop | loop => exact reached

/-! ### What a step adds to the calls -/

def Call.task : Call → Option Task
  | .perform task => some task
  | .judge _ => none

/-- The tasks that were performed, in order. -/
def Watched.performed (w : Watched ω) : List Task := w.calls.filterMap fun call => call.1.task

/-- Each leaf of a task that began has led to one call, in order. -/
def RunState.Performed (s : RunState (Watched ω)) : Prop :=
  s.world.performed = s.events.toList.filterMap Event.startedTask

theorem Notes.performed {p : RunSetup ω} {top : OpenSequence} {s s' : RunState (Watched ω)}
    (performed : s.Performed) (notes : Notes p.watched top s s') : s'.Performed := by
  rw [RunState.Performed] at performed ⊢
  cases notes with
  | quiet world active events unasked taskless =>
    rw [world, events, List.filterMap_append, taskless, List.append_nil]
    exact performed
  | @call call opening requests later own asks world active events opens requested heeded answers
      remarks =>
    have after : s'.world.calls = s.world.calls ++ [(call, s.world.world)] := by
      rw [world]
      exact congrArg Watched.calls (p.performer.after_watched call s.world)
    have opened : opening.filterMap Event.startedTask = call.task.toList := by
      cases opens <;> rfl
    have asked : requests.filterMap Event.startedTask = [] := by
      rw [List.filterMap_eq_nil_iff]
      intro e member
      have request := requested e member
      cases e <;> simp_all [Event.isStopRequest, Event.startedTask]
    have answered : own.startedTask = none := by cases answers <;> rfl
    have remarked : later.filterMap Event.startedTask = [] := by
      rw [List.filterMap_eq_nil_iff]
      exact fun e member => Event.taskless_of_remark (remarks e member)
    have called : s'.world.performed = s.world.performed ++ call.task.toList := by
      rw [Watched.performed, after, List.filterMap_append]
      cases call <;> rfl
    rw [called, performed, events]
    simp [opened, asked, answered, remarked]

/-! ### Whole runs -/

theorem RunSetup.keeps_accounts (p : RunSetup ω) :
    p.Keeps (fun _ s => s.Accounts .done) fun ending s =>
      ending ≠ .abandoned → s.Accounts (.ends ending) where
  step := fun _ _ _ _ accounts moves => moves.accounts accounts
  finish := by
    intro s accounts _
    obtain ⟨running, open_⟩ := accounts.going
    exact RunState.accounts_of_going accounts.tallies running open_ (by simp) (by simp)

theorem RunSetup.keeps_performed (p : RunSetup ω) :
    p.watched.Keeps (fun _ s => s.Performed) fun ending s => ending ≠ .abandoned → s.Performed where
  step := by
    intro top parents s after performed moves
    rcases moves.notes with ⟨t, rfl⟩ | notes
    · exact fun kept => absurd rfl kept
    have next := notes.performed performed
    rcases after with ⟨rest, t⟩ | ⟨ending, t⟩
    · exact next
    · exact fun _ => next
  finish := fun _ performed _ => performed

/-- The last event of a run that gives back a result. -/
def RunResult.event : RunResult → Event
  | .ok r => .complete r
  | .fault f r => .error f.message r

/-- A result is the sum of what its run told. -/
structure RunResult.AddsUp (result : RunResult) (events : List Event) : Prop where
  completed : result.report.completed = events.countP (Event.ends .completed)
  failed : result.report.failed = events.countP (Event.ends .failed)
  skipped : result.report.skipped = events.countP (Event.ends .skipped)
  visited : result.report.completed + result.report.failed + result.report.skipped =
    events.countP Event.isActionStart
  recorded : result.report.outcomes.size = events.countP Event.isActionStart
  /-- The records are those of the events that end a leaf, in order. -/
  outcomes : result.report.outcomes.toList.map ActionRecord.leafEnd = events.filterMap Event.leafEnd
  stopped : result.report.stopped = true ↔ ∃ index, .stopped index ∈ events
  /-- At most one event terminates the run, and its reason is the one of the report. -/
  reason : events.filterMap Event.terminationReason = result.report.terminationReason.toList
  apart : ¬ (result.report.stopped = true ∧ result.report.terminationReason.isSome = true)
  broken : ∀ f r, result = .fault f r → r.stopped = false ∧ r.terminationReason = none
  success : result.report.success = true ↔
    ∀ e ∈ events, e.ends .failed = false ∧ e.terminationReason = none
  last : events.getLast? = some result.event

namespace Engine

theorem accounts_opening (actions : List Action) (world : ω) (control : Control) :
    (opening actions world control).Accounts .done := by
  constructor
  · constructor
    · intro status
      cases status <;> rfl
    all_goals rfl
  · simp [opening]
  · simp [opening]

/-- A result is told last, and by itself. -/
theorem close_events {e : Engine} {ending : Ending} {s : RunState ω} {result : RunResult}
    (given : (e.close (ending, s)).result = some result) :
    (e.close (ending, s)).events.toList = s.events.toList ++ [result.event] := by
  cases ending <;> cases given <;> exact Array.toList_push

theorem close_adds_up {e : Engine} {ending : Ending} {s : RunState ω} {result : RunResult}
    (accounts : s.Accounts (.ends ending)) (given : (e.close (ending, s)).result = some result) :
    result.AddsUp (e.close (ending, s)).events.toList := by
  have report : result.report = s.report := close_report given
  have aside : result.event.isAside = true := by cases result <;> rfl
  have tallies : result.report.Tallies 0 (s.events.toList ++ [result.event]) := by
    rw [report]
    exact accounts.tallies.aside aside
  rw [close_events given]
  constructor
  · exact tallies.counts .completed
  · exact tallies.counts .failed
  · exact tallies.counts .skipped
  · exact tallies.begun.symm
  · rw [tallies.recorded, tallies.begun, Nat.add_zero]
  · exact tallies.outcomes
  · exact tallies.stopped_iff
  · exact tallies.reason.symm
  · rintro ⟨stopped, terminated⟩
    rw [report] at stopped terminated
    cases (accounts.stopped.mp stopped).symm.trans (accounts.terminated.mp terminated)
  · rintro f r rfl
    cases ending with
    | fault f =>
      cases given
      have unstopped := accounts.stopped
      have unterminated := accounts.terminated
      exact ⟨by simpa using unstopped, by simpa using unterminated⟩
    | finished | stopped | terminated | abandoned => cases given
  · exact tallies.success_iff
  · exact List.getLast?_concat

/-- The result of a run that ends adds up what the run told, and the performer was called once for
each leaf of a task that began, in order. -/
theorem execute_adds_up {e : Engine} {performer : Performer ω} {actions : List Action} {world : ω}
    {atPause : AtPause} {fuel : Nat} {record : RunRecord ω} {result : RunResult}
    (ran : e.execute performer actions world atPause fuel = .ran record)
    (ended : record.result = some result) :
    result.AddsUp record.events.toList ∧
      ∃ seen, e.execute performer.watched actions ⟨world, []⟩ atPause fuel = .ran seen ∧
        seen.unwatched = record ∧
        seen.world.performed = record.events.toList.filterMap Event.startedTask := by
  obtain ⟨seen, watched, rfl⟩ := execute_watched.mp ran
  obtain ⟨run, control, ⟨ending, s⟩, accepted, walked, rfl⟩ := ran_iff.mp watched
  have begun := Stack.begun_once actions
  have kept : ending ≠ .abandoned := by
    rintro rfl
    cases ended
  have given : (e.close (ending, s)).result = some result := ended
  have accounts := (RunSetup.keeps_accounts _).walked walked begun
    (accounts_opening actions _ control) kept
  have performed : s.Performed :=
    (RunSetup.keeps_performed (e.setup performer actions run atPause)).walked walked begun rfl kept
  refine ⟨close_adds_up accounts given, _, watched, rfl, ?_⟩
  have world : (e.close (ending, s)).world = s.world := by cases ending <;> rfl
  have told : result.event.startedTask = none := by cases result <;> rfl
  have events : (e.close (ending, s)).unwatched.events.toList = s.events.toList ++ [result.event] :=
    close_events given
  rw [world, performed, events]
  simp [told]

/-- A run in which a task fails in a branch and a later one terminates the run. -/
theorem execute_adds_up_terminating :
    ∃ (record : RunRecord Unit) (result : RunResult) (seen : RunRecord (Watched Unit)),
      execute {} { perform := fun task _ =>
                      ⟨.ok (if task = .input "a" then .failed "locked" else { terminate := true }), (), []⟩
                   judge := fun _ _ => ⟨true, (), []⟩ }
        [.skip none, .branch none [.task (.input "a")] none, .test none, .task (.input "b"), .test none]
        () .goOn 7 = .ran record ∧
      record.result = some result ∧
      result.report.terminationReason = some defaultTerminateMessage ∧
      result.AddsUp record.events.toList ∧
      seen.unwatched = record ∧ seen.world.performed = [.input "a", .input "b"] := by
  obtain ⟨record, result, ran, ended, reason, tasks⟩ : ∃ (record : RunRecord Unit) (result : RunResult),
      execute {} { perform := fun task _ =>
                      ⟨.ok (if task = .input "a" then .failed "locked" else { terminate := true }), (), []⟩
                   judge := fun _ _ => ⟨true, (), []⟩ }
        [.skip none, .branch none [.task (.input "a")] none, .test none, .task (.input "b"), .test none]
        () .goOn 7 = .ran record ∧
      record.result = some result ∧
      result.report.terminationReason = some defaultTerminateMessage ∧
      record.events.toList.filterMap Event.startedTask = [.input "a", .input "b"] :=
    ⟨_, _, rfl, rfl, rfl, rfl⟩
  obtain ⟨adds, seen, _, same, performed⟩ := execute_adds_up ran ended
  exact ⟨record, result, seen, ran, ended, reason, adds, same, performed.trans tasks⟩

end Engine

end Screenplay
