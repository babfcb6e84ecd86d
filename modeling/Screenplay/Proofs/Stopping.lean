import Screenplay.Proofs.Accounting
import Screenplay.Proofs.Nesting

/-!
Stopping a run. A call during which the run is asked to stop goes on to its end, and it is the last
one. Then the run halts at the place where its stack has something left to do, or it is over
(`Engine.execute_heeds_stop`). A handle that was taken before a listener was attached asks for nothing
any more (`StopHandle.Detached`).
-/
namespace Screenplay

variable {ω : Type}

/-! ### Where a stack halts -/

/-- The sequence has an action left, or it is one for several passes. -/
def OpenSequence.HasLeft (q : OpenSequence) : Prop :=
  q.next < q.actions.length ∨ q.passes ≠ .once

namespace Stack

/-- Where a run that was asked to stop halts, going outwards: at the next action of a sequence, or
between the passes of a sequence at the loop that owns it. -/
def haltsAt : Stack → Option Nat
  | [] => none
  | q :: parents =>
    if q.next < q.actions.length then some q.next
    else if q.passes = .once then haltsAt parents
    else some (ownerIndex parents)

theorem isSome_haltsAt {stack : Stack} : stack.haltsAt.isSome = true ↔ ∃ q ∈ stack, q.HasLeft := by
  induction stack with
  | nil => simp [haltsAt]
  | cons q parents ih =>
    rw [haltsAt]
    by_cases left : q.next < q.actions.length
    · simp [left, OpenSequence.HasLeft]
    by_cases once : q.passes = .once
    · simp [left, once, ih, OpenSequence.HasLeft]
    · simp [left, once, OpenSequence.HasLeft]

/-- A stack halts at a position: going outwards, at the next action of the first sequence that has
one, or at the loop that owns a sequence which has run out. -/
inductive Halts : Stack → Nat → Prop where
  | action {q : OpenSequence} {parents : Stack} (left : q.next < q.actions.length) :
    Halts (q :: parents) q.next
  | between {q owner : OpenSequence} {rest : Stack} {index : Nat} {a : Action}
    (behind : q.actions.length ≤ q.next) (behindOwner : owner.next = index + 1)
    (here : owner.actions[index]? = some a) (loops : a.Repeats q.actions) :
    Halts (q :: owner :: rest) index
  | outwards {q : OpenSequence} {parents : Stack} {index : Nat}
    (behind : q.actions.length ≤ q.next) (once : q.passes = .once) (outer : Halts parents index) :
    Halts (q :: parents) index

/-- Where a stack that leads down a tree of actions halts. -/
theorem Descends.halts {actions : List Action} {stack : Stack} {index : Nat}
    (descends : Descends actions stack) (place : stack.haltsAt = some index) : stack.Halts index := by
  induction stack with
  | nil => cases place
  | cons q parents ih =>
    rw [haltsAt] at place
    split at place
    next left =>
      cases place
      exact .action left
    next exhausted =>
      have behind : q.actions.length ≤ q.next := Nat.le_of_not_lt exhausted
      split at place
      next once => exact .outwards behind once (ih descends.outer place)
      next repeats =>
        cases descends with
        | top => exact absurd rfl repeats
        | inner below behindOwner here opens =>
          simp only [ownerIndex, behindOwner, List.head?_cons, Option.map_some, Option.getD_some,
            Nat.add_sub_cancel, Option.some.injEq] at place
          subst place
          exact .between behind behindOwner here (opens.repeats repeats)

/-- How the walk of a stack ends when the run was asked to stop. -/
def halted (stack : Stack) (s : RunState ω) : Ending × RunState ω :=
  match stack.haltsAt with
  | none => (.finished, s)
  | some index => (.stopped, s.stop index)

theorem halted_none {stack : Stack} {s : RunState ω} (nowhere : stack.haltsAt = none) :
    stack.halted s = (.finished, s) := by
  simp only [halted, nowhere]

theorem halted_some {stack : Stack} {s : RunState ω} {index : Nat}
    (place : stack.haltsAt = some index) : stack.halted s = (.stopped, s.stop index) := by
  simp only [halted, place]

end Stack

/-- A run that was asked to stop takes no further action. -/
theorem RunSetup.ends_cancelled {p : RunSetup ω} {s : RunState ω}
    (cancelled : s.control.isCancelled p.run = true) (stack : Stack) :
    p.Ends stack s (stack.halted s) := by
  induction stack with
  | nil => exact ⟨1, rfl⟩
  | cons q parents ih =>
    obtain ⟨actions, next, passes⟩ := q
    by_cases left : next < actions.length
    · have place : Stack.haltsAt (⟨actions, next, passes⟩ :: parents) = some next := if_pos left
      rw [Stack.halted_some place, ends_iff,
        step_stopped (List.getElem?_eq_getElem left) cancelled]
      rfl
    have behind : actions.length ≤ next := Nat.le_of_not_lt left
    by_cases once : passes = .once
    · subst once
      have outer : Stack.haltsAt (⟨actions, next, .once⟩ :: parents) = Stack.haltsAt parents := by
        simp [Stack.haltsAt, left]
      have same : Stack.halted (⟨actions, next, .once⟩ :: parents) s = Stack.halted parents s := by
        simp only [Stack.halted, outer]
      rw [same]
      exact ends_once behind ih
    · have place : Stack.haltsAt (⟨actions, next, passes⟩ :: parents) =
          some (Stack.ownerIndex parents) := by simp [Stack.haltsAt, left, once]
      rw [Stack.halted_some place, ends_iff, step_exhausted behind, if_pos ⟨once, cancelled⟩,
        Stack.ownerIndex_eq]
      rfl

/-! ### What is heard during a step -/

/-- A request to stop is told between the two states. -/
def RunState.Asked (s s' : RunState ω) : Prop :=
  ∃ told index, s'.events.toList = s.events.toList ++ told ∧ .stopRequested index ∈ told

/-- That a run halts is not that it was asked to. -/
theorem RunState.not_asked_stop {s : RunState ω} {index : Nat} : ¬ s.Asked (s.stop index) := by
  rintro ⟨told, index', events, request⟩
  have same : s.events.toList ++ [.stopped index] = s.events.toList ++ told :=
    Array.toList_push.symm.trans events
  rw [← List.append_cancel_left same] at request
  simp at request

theorem Notes.active {p : RunSetup ω} {top : OpenSequence} {s s' : RunState ω}
    (notes : Notes p top s s') : s'.control.active = s.control.active := by
  cases notes with
  | quiet _ active => exact active
  | call _ _ active => exact active

/-- The run stays the one in flight. -/
theorem RunSetup.keeps_active (p : RunSetup ω) :
    p.Keeps (fun _ s => s.control.active = some p.run) fun _ _ => True where
  step := by
    intro top parents s after active moves
    rcases moves.notes with ⟨t, rfl⟩ | notes
    · exact trivial
    rcases after with ⟨rest, t⟩ | ⟨ending, t⟩
    · exact notes.active.trans active
    · exact trivial
  finish := fun _ _ => trivial

theorem Control.active_accept {c control : Control} {run : Nat}
    (accepted : c.accept = some (run, control)) : control.active = some run := by
  rw [accept] at accepted
  split at accepted
  · cases accepted
  · cases accepted
    rfl

/-- A step during which the run is asked to stop makes a call, and the request reaches the run. -/
theorem Notes.asked {p : RunSetup ω} {top : OpenSequence} {s s' : RunState ω}
    (notes : Notes p top s s') (asked : s.Asked s') (active : s.control.active = some p.run) :
    s'.control.isCancelled p.run = true ∧ ∃ call opening requests own later,
      s'.world = p.performer.after call s.world ∧ call.Opens opening ∧ requests ≠ [] ∧
      (∀ e ∈ requests, e.isStopRequest = true) ∧ call.Answers own ∧
      (∀ e ∈ later, e.isRemark = true) ∧
      s'.events.toList = s.events.toList ++ (opening ++ requests ++ own :: later) := by
  obtain ⟨told, index, events, request⟩ := asked
  cases notes with
  | quiet _ _ events' unasked =>
    have same := List.append_cancel_left (events.symm.trans events')
    cases unasked _ (same ▸ request)
  | @call call opening requests later own _ world _ events' opens requested heeded answers remarks =>
    have same := List.append_cancel_left (events.symm.trans events')
    have within : .stopRequested index ∈ requests := by
      rw [same] at request
      rcases List.mem_append.mp request with before | after
      · rcases List.mem_append.mp before with first | within
        · cases opens <;> simp at first
        · exact within
      · rcases List.mem_cons.mp after with rfl | late
        · cases answers
        · cases remarks _ late
    have some : requests ≠ [] := List.ne_nil_of_mem within
    exact ⟨heeded some p.run active, call, opening, requests, own, later, world, opens, some,
      requested, answers, remarks, events'⟩

/-! ### The end of the run -/

/-- The position at which a run was stopped. -/
def Event.stoppedAt : Event → Option Nat
  | .stopped index => some index
  | _ => none

/-- After the state the run makes one more call, which is completed and told while the run is asked
to stop. Then it begins no leaf and asks for nothing. -/
def RunRecord.EndsAfterCall (record : RunRecord (Watched ω)) (s : RunState (Watched ω)) : Prop :=
  ∃ call opening requests own later,
    record.world.calls = s.world.calls ++ [(call, s.world.world)] ∧
    record.events.toList = s.events.toList ++ (opening ++ requests ++ own :: later) ∧
    call.Opens opening ∧ requests ≠ [] ∧ (∀ e ∈ requests, e.isStopRequest = true) ∧
    call.Answers own ∧ ∀ e ∈ later, e.isRemark = true

theorem Notes.endsAfterCall {p : RunSetup ω} {top : OpenSequence} {s s' : RunState (Watched ω)}
    {record : RunRecord (Watched ω)} {told : List Event} (notes : Notes p.watched top s s')
    (asked : s.Asked s') (active : s.control.active = some p.run) (world : record.world = s'.world)
    (events : record.events.toList = s'.events.toList ++ told)
    (remarks : ∀ e ∈ told, e.isRemark = true) : record.EndsAfterCall s := by
  obtain ⟨_, call, opening, requests, own, later, after, opens, some, requested, answers, remarks',
    events'⟩ := notes.asked asked active
  refine ⟨call, opening, requests, own, later ++ told, ?_, ?_, opens, some, requested, answers, ?_⟩
  · rw [world, after]
    exact congrArg Watched.calls (p.performer.after_watched call s.world)
  · rw [events, events', List.append_assoc, List.append_assoc _ (own :: later), List.cons_append]
  · intro e member
    rcases List.mem_append.mp member with early | late
    · exact remarks' e early
    · exact remarks e late

/-- The run halts on the stack, or it is over if the stack has nothing left. The leaves that were
told so far decide on its success. -/
structure RunRecord.HaltsOn (record : RunRecord ω) (stack : Stack) (s : RunState ω)
    (report : Report) : Prop where
  result : record.result = some (.ok report)
  stopped : report.stopped = true ↔ ∃ q ∈ stack, q.HasLeft
  success : report.success = true ↔ ∀ e ∈ s.events.toList, e.ends .failed = false
  /-- The run is told to be stopped at most once, and where the stack halts. -/
  place : record.events.toList.filterMap Event.stoppedAt = stack.haltsAt.toList

theorem RunState.Accounts.unstopped {s : RunState ω} (accounts : s.Accounts .done) :
    s.events.toList.filterMap Event.stoppedAt = [] := by
  obtain ⟨running, _⟩ := accounts.going
  have quiet := accounts.tallies.stopped
  rw [running, eq_comm, List.any_eq_false] at quiet
  rw [List.filterMap_eq_nil_iff]
  intro e member
  have other := quiet e member
  cases e <;> simp_all [Event.isStopped, Event.stoppedAt]

/-- While the run goes on, its success is that of its leaves. -/
theorem RunState.Accounts.success_iff {s : RunState ω} (accounts : s.Accounts .done) :
    s.report.success = true ↔ ∀ e ∈ s.events.toList, e.ends .failed = false := by
  rw [accounts.tallies.success_iff]
  have reasonless : ∀ e ∈ s.events.toList, e.terminationReason = none := by
    rw [← List.filterMap_eq_nil_iff, ← accounts.tallies.reason, accounts.going.2]
    rfl
  constructor
  · exact fun both e member => (both e member).1
  · exact fun unfailed e member => ⟨unfailed e member, reasonless e member⟩

namespace Engine

/-- After a walk that was not abandoned its result is told. -/
theorem close_told {e : Engine} {ending : Ending} {s : RunState ω} (kept : ending ≠ .abandoned) :
    ∃ event : Event, event.isRemark = true ∧
      (e.close (ending, s)).events.toList = s.events.toList ++ [event] := by
  cases ending with
  | abandoned => exact absurd rfl kept
  | fault f => exact ⟨.error f.message s.report, rfl, Array.toList_push⟩
  | finished | stopped | terminated => exact ⟨.complete s.report, rfl, Array.toList_push⟩

/-- A run that halts tells where it does so, if anywhere, and then its result. -/
theorem close_halted (e : Engine) (stack : Stack) (s : RunState ω) :
    ∃ report : Report, (e.close (stack.halted s)).result = some (.ok report) ∧
      (e.close (stack.halted s)).world = s.world ∧
      (e.close (stack.halted s)).events.toList =
        s.events.toList ++ (stack.haltsAt.toList.map Event.stopped ++ [.complete report]) ∧
      report.stopped = (s.report.stopped || stack.haltsAt.isSome) ∧
      report.success = s.report.success := by
  rcases place : stack.haltsAt with _ | index
  · rw [Stack.halted_none place]
    exact ⟨s.report, rfl, rfl, Array.toList_push, (Bool.or_false _).symm, rfl⟩
  · rw [Stack.halted_some place]
    refine ⟨s.report.markStopped, rfl, rfl, ?_, (Bool.or_true _).symm, rfl⟩
    simp [close, RunState.stop, RunState.emit]

theorem close_haltsOn (e : Engine) {s : RunState ω} (accounts : s.Accounts .done) (stack : Stack) :
    ∃ report, (e.close (stack.halted s)).HaltsOn stack s report := by
  obtain ⟨report, result, _, events, stopped, success⟩ := e.close_halted stack s
  refine ⟨report, result, ?_, ?_, ?_⟩
  · rw [stopped, accounts.going.1, Bool.false_or]
    exact Stack.isSome_haltsAt
  · rw [success]
    exact accounts.success_iff
  · rw [events, List.filterMap_append, accounts.unstopped]
    rcases stack.haltsAt with _ | index <;> rfl

/-- When a run is asked to stop during a step, the call of this step goes on to its end and is told,
and it is the last call of the run. If the step does not end the run itself, the run halts on the
stack that the step leaves, or it is over if that stack has nothing left. -/
theorem execute_heeds_stop {e : Engine} {performer : Performer ω} {actions : List Action}
    {world : ω} {atPause : AtPause} {run : Nat} {control : Control} {stack : Stack}
    {s : RunState (Watched ω)} {after : Progress (Watched ω)}
    (accepted : e.control.accept = some (run, control))
    (reached : (e.setup performer.watched actions run atPause).Reaches [.once actions]
      (opening actions ⟨world, []⟩ control) stack s)
    (stepped : (e.setup performer.watched actions run atPause).step stack s = after)
    (asked : s.Asked after.state) (kept : ∀ t, after ≠ .over .abandoned t) :
    ∃ fuel record, e.execute performer.watched actions ⟨world, []⟩ atPause fuel = .ran record ∧
      e.execute performer actions world atPause fuel = .ran record.unwatched ∧
      record.EndsAfterCall s ∧
      after.Leaves
        (fun rest t => (∃ report, record.HaltsOn rest t report) ∧
          ∀ index, rest.haltsAt = some index → rest.Halts index)
        fun ending t => (ending = .terminated ∨ ∃ f, ending = .fault f) ∧
          record = e.close (ending, t) := by
  have begun := Stack.begun_once actions
  have active := (RunSetup.keeps_active _).reached reached begun (Control.active_accept accepted)
  have accounts := (RunSetup.keeps_accounts _).reached reached begun
    (accounts_opening actions _ control)
  have descends := (RunSetup.keeps_descends _ actions).reached reached begun .top
  cases stack with
  | nil =>
    -- nothing is heard when the walk is over
    obtain ⟨told, index, events, request⟩ := asked
    rw [← stepped] at events
    have nothing : told = [] := List.self_eq_append_right.mp events
    simp [nothing] at request
  | cons top parents =>
    have moves : Moves (e.setup performer.watched actions run atPause) top parents s after :=
      stepped ▸ RunSetup.step_moves (reached.begun begun)
    have notes := moves.notes.resolve_left fun ⟨t, abandoned⟩ => kept t abandoned
    have accounts' := moves.accounts accounts
    have last (r : Ending × RunState (Watched ω))
        (ends : (e.setup performer.watched actions run atPause).Ends (top :: parents) s r) :
        ∃ fuel, e.execute performer.watched actions ⟨world, []⟩ atPause fuel = .ran (e.close r) ∧
          e.execute performer actions world atPause fuel = .ran (e.close r).unwatched := by
      obtain ⟨fuel, walked⟩ := reached.ends ends
      have ran := ran_iff.mpr ⟨run, control, r, accepted, walked, rfl⟩
      exact ⟨fuel, ran, execute_watched.mpr ⟨_, ran, rfl⟩⟩
    rcases after with ⟨rest, t⟩ | ⟨ending, t⟩
    · have cancelled := (notes.asked asked active).1
      obtain ⟨fuel, ran, unwatched⟩ := last (rest.halted t)
        (by rw [RunSetup.ends_iff, stepped]; exact RunSetup.ends_cancelled cancelled rest)
      obtain ⟨report, _, world', events, _⟩ := e.close_halted rest t
      have remarks : ∀ event ∈ rest.haltsAt.toList.map Event.stopped ++ [.complete report],
          event.isRemark = true := by
        intro event member
        rcases List.mem_append.mp member with halt | close
        · obtain ⟨index, _, rfl⟩ := List.mem_map.mp halt
          rfl
        · rw [List.mem_singleton.mp close]
          rfl
      have descends' : Stack.Descends actions rest :=
        (RunSetup.keeps_descends _ actions).step top parents s _ descends moves
      refine ⟨fuel, _, ran, unwatched, ?_, e.close_haltsOn accounts' rest,
        fun index => descends'.halts⟩
      exact Notes.endsAfterCall (p := e.setup performer actions run atPause) notes asked active
        world' events remarks
    · have broken : ending = .terminated ∨ ∃ f, ending = .fault f := by
        cases moves.concludes with
        | stopped => exact absurd asked RunState.not_asked_stop
        | terminated => exact .inl rfl
        | abandoned => exact absurd rfl (kept t)
        | broken => exact .inr ⟨_, rfl⟩
      obtain ⟨fuel, ran, unwatched⟩ := last (ending, t) (by rw [RunSetup.ends_iff, stepped]; rfl)
      obtain ⟨event, remark, events⟩ := e.close_told (s := t) fun abandoned => kept t (abandoned ▸ rfl)
      refine ⟨fuel, _, ran, unwatched, ?_, broken, rfl⟩
      exact Notes.endsAfterCall (p := e.setup performer actions run atPause) notes asked active
        (by cases ending <;> rfl) events (by simp [remark])

/-- A run that is asked to stop during the last task of a pass halts at the loop. -/
theorem execute_heeds_stop_between_passes :
    ∃ fuel record report,
      execute {} { perform := fun _ world => ⟨.ok .ok, world, [.stop]⟩
                   judge := fun _ world => ⟨true, world, []⟩ }
        [.test none, .loop 3 [.branch none [.task (.input "a")] none]] () .goOn fuel = .ran record ∧
      record.result = some (.ok report) ∧ report.stopped = true ∧ report.success = true ∧
      record.events.toList.filterMap Event.stoppedAt = [1] := by
  -- the run up to the task and over it
  obtain ⟨stack, s, rest, t, reached, stepped, asked, place, unfailed⟩ :
      ∃ stack s rest t,
        (setup {} ({ perform := fun _ world => ⟨.ok .ok, world, [.stop]⟩
                     judge := fun _ world => ⟨true, world, []⟩ } : Performer Unit).watched
          [.test none, .loop 3 [.branch none [.task (.input "a")] none]] 0 .goOn).Reaches
          [.once [.test none, .loop 3 [.branch none [.task (.input "a")] none]]]
          (opening [.test none, .loop 3 [.branch none [.task (.input "a")] none]] ⟨(), []⟩
            { active := some 0, accepted := 1 }) stack s ∧
        (setup {} ({ perform := fun _ world => ⟨.ok .ok, world, [.stop]⟩
                     judge := fun _ world => ⟨true, world, []⟩ } : Performer Unit).watched
          [.test none, .loop 3 [.branch none [.task (.input "a")] none]] 0 .goOn).step stack s =
          .more rest t ∧
        t.events.toList = s.events.toList ++ [.actionStart 0 (.task (.input "a")) 2 2,
          .stopRequested 0, .actionComplete 0 (.task (.input "a"))] ∧
        rest.haltsAt = some 1 ∧ t.events.toList.filter (Event.ends .failed) = [] :=
    ⟨_, _, _, _, .step rfl (.step rfl (.step rfl (.step rfl .here))), rfl, rfl, rfl, rfl⟩
  obtain ⟨fuel, record, _, ran, _, ⟨report, halts⟩, _⟩ := execute_heeds_stop rfl reached stepped
    ⟨_, 0, asked, by simp⟩ (by simp)
  refine ⟨fuel, _, report, ran, halts.result, ?_, ?_, ?_⟩
  · exact halts.stopped.mpr (Stack.isSome_haltsAt.mp (place ▸ rfl))
  · rw [halts.success]
    intro e member
    exact Bool.eq_false_iff.mpr (List.filter_eq_nil_iff.mp unfailed e member)
  · have told := halts.place
    rw [place] at told
    exact told

end Engine

/-! ### Handles -/

namespace StopHandle

variable {h : StopHandle} {e : Engine}

/-- A listener was attached to the engine after the handle was taken. -/
def Detached (h : StopHandle) (e : Engine) : Prop := h.attached < e.attached

/-- A handle stops the engine that it was taken from. -/
theorem stop_stopHandle (e : Engine) : e.stopHandle.stop e = e.stop :=
  if_pos (decide_eq_true rfl)

namespace Detached

theorem of_withListener (e : Engine) : e.stopHandle.Detached e.withListener := Nat.lt_succ_self _

theorem not_reaches (detached : h.Detached e) : h.reaches e = false :=
  decide_eq_false (Nat.ne_of_lt detached)

theorem stop_eq (detached : h.Detached e) : h.stop e = e :=
  if_neg (by simp [detached.not_reaches])

theorem withListener (detached : h.Detached e) : h.Detached e.withListener := Nat.lt_succ_of_lt detached

theorem stop (detached : h.Detached e) : h.Detached e.stop := detached

/-- No run attaches the handle again. -/
theorem ran {performer : Performer ω} {actions : List Action} {world : ω} {atPause : AtPause} {fuel : Nat}
    {record : RunRecord ω} (detached : h.Detached e)
    (ran : e.execute performer actions world atPause fuel = .ran record) : h.Detached record.engine := by
  obtain ⟨_, _, ⟨ending, s⟩, _, _, rfl⟩ := Engine.ran_iff.mp ran
  cases ending <;> exact detached

/-- Nothing that is asked through the handle comes to a run of the engine. -/
theorem unheard (detached : h.Detached e) (performer : Performer ω) (call : Call) (world : ω) :
    h.atPause e = .goOn ∧ .stop ∉ (h.performer e performer).signals call world := by
  have lost : ¬ h.reaches e = true := by simp [detached.not_reaches]
  rw [atPause, StopHandle.performer, if_neg lost, if_neg lost]
  refine ⟨rfl, ?_⟩
  cases call <;> simp [Performer.signals, Performer.unstopped, Reply.unstopped]

end Detached

end StopHandle

end Screenplay
