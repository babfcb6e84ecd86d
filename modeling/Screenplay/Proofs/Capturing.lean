import Screenplay.Device.Desktop
import Screenplay.Proofs.Accounting
import Screenplay.Stage.Judgement

/-!
How often a run looks at the screen. Every image check captures it once and no other call captures
it (`Performer.Films`), so a run over a sequence of frames shows them to its image checks one by one
(`Desktop.execute_captures`), in the order in which the events tell of the checks
(`RunSetup.keeps_told`).
-/
namespace Screenplay

variable {ω : Type}

/-! ### Calls and what is told of them -/

/-- The call that an event tells of: a task as its leaf begins, a condition when it was judged. -/
def Event.asked : Event → Option Call
  | .actionStart _ (.task task) _ _ => some (.perform task)
  | .conditionEvaluated _ (some condition) _ => some (.judge condition)
  | _ => none

theorem Event.asked_eq_none {e : Event} (taskless : e.startedTask = none) (unjudged : e.judged = none) :
    e.asked = none := by
  cases e with
  | actionStart index a => cases a <;> simp_all [startedTask, asked]
  | conditionEvaluated owner condition => cases condition <;> simp_all [judged, asked]
  | _ => rfl

theorem Event.asked_of_stopRequest {e : Event} (request : e.isStopRequest = true) : e.asked = none := by
  cases e <;> simp_all [isStopRequest, asked]

theorem Event.asked_of_remark {e : Event} (remark : e.isRemark = true) : e.asked = none :=
  asked_eq_none (taskless_of_remark remark) (unjudged_of_remark remark)

/-- A call is told once, as it opens or with its answer. -/
theorem Call.told_once {call : Call} {opening requests later : List Event} {own : Event}
    (opens : call.Opens opening) (requested : ∀ e ∈ requests, e.isStopRequest = true)
    (answers : call.Answers own) (remarks : ∀ e ∈ later, e.isRemark = true) :
    (opening ++ requests ++ own :: later).filterMap Event.asked = [call] := by
  have silent : requests.filterMap Event.asked = [] :=
    List.filterMap_eq_nil_iff.mpr fun e member => Event.asked_of_stopRequest (requested e member)
  have after : later.filterMap Event.asked = [] :=
    List.filterMap_eq_nil_iff.mpr fun e member => Event.asked_of_remark (remarks e member)
  simp only [List.filterMap_append, List.filterMap_cons, silent, after]
  cases opens <;> cases answers <;> rfl

/-- The events tell of the calls that were made, in order. -/
def RunState.Told (s : RunState (Watched ω)) : Prop :=
  s.world.calls.map Prod.fst = s.events.toList.filterMap Event.asked

/-- The events tell of the calls but for a judgement that may be in flight. -/
def RunState.ToldBut (s : RunState (Watched ω)) (inFlight : List Call) : Prop :=
  s.world.calls.map Prod.fst = s.events.toList.filterMap Event.asked ++ inFlight

theorem Notes.told {p : RunSetup ω} {top : OpenSequence} {s s' : RunState (Watched ω)} (told : s.Told)
    (notes : Notes p.watched top s s') : s'.Told := by
  rw [RunState.Told] at told ⊢
  cases notes with
  | @quiet tells world active events unasked taskless unjudged =>
    have silent : tells.filterMap Event.asked = [] := by
      rw [List.filterMap_eq_nil_iff] at taskless ⊢
      exact fun e member => Event.asked_eq_none (taskless e member) (unjudged e member)
    rw [world, told, events, List.filterMap_append, silent, List.append_nil]
  | @call call opening requests later own asks world active events opens requested heeded answers
      remarks =>
    have after : s'.world.calls = s.world.calls ++ [(call, s.world.world)] := by
      rw [world]
      exact congrArg Watched.calls (p.performer.after_watched call s.world)
    rw [after, List.map_append, told, events, List.filterMap_append,
      Call.told_once opens requested answers remarks]
    rfl

/-- A call was begun, and nothing is told of it but requests to stop. -/
inductive Drops (p : RunSetup ω) (s t : RunState ω) : Prop
  | call {call : Call} {opening requests : List Event}
    (during : t.world ∈ p.performer.seen call s.world) (opens : call.Opens opening)
    (requested : ∀ e ∈ requests, e.isStopRequest = true)
    (events : t.events.toList = s.events.toList ++ (opening ++ requests))

namespace RunSetup

variable {p : RunSetup ω} {s t : RunState ω}

theorem heard_dropped {α : Type} {reply : Reply ω α} (heard : p.heard s reply = (t, none)) :
    t.world ∈ reply.signals.filterMap Signal.world? ∧ ∃ requests, (∀ e ∈ requests, e.isStopRequest = true) ∧
      t.events.toList = s.events.toList ++ requests := by
  obtain ⟨requests, hears⟩ := RunState.hears_hear s p.atPause reply.signals
  refine ⟨heard_abandoned heard, requests, hears.requested, ?_⟩
  rw [RunSetup.heard] at heard
  split at heard
  next same =>
    cases heard
    rw [same] at hears
    exact hears.events
  next => cases heard

theorem judged_dropped {owner : ControlKind} {condition : Option Condition}
    (judged : p.judged s owner condition = (t, none)) : Drops p s t := by
  cases condition with
  | none => cases judged
  | some c =>
    rw [RunSetup.judged] at judged
    split at judged
    next heard =>
      cases judged
      obtain ⟨during, requests, requested, events⟩ := heard_dropped heard
      exact @Drops.call _ _ _ _ (.judge c) _ _ during .judge requested events
    next => cases judged

theorem task_dropped {path : List Nat} {index : Nat} {task : Task}
    (heard : p.heard (p.started s path index (.task task)) (p.performer.perform task s.world) =
      (t, none)) : Drops p s t := by
  obtain ⟨during, requests, requested, events⟩ := heard_dropped heard
  refine @Drops.call _ _ _ _ (.perform task) _ _ during (.perform index (path.headD 0 + 1) p.total)
    requested (events.trans ?_)
  simp [started, RunState.emit]

end RunSetup

/-- That an action is reached is not told. -/
theorem Drops.of_reaching {p : RunSetup ω} {s t : RunState ω} {index : Nat}
    (drops : Drops p (s.reaching index) t) : Drops p s t := by
  cases drops with
  | call during opens requested events => exact .call during opens requested events

/-- A step that abandons the run drops a call. -/
theorem Moves.drops {p : RunSetup ω} {top : OpenSequence} {parents : Stack} {s t : RunState ω}
    (moves : Moves p top parents s (.over .abandoned t)) : Drops p s t := by
  generalize ends : Progress.over .abandoned t = after at moves
  cases moves with
  | stoppedBetween | stopped => cases ends
  | once | countedEnough | countedPass | whileEnough | whileFalse | whilePass => cases ends
  | branchNone | branchTooDeep | branch | whileTooDeep | whileLoop | loopTooDeep | loop => cases ends
  | whileAbandoned _ _ _ _ judged =>
    cases ends
    exact RunSetup.judged_dropped judged
  | branchAbandoned _ _ judged =>
    cases ends
    exact (RunSetup.judged_dropped judged).of_reaching
  | @leaf a x s' here running leaf evaluated =>
    cases x with
    | done | jump => cases ends
    | ends e =>
      cases ends
      cases evaluated with
      | taskAbandoned heard => exact (RunSetup.task_dropped heard).of_reaching
      | task heard outcome =>
        cases RunSetup.answered_settles outcome with
        | goesOn answers tells on => cases on
      | branchAbandoned | branch | whileLoop | loop => simp [Action.isControl] at leaf

/-- The run is told but for a judgement that may be in flight when it is abandoned. -/
theorem RunSetup.keeps_told (p : RunSetup ω) :
    p.watched.Keeps (fun _ s => s.Told) fun ending s =>
      ∃ inFlight, s.ToldBut inFlight ∧ inFlight.length ≤ 1 ∧ (ending ≠ .abandoned → inFlight = []) where
  step := by
    intro top parents s after told moves
    -- a state of which all is told
    have whole {ending : Ending} {t : RunState (Watched ω)} (told : t.Told) : ∃ inFlight,
        t.ToldBut inFlight ∧ inFlight.length ≤ 1 ∧ (ending ≠ .abandoned → inFlight = []) :=
      ⟨[], told.trans (List.append_nil _).symm, Nat.zero_le 1, fun _ => rfl⟩
    rcases moves.notes with ⟨t, rfl⟩ | notes
    · cases moves.drops with
      | @call call opening requests during opens requested events =>
        have silent : requests.filterMap Event.asked = [] :=
          List.filterMap_eq_nil_iff.mpr fun e member => Event.asked_of_stopRequest (requested e member)
        have calls := (Performer.mem_seen_watched during).2
        cases opens with
        | perform index reached total =>
          refine whole ?_
          rw [RunState.Told] at told ⊢
          rw [calls, List.map_append, told, events]
          simp [silent, Event.asked]
        | @judge condition =>
          refine ⟨[.judge condition], ?_, Nat.le_refl 1, fun kept => absurd rfl kept⟩
          rw [RunState.Told] at told
          rw [RunState.ToldBut, calls, List.map_append, told, events]
          simp [silent]
    · have next := notes.told told
      rcases after with ⟨rest, t⟩ | ⟨ending, t⟩
      · exact next
      · exact whole next
  finish := fun _ told => ⟨[], told.trans (List.append_nil _).symm, Nat.zero_le 1, fun _ => rfl⟩

/-! ### Looks at the screen -/

/-- The call looks at the screen: a condition that measures an image, or a task that looks for one. -/
def Call.isImageCheck : Call → Bool
  | .perform (.imageMatch _) => true
  | .judge ⟨.image _, _, _⟩ => true
  | _ => false

/-- A sequence of frames after some captures: what was shown is gone, but the last frame stays. -/
def ScreenSource.shown (frames : List Frame) (captures : Nat) : ScreenSource :=
  .sequence (frames.drop (min captures (frames.length - 1))) captures

/-- The frame that a sequence shows next. -/
theorem ScreenSource.capture_shown {frames : List Frame} (some : 0 < frames.length) (captures : Nat)
    (fs : Files) : (shown frames captures).capture fs =
      (.ok frames[min captures (frames.length - 1)], shown frames (captures + 1)) := by
  by_cases early : captures + 1 < frames.length
  · have here : min captures (frames.length - 1) = captures := by omega
    have next : min (captures + 1) (frames.length - 1) = captures + 1 := by omega
    have first : frames.drop captures =
        frames[captures] :: frames[captures + 1] :: frames.drop (captures + 1 + 1) := by
      rw [List.drop_eq_getElem_cons (by omega), List.drop_eq_getElem_cons early]
    have second := List.drop_eq_getElem_cons early
    simp only [shown, here, next, first, second, capture]
  · have here : min captures (frames.length - 1) = frames.length - 1 := by omega
    have next : min (captures + 1) (frames.length - 1) = frames.length - 1 := by omega
    have last : frames.drop (frames.length - 1) = [frames[frames.length - 1]] := by
      rw [List.drop_eq_getElem_cons (by omega), List.drop_eq_nil_of_le (by omega)]
    simp only [shown, here, next, last, capture]

/-- Image checks capture the screen once and other calls leave it alone; what is seen of the world
during a call, also where it crashes, shows the capture already. -/
structure Performer.Films (performer : Performer ω) (scene : ω → Scene) : Prop where
  looks : ∀ call w, call.isImageCheck = true →
    (scene (performer.after call w)).screen = (scene w).capture.2.screen
  leaves : ∀ call w, call.isImageCheck = false →
    (scene (performer.after call w)).screen = (scene w).screen
  during : ∀ call w seen, seen ∈ performer.seen call w →
    (scene seen).screen = (scene (performer.after call w)).screen

/-- That someone asks the run to stop does not concern the screen. -/
theorem Performer.Films.interrupted {performer : Performer ω} {scene : ω → Scene}
    (films : performer.Films scene) (interrupt : Option Nat) :
    (performer.interrupted interrupt).Films fun w => scene w.2 := by
  constructor
  · intro call w check
    rw [Performer.after_interrupted]
    exact films.looks call w.2 check
  · intro call w other
    rw [Performer.after_interrupted]
    exact films.leaves call w.2 other
  · intro call w seen member
    rw [Performer.seen_interrupted] at member
    obtain ⟨world, during, rfl⟩ := List.mem_map.mp member
    rw [Performer.after_interrupted]
    exact films.during call w.2 world during

/-- How many of the calls look at the screen. -/
def imageChecks (calls : List (Call × ω)) : Nat := calls.countP fun call => call.1.isImageCheck

theorem imageChecks_concat (calls : List (Call × ω)) (call : Call) (w : ω) :
    imageChecks (calls ++ [(call, w)]) = imageChecks calls + if call.isImageCheck then 1 else 0 := by
  simp [imageChecks, List.countP_cons]

/-- The screen has shown its frames to the image checks that were made, one to each; so it had
before every call. -/
structure Watched.Shows (frames : List Frame) (scene : ω → Scene) (w : Watched ω) : Prop where
  before : ∀ i call world, w.calls[i]? = some (call, world) →
    (scene world).screen = .shown frames (imageChecks (w.calls.take i))
  now : (scene w.world).screen = .shown frames (imageChecks w.calls)

namespace Watched.Shows

variable {frames : List Frame} {scene : ω → Scene} {performer : Performer ω} {w w' : Watched ω}
  {call : Call}

/-- A call that was made is written down, and the screen is as the call leaves it. -/
theorem made (some : 0 < frames.length) (films : performer.Films scene) (shows : w.Shows frames scene)
    (calls : w'.calls = w.calls ++ [(call, w.world)])
    (screen : (scene w'.world).screen = (scene (performer.after call w.world)).screen) :
    w'.Shows frames scene := by
  constructor
  · intro i call' world here
    rw [calls] at here ⊢
    rcases Nat.lt_or_ge i w.calls.length with early | late
    · rw [List.getElem?_append_left early] at here
      rw [List.take_append_of_le_length (Nat.le_of_lt early)]
      exact shows.before i call' world here
    · have last : i = w.calls.length := by
        have inside := (List.getElem?_eq_some_iff.mp here).1
        simp only [List.length_append, List.length_cons, List.length_nil] at inside
        omega
      subst last
      simp only [List.getElem?_concat_length, Option.some.injEq, Prod.mk.injEq] at here
      obtain ⟨-, rfl⟩ := here
      rw [List.take_left]
      exact shows.now
  · rw [screen, calls, imageChecks_concat]
    rcases check : call.isImageCheck with _ | _
    · rw [films.leaves call w.world check]
      exact shows.now
    · have captured : (scene w.world).capture.2.screen =
          ((scene w.world).screen.capture (scene w.world).files).2 := rfl
      rw [films.looks call w.world check, captured, shows.now, ScreenSource.capture_shown some]
      rfl

theorem after (some : 0 < frames.length) (films : performer.Films scene) (shows : w.Shows frames scene)
    (call : Call) : (performer.watched.after call w).Shows frames scene := by
  rw [Performer.after_watched]
  exact shows.made some films rfl rfl

/-- A run that is let go during a call has made it. -/
theorem dropped (some : 0 < frames.length) (films : performer.Films scene) (shows : w.Shows frames scene)
    (during : w' ∈ performer.watched.seen call w) : w'.Shows frames scene := by
  obtain ⟨seen, calls⟩ := Performer.mem_seen_watched during
  exact shows.made some films calls (films.during call w.world w'.world seen)

end Watched.Shows

/-- The events of a run tell of its calls, and its screen has shown its frames to the image checks
among them. -/
theorem RunSetup.keeps_shows {p : RunSetup ω} {frames : List Frame} {scene : ω → Scene}
    (some : 0 < frames.length) (films : p.performer.Films scene) :
    p.watched.Keeps (fun _ s => s.world.Shows frames scene) fun _ s => s.world.Shows frames scene where
  step := by
    intro top parents s after shows moves
    rcases moves.notes with ⟨t, rfl⟩ | notes
    · cases moves.drops with
      | call during => exact shows.dropped some films during
    · have next : after.state.world.Shows frames scene := by
        cases notes with
        | quiet world =>
          rw [world]
          exact shows
        | @call call _ _ _ _ _ world =>
          rw [world]
          exact shows.after some films call
      rcases after with ⟨rest, t⟩ | ⟨ending, t⟩
      · exact next
      · exact next
  finish := fun _ shows => shows

/-! ### The desktop -/

/-- A search leaves the screen alone. -/
theorem Scene.screen_matchImage (s : Scene) (check : ImageCheck) (frame : Frame) :
    (s.matchImage check frame).world.screen = s.screen ∧
      ∀ seen ∈ (s.matchImage check frame).signals.filterMap Signal.world?, seen.screen = s.screen := by
  unfold matchImage
  split
  · exact ⟨rfl, by simp⟩
  · refine ⟨rfl, fun seen during => ?_⟩
    obtain ⟨signal, member, looked⟩ := List.mem_filterMap.mp during
    rw [List.eq_of_mem_replicate member] at looked
    cases looked
    rfl

namespace Desktop

variable {c : Context Desktop}

/-- How a call leaves the screen, and how it is seen meanwhile. -/
def Leaves {α : Type} (reply : Reply (Context Desktop) α) (screen : ScreenSource) : Prop :=
  reply.world.scene.screen = screen ∧
    ∀ seen ∈ reply.signals.filterMap Signal.world?, seen.scene.screen = screen

theorem leaves_matchInScene (check : ImageCheck) (frame : Frame) (c : Context Desktop) :
    Leaves (Executor.matchInScene check frame c) c.scene.screen := by
  obtain ⟨after, during⟩ := Scene.screen_matchImage c.scene check frame
  refine ⟨after, fun seen member => ?_⟩
  rw [Executor.matchInScene, Reply.seen_mapWorld] at member
  obtain ⟨scene, looked, rfl⟩ := List.mem_map.mp member
  exact during scene looked

/-- What is seen while an activity crashes is the world that it leaves behind. -/
theorem seen_lastSignals {α ω : Type} {world seen : ω} {result : Except DesktopError α}
    (during : seen ∈ (lastSignals world result).filterMap Signal.world?) : seen = world := by
  rcases result with (_ | _ | _) | _
  case error.overflow => exact List.mem_singleton.mp during
  all_goals cases during

/-- What is done on the desktop leaves the scene alone. -/
theorem leaves_inContext {α β : Type} (activity : Activity α) (next : α → β) (c : Context Desktop) :
    Leaves (inContext activity next c) c.scene.screen := by
  refine ⟨rfl, fun seen member => ?_⟩
  rcases came : (activity.run.run c.executor).run #[] with ⟨⟨result, executor⟩, asleep⟩
  simp only [inContext, came, List.filterMap_append, List.mem_append] at member
  rcases member with slept | last
  · rw [List.filterMap_map, List.mem_filterMap] at slept
    obtain ⟨_, _, same⟩ := slept
    cases same
    rfl
  · rw [seen_lastSignals last]

/-- A reply that comes at once. -/
theorem leaves_still {α : Type} (result : α) (c : Context Desktop) :
    Leaves { result, world := c } c.scene.screen :=
  ⟨rfl, by simp⟩

theorem leaves_perform (task : Task) (c : Context Desktop) : Leaves (perform task c)
    (if (Call.perform task).isImageCheck then c.scene.capture.2.screen else c.scene.screen) := by
  cases task with
  | click | drag | input | key | wait | log => exact leaves_inContext _ _ c
  | soundCheck => exact leaves_still _ c
  | imageMatch check =>
    simp only [perform, matchOnScreen, Call.isImageCheck, if_true]
    rcases c.scene.capture with ⟨error | frame, scene⟩
    · exact leaves_still _ { c with scene }
    · exact leaves_matchInScene check frame { c with scene }

theorem leaves_judge (condition : Condition) (c : Context Desktop) : Leaves (executor.judge condition c)
    (if (Call.judge condition).isImageCheck then c.scene.capture.2.screen else c.scene.screen) := by
  obtain ⟨measure, operator, value⟩ := condition
  cases measure with
  | image check =>
    simp only [Executor.judge, Executor.assess, executor, Call.isImageCheck, if_true]
    rcases c.scene.capture with ⟨error | frame, scene⟩
    · exact leaves_still _ { c with scene }
    · exact leaves_matchInScene check frame { c with scene }
  | sound => exact leaves_still _ c
  | system probe =>
    exact leaves_inContext (measure probe)
      (fun value => ({ success := true, value := some value } : ProbeReading)) c

theorem films : executor.performer.Films Context.scene where
  looks := by
    intro call c check
    cases call with
    | perform task => exact (leaves_perform task c).1.trans (if_pos check)
    | judge condition => exact (leaves_judge condition c).1.trans (if_pos check)
  leaves := by
    intro call c other
    cases call with
    | perform task => exact (leaves_perform task c).1.trans (if_neg (by simp [other]))
    | judge condition => exact (leaves_judge condition c).1.trans (if_neg (by simp [other]))
  during := by
    intro call c seen member
    cases call with
    | perform task => exact ((leaves_perform task c).2 seen member).trans (leaves_perform task c).1.symm
    | judge condition =>
      exact ((leaves_judge condition c).2 seen member).trans (leaves_judge condition c).1.symm

/-- The same context before a screen that always shows one frame. -/
def before (frame : Frame) (c : Context Desktop) : Context Desktop :=
  { c with scene := { c.scene with screen := .still frame } }

/-- The call is answered as it is before the frame. -/
def LooksAt (frame : Frame) (c : Context Desktop) : Call → Prop
  | .perform task => (perform task c).result = (perform task (before frame c)).result
  | .judge condition => (executor.judge condition c).result = (executor.judge condition (before frame c)).result

/-- Which screen it is does not matter to a search. -/
theorem result_matchInScene (check : ImageCheck) (frame : Frame) (c : Context Desktop)
    (screen : ScreenSource) :
    (Executor.matchInScene check frame { c with scene := { c.scene with screen } }).result =
      (Executor.matchInScene check frame c).result := by
  simp only [Executor.matchInScene, Reply.mapWorld, Scene.matchImage]
  split <;> rfl

/-- A check looks at the frame that it captures. -/
theorem looksAt_of_capture {frame : Frame} {call : Call} (check : call.isImageCheck = true)
    (captured : c.scene.capture.1 = .ok frame) : LooksAt frame c call := by
  obtain ⟨screen, shown⟩ : ∃ screen, c.scene.capture = (.ok frame, { c.scene with screen }) :=
    ⟨_, Prod.ext captured rfl⟩
  have still : (before frame c).scene.capture = (.ok frame, { c.scene with screen := .still frame }) := rfl
  cases call with
  | perform task =>
    cases task with
    | imageMatch look =>
      simp only [LooksAt, perform, matchOnScreen, shown, still]
      dsimp only [before]
      rw [result_matchInScene look frame c screen, result_matchInScene look frame c (.still frame)]
    | _ => cases check
  | judge condition =>
    obtain ⟨measure, operator, value⟩ := condition
    cases measure with
    | image look =>
      simp only [LooksAt, Executor.judge, Executor.assess, executor, shown, still]
      dsimp only [before]
      rw [result_matchInScene look frame c screen, result_matchInScene look frame c (.still frame)]
    | _ => cases check

/-- What a run over a sequence of frames captures; `context` is the desktop in its world. -/
structure Captures (frames : List Frame) (context : ω → Context Desktop) (calls : List (Call × ω))
    (record : RunRecord ω) : Prop where
  /-- When a call is made, there was one capture for each image check before it and no other. -/
  made : ∀ i call world, calls[i]? = some (call, world) →
    (context world).scene.screen = .shown frames (imageChecks (calls.take i))
  /-- The image check after `k` others looks at the frame at position `k`, or else at the last. -/
  sees : ∀ i call world, calls[i]? = some (call, world) → call.isImageCheck = true →
    ∃ frame, frames[min (imageChecks (calls.take i)) (frames.length - 1)]? = some frame ∧
      (context world).scene.capture.1 = .ok frame ∧ LooksAt frame (context world) call
  /-- In the end there was one capture for each image check. -/
  total : (context record.world).scene.screen = .shown frames (imageChecks calls)
  /-- The calls are those that the events tell of, in order; only of a judgement during which the
  run was abandoned nothing is told. -/
  told : ∃ inFlight, calls.map Prod.fst = record.events.toList.filterMap Event.asked ++ inFlight ∧
    inFlight.length ≤ 1 ∧ (record.result.isSome = true → inFlight = [])

/-- The captures of a run that has ended can be counted in its events. -/
theorem Captures.count_told {frames : List Frame} {context : ω → Context Desktop}
    {calls : List (Call × ω)} {record : RunRecord ω} (captures : Captures frames context calls record)
    (ended : record.result.isSome = true) : (context record.world).scene.screen =
      .shown frames ((record.events.toList.filterMap Event.asked).countP Call.isImageCheck) := by
  obtain ⟨inFlight, told, -, nothing⟩ := captures.told
  rw [nothing ended, List.append_nil] at told
  rw [captures.total, ← told, List.countP_map]
  rfl

/-- A run by a performer that captures the screen as the desktop does. -/
theorem captures_of_films {e : Engine} {performer : Performer ω} {context : ω → Context Desktop}
    {actions : List Action} {world : ω} {frames : List Frame} {atPause : AtPause} {fuel : Nat}
    {record : RunRecord ω} (films : performer.Films fun w => (context w).scene)
    (some : 0 < frames.length) (screen : (context world).scene.screen = .ofFrames frames)
    (ran : e.execute performer actions world atPause fuel = .ran record) :
    ∃ seen, e.execute performer.watched actions ⟨world, []⟩ atPause fuel = .ran seen ∧
      seen.unwatched = record ∧ Captures frames context seen.world.calls record := by
  obtain ⟨seen, watched, rfl⟩ := Engine.execute_watched.mp ran
  obtain ⟨run, control, ⟨ending, s⟩, accepted, walked, rfl⟩ := Engine.ran_iff.mp watched
  have begun := Stack.begun_once actions
  have opening : (⟨world, []⟩ : Watched ω).Shows frames fun w => (context w).scene := by
    refine ⟨fun i call w here => by simp at here, screen.trans ?_⟩
    simp [ScreenSource.ofFrames, ScreenSource.shown, imageChecks]
  have shows : s.world.Shows frames fun w => (context w).scene :=
    (RunSetup.keeps_shows (p := e.setup performer actions run atPause) some films).walked walked begun
      opening
  obtain ⟨inFlight, told, one, nothing⟩ :=
    (RunSetup.keeps_told (e.setup performer actions run atPause)).walked walked begun rfl
  have closed : (e.close (ending, s)).world = s.world ∧
      (e.close (ending, s)).events.toList.filterMap Event.asked = s.events.toList.filterMap Event.asked ∧
      ((e.close (ending, s)).result.isSome = true → ending ≠ .abandoned) := by
    cases ending <;> simp [Engine.close, Event.asked]
  obtain ⟨sameWorld, sameEvents, kept⟩ := closed
  refine ⟨_, watched, rfl, ?_⟩
  rw [sameWorld]
  refine ⟨shows.before, ?_, ?_, inFlight, ?_, one, fun ended => nothing (kept ended)⟩
  · intro i call w here check
    have inside : min (imageChecks (s.world.calls.take i)) (frames.length - 1) < frames.length := by omega
    have captured : (context w).scene.capture.1 = .ok frames[min (imageChecks (s.world.calls.take i))
        (frames.length - 1)] := by
      have source : (context w).scene.capture.1 =
          ((context w).scene.screen.capture (context w).scene.files).1 := rfl
      rw [source, shows.before i call w here, ScreenSource.capture_shown some]
    exact ⟨_, List.getElem?_eq_getElem inside, captured, looksAt_of_capture check captured⟩
  · exact (congrArg (fun w : Watched ω => (context w.world).scene.screen) sameWorld).trans shows.now
  · exact told.trans (congrArg (· ++ inFlight) sameEvents.symm)

/-- A run over a sequence of frames captures one frame for each image check, whoever asks it to stop
meanwhile and whether or not it is abandoned: the checks see the frames one by one, in the order in
which the events tell of them, and then the last frame again and again. -/
theorem execute_captures {e : Engine} {actions : List Action} {c : Context Desktop}
    {frames : List Frame} {interrupt : Option Nat} {atPause : AtPause} {fuel : Nat}
    {record : RunRecord (Nat × Context Desktop)} (some : 0 < frames.length)
    (screen : c.scene.screen = .ofFrames frames)
    (ran : e.execute (executor.performer.interrupted interrupt) actions (0, c) atPause fuel =
      .ran record) :
    ∃ seen, e.execute (executor.performer.interrupted interrupt).watched actions ⟨(0, c), []⟩ atPause
        fuel = .ran seen ∧
      seen.unwatched = record ∧ Captures frames Prod.snd seen.world.calls record :=
  captures_of_films (films.interrupted interrupt) some screen ran

/-- A look for a dot. -/
def look : ImageCheck := ⟨"dot", none, none, false, none, none⟩

/-- The dot, another picture, and the dot again. -/
def threeFrames : List Frame := [⟨1, 1, .gray, #[10]⟩, ⟨1, 1, .gray, #[200]⟩, ⟨1, 1, .gray, #[10]⟩]

/-- A screen that shows the frames, with a clock on which the first search has no time left. -/
def watchful : Context Desktop where
  executor := { dryRun := true }
  scene :=
    { screen := .ofFrames threeFrames
      templates := [("dot", ⟨⟨1, 1, .gray, #[10]⟩, none⟩)]
      clock := fun search => ⟨20000 * search, fun _ => if search = 0 then 10000 else 5, 20000 * search + 5⟩ }

/-- One look in a branch, two in the passes of a loop and one in a leaf. -/
def looking : List Action :=
  [.branch (some ⟨.image look, none, none⟩) [.fail none]
      (some [.loop 2 [.repeatWhile (some ⟨.image look, none, none⟩) [.test none] (some 1)]]),
    .task (.log .info "seen"), .task (.imageMatch look), .test none]

/-- The first look has no time for the dot and the second sees the other picture. The last two look at
the last frame: the third finds the dot and the fourth remembers it. -/
theorem execute_captures_looking :
    ∃ (record : RunRecord (Nat × Context Desktop)) (seen : RunRecord (Watched (Nat × Context Desktop))),
      Engine.execute {} (executor.performer.interrupted none) looking (0, watchful) .goOn 20 =
        .ran record ∧
      (∃ result, record.result = some result ∧ result.report.completed = 4) ∧
      Captures threeFrames Prod.snd seen.world.calls record ∧
      record.world.2.scene.screen = .sequence [⟨1, 1, .gray, #[10]⟩] 4 := by
  have told : (Engine.execute {} (executor.performer.interrupted none) looking (0, watchful) .goOn
      20).record?.map (fun record => (record.result.map (·.report.completed),
        (record.events.toList.filterMap Event.asked).countP Call.isImageCheck)) = some (some 4, 4) := by
    decide +kernel
  obtain ⟨record, recorded, told⟩ := Option.map_eq_some_iff.mp told
  obtain ⟨completed, checks⟩ := Prod.mk.inj told
  obtain ⟨result, ended, completed⟩ := Option.map_eq_some_iff.mp completed
  have ran := Attempt.record?_eq_some.mp recorded
  obtain ⟨seen, -, -, captures⟩ := execute_captures (by decide) rfl ran
  have screen := captures.count_told (by rw [ended]; rfl)
  rw [checks] at screen
  exact ⟨record, seen, ran, ⟨result, ended, completed⟩, captures, screen⟩

end Desktop

end Screenplay
