import Screenplay.Proofs.Calls
import Screenplay.Proofs.Nesting

/-!
Runs that mirror each other. Two performers that answer alike whatever a run asks of them lead it
through the same steps, so that it tells the same, reports the same and leaves worlds behind that are
alike (`Engine.execute_alike`). What tells the worlds apart does not show.
-/
namespace Screenplay

variable {ω ω' α : Type}

/-- What two runs are compared by. -/
structure Likeness (ω ω' : Type) where
  worlds : ω → ω' → Prop
  /-- What the caller sees at the first pause is compared as well. -/
  pauses : Prop

variable {like : Likeness ω ω'}

/-- The states differ at most in what does not count. -/
structure RunState.Alike (like : Likeness ω ω') (s : RunState ω) (s' : RunState ω') : Prop where
  world : like.worlds s.world s'.world
  control : s'.control = s.control
  report : s'.report = s.report
  events : s'.events = s.events
  paused : like.pauses → s'.paused = s.paused

/-- What happens during two calls is heard alike. Where pauses do not count, there may be one during
only one of the calls; what comes after a crash is not heard at all. -/
inductive Signals.Alike (like : Likeness ω ω') : List (Signal ω) → List (Signal ω') → Prop where
  | nil : Alike like [] []
  | stop {rest rest'} (later : Alike like rest rest') : Alike like (.stop :: rest) (.stop :: rest')
  | pause {world world' rest rest'} (worlds : like.worlds world world') (later : Alike like rest rest') :
    Alike like (.pause world :: rest) (.pause world' :: rest')
  | crash {world world' rest rest'} (worlds : like.worlds world world') :
    Alike like (.crash world :: rest) (.crash world' :: rest')
  | left {world rest signals'} (overlooked : ¬ like.pauses) (later : Alike like rest signals') :
    Alike like (.pause world :: rest) signals'
  | right {signals world' rest'} (overlooked : ¬ like.pauses) (later : Alike like signals rest') :
    Alike like signals (.pause world' :: rest')

/-- The replies give the same result, leave worlds behind that are alike, and what happens meanwhile is
heard alike. -/
structure Reply.Alike (like : Likeness ω ω') (r : Reply ω α) (r' : Reply ω' α) : Prop where
  result : r'.result = r.result
  world : like.worlds r.world r'.world
  signals : Signals.Alike like r.signals r'.signals

/-- The same comes after a step, in states that are alike. -/
inductive Progress.Alike (like : Likeness ω ω') : Progress ω → Progress ω' → Prop where
  | more {stack s s'} (states : s.Alike like s') : Alike like (.more stack s) (.more stack s')
  | over {ending s s'} (states : s.Alike like s') : Alike like (.over ending s) (.over ending s')

/-! ### What keeps states alike -/

namespace RunState.Alike

variable {s : RunState ω} {s' : RunState ω'}

theorem emit (alike : s.Alike like s') (e : Event) : (s.emit e).Alike like (s'.emit e) :=
  { alike with events := by rw [RunState.emit, RunState.emit, alike.events] }

theorem reporting {report report' : Report} (alike : s.Alike like s') (same : report' = report) :
    ({ s with report } : RunState ω).Alike like { s' with report := report' } :=
  { alike with report := same }

theorem record (alike : s.Alike like s') (path : List Nat) (a : Action) (status : ActionStatus)
    (error : Option String) : (s.record path a status error).Alike like (s'.record path a status error) :=
  alike.reporting (congrArg (Report.record · path a.kind status error) alike.report)

theorem stop (alike : s.Alike like s') (index : Nat) : (s.stop index).Alike like (s'.stop index) :=
  (alike.reporting (congrArg Report.markStopped alike.report)).emit (.stopped index)

theorem terminate (alike : s.Alike like s') (index : Nat) (reason : String) :
    (s.terminate index reason).Alike like (s'.terminate index reason) :=
  (alike.reporting (congrArg (Report.markTerminated · reason) alike.report)).emit (.terminated index reason)

theorem reaching (alike : s.Alike like s') (index : Nat) :
    (s.reaching index).Alike like (s'.reaching index) :=
  { alike with control := by rw [RunState.reaching, RunState.reaching, alike.control] }

theorem inWorld {world : ω} {world' : ω'} (alike : s.Alike like s') (worlds : like.worlds world world') :
    ({ s with world } : RunState ω).Alike like { s' with world := world' } :=
  { alike with world := worlds }

theorem requestStop (alike : s.Alike like s') : s.requestStop.Alike like s'.requestStop := by
  rw [RunState.requestStop, RunState.requestStop, alike.control]
  rcases s.control.requestStop with ⟨_ | index, control⟩
  · exact alike
  · have asked : ({ s with control } : RunState ω).Alike like { s' with control } :=
      { alike with control := rfl }
    exact asked.emit (.stopRequested index)

end RunState.Alike

/-! ### What happens during a call -/

/-- A pause at which the caller goes on is noted at most. -/
theorem RunState.hear_goOn (s : RunState ω) (world : ω) (rest : List (Signal ω)) :
    ∃ paused, s.hear .goOn (.pause world :: rest) = ({ s with paused } : RunState ω).hear .goOn rest := by
  rw [hear]
  split
  · exact ⟨s.paused, rfl⟩
  · exact ⟨some s.control, rfl⟩

/-- What is alike is heard alike, if the caller goes on over the pauses when these do not count. -/
theorem RunState.Alike.hear {s : RunState ω} {s' : RunState ω'} {signals : List (Signal ω)}
    {signals' : List (Signal ω')} {atPause : AtPause} (alike : s.Alike like s')
    (same : Signals.Alike like signals signals') (goesOn : ¬ like.pauses → atPause = .goOn) :
    (s.hear atPause signals).1.Alike like (s'.hear atPause signals').1 ∧
      Option.Rel like.worlds (s.hear atPause signals).2 (s'.hear atPause signals').2 := by
  have unseen {s : RunState ω} {s' : RunState ω'} (overlooked : ¬ like.pauses) (alike : s.Alike like s')
      (paused paused' : Option Control) :
      ({ s with paused } : RunState ω).Alike like { s' with paused := paused' } :=
    { alike with paused := fun counts => absurd counts overlooked }
  induction same generalizing s s' with
  | nil => exact ⟨alike, .none⟩
  | stop _ ih => exact ih alike.requestStop
  | crash worlds => exact ⟨alike, .some worlds⟩
  | @left world rest signals' overlooked _ ih =>
    obtain rfl := goesOn overlooked
    obtain ⟨paused, hears⟩ := s.hear_goOn world rest
    rw [hears]
    exact ih (unseen overlooked alike paused s'.paused)
  | @right signals world' rest' overlooked _ ih =>
    obtain rfl := goesOn overlooked
    obtain ⟨paused', hears⟩ := s'.hear_goOn world' rest'
    rw [hears]
    exact ih (unseen overlooked alike s.paused paused')
  | @pause world world' rest rest' worlds _ ih =>
    by_cases counts : like.pauses
    · rw [RunState.hear, RunState.hear, alike.paused counts]
      by_cases seen : s.paused.isSome
      · rw [if_pos seen, if_pos seen]
        exact ih alike
      rw [if_neg seen, if_neg seen]
      have looked : ({ s with paused := some s.control } : RunState ω).Alike like
          { s' with paused := some s'.control } :=
        { alike with paused := fun _ => by rw [alike.control] }
      cases atPause with
      | goOn => exact ih looked
      | stop => exact ih looked.requestStop
      | abandon => exact ⟨looked, .some worlds⟩
    · obtain rfl := goesOn counts
      obtain ⟨paused, hears⟩ := s.hear_goOn world rest
      obtain ⟨paused', hears'⟩ := s'.hear_goOn world' rest'
      rw [hears, hears']
      exact ih (unseen counts alike paused paused')

namespace Signals.Alike

variable {ω₀ ω₀' : Type} {like₀ : Likeness ω₀ ω₀'} {signals later : List (Signal ω)}
  {signals' later' : List (Signal ω')}

theorem append (first : Alike like signals signals') (last : Alike like later later') :
    Alike like (signals ++ later) (signals' ++ later') := by
  induction first with
  | nil => exact last
  | stop _ ih => exact .stop ih
  | pause worlds _ ih => exact .pause worlds ih
  | crash worlds => exact .crash worlds
  | left overlooked _ ih => exact .left overlooked ih
  | right overlooked _ ih => exact .right overlooked ih

/-- The same in larger worlds. -/
theorem map {signals : List (Signal ω₀)} {signals' : List (Signal ω₀')} {f : ω₀ → ω} {g : ω₀' → ω'}
    (alike : Alike like₀ signals signals') (pauses : like.pauses → like₀.pauses)
    (worlds : ∀ w w', like₀.worlds w w' → like.worlds (f w) (g w')) :
    Alike like (signals.map (Signal.mapWorld f)) (signals'.map (Signal.mapWorld g)) := by
  induction alike with
  | nil => exact .nil
  | stop _ ih => exact .stop ih
  | pause before _ ih => exact .pause (worlds _ _ before) ih
  | crash before => exact .crash (worlds _ _ before)
  | left overlooked _ ih => exact .left (fun counts => overlooked (pauses counts)) ih
  | right overlooked _ ih => exact .right (fun counts => overlooked (pauses counts)) ih

/-- The same happens in two worlds that hold the world of the call. -/
theorem mapped {f : ω₀ → ω} {g : ω₀ → ω'} (worlds : ∀ w, like.worlds (f w) (g w))
    (signals : List (Signal ω₀)) :
    Alike like (signals.map (Signal.mapWorld f)) (signals.map (Signal.mapWorld g)) := by
  induction signals with
  | nil => exact .nil
  | cons signal rest ih =>
    cases signal with
    | pause world => exact .pause (worlds world) ih
    | stop => exact .stop ih
    | crash world => exact .crash (worlds world)

/-- Where pauses do not count, a call with pauses only is as good as any other. -/
theorem of_pauses (overlooked : ¬ like.pauses) (worlds : List ω) (worlds' : List ω') :
    Alike like (worlds.map .pause) (worlds'.map .pause) := by
  induction worlds with
  | cons world rest ih => exact .left overlooked ih
  | nil =>
    induction worlds' with
    | cons world' rest' ih => exact .right overlooked ih
    | nil => exact .nil

end Signals.Alike

/-- Worlds that count the calls of a run are compared by their counts as well. -/
def Likeness.counted (like : Likeness ω ω') : Likeness (Nat × ω) (Nat × ω') where
  worlds w w' := w'.1 = w.1 ∧ like.worlds w.2 w'.2
  pauses := like.pauses

namespace Reply

/-- A reply in two larger worlds. -/
theorem mapWorld_alike {ω₀ : Type} (r : Reply ω₀ α) {f : ω₀ → ω} {g : ω₀ → ω'}
    (worlds : ∀ w, like.worlds (f w) (g w)) : (r.mapWorld f).Alike like (r.mapWorld g) :=
  ⟨rfl, worlds r.world, .mapped worlds r.signals⟩

namespace Alike

variable {r : Reply ω α} {r' : Reply ω' α}

/-- A reply that comes at once. -/
theorem still {result : α} {world : ω} {world' : ω'} (worlds : like.worlds world world') :
    ({ result, world } : Reply ω α).Alike like { result, world := world' } :=
  ⟨rfl, worlds, .nil⟩

/-- What is read off the results does not tell the replies apart. -/
theorem answering {β : Type} {b b' : β} (alike : r.Alike like r') (same : b' = b) :
    ({ r with result := b } : Reply ω β).Alike like { r' with result := b' } :=
  { alike with result := same }

/-- Requests to stop that come with the call of a number come with both replies. -/
theorem counted (alike : r.Alike like r') (call : Nat) (interrupt : Option Nat) :
    (r.counted call interrupt).Alike like.counted (r'.counted call interrupt) := by
  have told : Signals.Alike like.counted
      (r.signals.map (Signal.mapWorld fun world => (call + 1, world)))
      (r'.signals.map (Signal.mapWorld fun world => (call + 1, world))) :=
    alike.signals.map id fun _ _ worlds => ⟨rfl, worlds⟩
  rw [Reply.counted, Reply.counted]
  split
  · exact ⟨alike.result, ⟨rfl, alike.world⟩, told.append (.stop .nil)⟩
  · exact ⟨alike.result, ⟨rfl, alike.world⟩, told⟩

end Alike

end Reply

/-! ### Steps -/

/-- The setups differ in their performers, which answer alike in these worlds, whatever the sequence
asks for. -/
structure RunSetup.Mirrors (like : Likeness ω ω') (p : RunSetup ω) (p' : RunSetup ω')
    (q : OpenSequence) (w : ω) (w' : ω') : Prop where
  options : p'.options = p.options
  total : p'.total = p.total
  run : p'.run = p.run
  atPause : p'.atPause = p.atPause
  goesOn : ¬ like.pauses → p.atPause = .goOn
  perform : ∀ task, q.Asks (.perform task) →
    (p.performer.perform task w).Alike like (p'.performer.perform task w')
  judge : ∀ condition, q.Asks (.judge condition) →
    (p.performer.judge condition w).Alike like (p'.performer.judge condition w')

namespace RunSetup

variable {p : RunSetup ω} {p' : RunSetup ω'} {s : RunState ω} {s' : RunState ω'}
  {top : OpenSequence} {parents : Stack}

namespace Mirrors

theorem hearing {reply : Reply ω α} {reply' : Reply ω' α} {next : RunState ω → α → Progress ω}
    {next' : RunState ω' → α → Progress ω'} (atPause : p'.atPause = p.atPause)
    (goesOn : ¬ like.pauses → p.atPause = .goOn) (alike : s.Alike like s')
    (replies : reply.Alike like reply')
    (after : ∀ s s' a, s.Alike like s' → (next s a).Alike like (next' s' a)) :
    (p.hearing s reply next).Alike like (p'.hearing s' reply' next') := by
  obtain ⟨states, worlds⟩ := alike.hear replies.signals goesOn
  rw [RunSetup.hearing, RunSetup.hearing, atPause]
  rcases hears : s.hear p.atPause reply.signals with ⟨t, _ | world⟩ <;>
    rcases hears' : s'.hear p.atPause reply'.signals with ⟨t', _ | world'⟩ <;>
    rw [hears, hears'] at worlds states
  · rw [replies.result]
    exact after _ _ _ (states.inWorld replies.world)
  · cases worlds
  · cases worlds
  · cases worlds with
    | some worlds => exact .over (states.inWorld worlds)

theorem judging {owner : ControlKind} {condition : Option Condition} {next : RunState ω → Bool → Progress ω}
    {next' : RunState ω' → Bool → Progress ω'} (mirrors : Mirrors like p p' top s.world s'.world)
    (alike : s.Alike like s') (asks : ∀ c, condition = some c → top.Asks (.judge c))
    (after : ∀ s s' a, s.Alike like s' → (next s a).Alike like (next' s' a)) :
    (p.judging s owner condition next).Alike like (p'.judging s' owner condition next') := by
  cases condition with
  | none => exact after _ _ _ (alike.emit _)
  | some c =>
    rw [RunSetup.judging, RunSetup.judging]
    apply hearing mirrors.atPause mirrors.goesOn alike (mirrors.judge c (asks c rfl))
    intro t t' result states
    exact after _ _ _ (states.emit _)

theorem enter (options : p'.options = p.options) (alike : s.Alike like s') (stack : Stack)
    (inner : OpenSequence) : (p.enter s stack inner).Alike like (p'.enter s' stack inner) := by
  rw [RunSetup.enter, RunSetup.enter, options]
  split
  · exact .over alike
  · exact .more alike

theorem turn (mirrors : Mirrors like p p' top s.world s'.world) (alike : s.Alike like s') :
    (p.turn s top parents).Alike like (p'.turn s' top parents) := by
  rcases kind : top.passes with _ | ⟨count, made⟩ | ⟨condition, most, made⟩
  · rw [turn_once kind, turn_once kind]
    exact .more alike
  · rw [turn_counted kind, turn_counted kind]
    split
    · exact .more alike
    · exact .more (alike.emit _)
  · simp only [RunSetup.turn, kind]
    split
    · exact .more alike
    · apply mirrors.judging alike
      · rintro c rfl
        exact .pass kind
      · intro t t' result states
        cases result with
        | true => exact .more (states.emit _)
        | false => exact .more states

theorem settle (options : p'.options = p.options) (alike : s.Alike like s') (index : Nat) (task : Task)
    (answer : Except String Outcome) :
    (p.settle s top parents index task answer).Alike like
      (p'.settle s' top parents index task answer) := by
  cases answer with
  | error error => exact .over ((alike.record _ _ _ _).emit _)
  | ok outcome =>
    obtain ⟨success, error, jumpTo, terminate⟩ := outcome
    simp only [RunSetup.settle, options]
    cases success with
    | true =>
      have told := (alike.record (Stack.path (top :: parents)) (.task task) .completed none).emit
        (.actionComplete index (.task task))
      cases terminate with
      | true => exact .over (told.terminate _ _)
      | false => cases jumpTo <;> exact .more told
    | false =>
      have told := (alike.record (Stack.path (top :: parents)) (.task task) .failed
        (some (error.getD defaultFailure))).emit
          (.actionFailed index (.task task) (error.getD defaultFailure))
      cases terminate with
      | true =>
        simp only [Bool.not_true, Bool.and_false]
        exact .over (told.terminate _ _)
      | false =>
        split
        · exact .over told
        · cases jumpTo <;> exact .more told

theorem begin (total : p'.total = p.total) (alike : s.Alike like s') (stack : Stack) (index : Nat)
    (a : Action) : (p.begin s stack index a).Alike like (p'.begin s' stack index a) := by
  rw [RunSetup.begin, RunSetup.begin, total]
  exact alike.emit _

/-- The action at which a sequence stands is executed alike. -/
theorem execute {a : Action} (mirrors : Mirrors like p p' top s.world s'.world)
    (alike : s.Alike like s') (here : top.actions[top.next]? = some a) (after : OpenSequence)
    (index : Nat) :
    (p.execute s after parents index a).Alike like (p'.execute s' after parents index a) := by
  cases a with
  | branch condition thenActions elseActions =>
    simp only [RunSetup.execute]
    apply mirrors.judging alike
    · rintro c rfl
      exact .branch here
    · intro t t' result states
      split
      · exact .more states
      · exact enter mirrors.options states _ _
  | repeatWhile condition body maxIterations =>
    rw [execute_while, execute_while, mirrors.options]
    exact enter mirrors.options alike _ _
  | loop count body => exact enter mirrors.options alike _ _
  | skip reason => exact .more (((begin mirrors.total alike _ _ _).record _ _ _ _).emit _)
  | fail message =>
    exact .over ((((begin mirrors.total alike _ _ _).record _ _ _ _).emit _).terminate _ _)
  | test name => exact .more (((begin mirrors.total alike _ _ _).record _ _ _ _).emit _)
  | task task =>
    simp only [RunSetup.execute]
    apply hearing mirrors.atPause mirrors.goesOn (begin mirrors.total alike _ _ _)
      (mirrors.perform task (.task here))
    intro t t' answer states
    exact settle mirrors.options states index task answer

/-- A step leads to the same. -/
theorem step (mirrors : Mirrors like p p' top s.world s'.world) (alike : s.Alike like s') :
    (p.step (top :: parents) s).Alike like (p'.step (top :: parents) s') := by
  rcases here : top.actions[top.next]? with _ | a
  · have behind := List.getElem?_eq_none_iff.mp here
    rw [step_exhausted behind, step_exhausted behind, alike.control, mirrors.run]
    split
    · exact .over (alike.stop _)
    · exact mirrors.turn alike
  · rw [step_action here, step_action here, alike.control, mirrors.run]
    split
    · exact .over (alike.stop _)
    · have still : Mirrors like p p' top (s.reaching top.next).world (s'.reaching top.next).world :=
        mirrors
      exact still.execute (alike.reaching top.next) here _ _

end Mirrors

/-! ### Whole runs -/

/-- Walks end alike, or neither ends, if the performers answer alike wherever both come. -/
theorem walk_alike {stack : Stack} (alike : s.Alike like s')
    (mirrors : ∀ top parents t t', p.Reaches stack s (top :: parents) t →
      p'.Reaches stack s' (top :: parents) t' → t.Alike like t' → Mirrors like p p' top t.world t'.world)
    (fuel : Nat) :
    Option.Rel (fun r r' => r'.1 = r.1 ∧ r.2.Alike like r'.2) (p.walk fuel stack s)
      (p'.walk fuel stack s') := by
  induction fuel generalizing stack s s' with
  | zero => exact .none
  | succ fuel ih =>
    rw [RunSetup.walk, RunSetup.walk]
    cases stack with
    | nil => exact .some ⟨rfl, alike⟩
    | cons top parents =>
      have next : (p.step (top :: parents) s).Alike like (p'.step (top :: parents) s') :=
        (mirrors top parents s s' .here .here alike).step alike
      rcases first : p.step (top :: parents) s with ⟨rest, t⟩ | ⟨ending, t⟩ <;>
        rcases first' : p'.step (top :: parents) s' with ⟨rest', t'⟩ | ⟨ending', t'⟩ <;>
        rw [first, first'] at next <;> cases next
      case more.more.more states =>
        refine ih states fun top parents t t' reaches reaches' => ?_
        exact mirrors top parents t t' (.step first reaches) (.step first' reaches')
      case over.over.over states => exact .some ⟨rfl, states⟩

end RunSetup

/-- The records tell and report the same, and the worlds that are left behind are alike. -/
structure RunRecord.Alike (like : Likeness ω ω') (r : RunRecord ω) (r' : RunRecord ω') : Prop where
  engine : r'.engine = r.engine
  world : like.worlds r.world r'.world
  events : r'.events = r.events
  result : r'.result = r.result
  paused : like.pauses → r'.paused = r.paused

/-- The same comes of asking an engine to run. -/
inductive Attempt.Alike (like : Likeness ω ω') : Attempt ω → Attempt ω' → Prop where
  | refused : Alike like .refused .refused
  | unfinished : Alike like .unfinished .unfinished
  | ran {r r'} (records : r.Alike like r') : Alike like (.ran r) (.ran r')

/-- The record of a run that ended. -/
def Attempt.record? : Attempt ω → Option (RunRecord ω)
  | .ran record => some record
  | _ => none

theorem Attempt.record?_eq_some {attempt : Attempt ω} {record : RunRecord ω} :
    attempt.record? = some record ↔ attempt = .ran record := by
  cases attempt <;> simp [record?]

namespace Engine

theorem close_alike {s : RunState ω} {s' : RunState ω'} (e : Engine) (ending : Ending)
    (alike : s.Alike like s') : (e.close (ending, s)).Alike like (e.close (ending, s')) := by
  obtain ⟨world, control, report, events, paused⟩ := s
  obtain ⟨world', control', report', events', paused'⟩ := s'
  obtain ⟨worlds, rfl, rfl, rfl, looked⟩ := alike
  dsimp only at worlds looked
  cases ending with
  | finished | stopped | terminated | fault | abandoned =>
    refine ⟨rfl, worlds, rfl, rfl, fun counts => ?_⟩
    obtain rfl := looked counts
    rfl

/-- A run of the actions comes to this call in this world. -/
inductive Asks (e : Engine) (performer : Performer ω) (actions : List Action) (w : ω)
    (atPause : AtPause) : Call → ω → Prop where
  | reached {run control top parents s call} (accepted : e.control.accept = some (run, control))
    (reaches : (e.setup performer actions run atPause).Reaches [.once actions] (opening actions w control)
      (top :: parents) s)
    (asks : top.Asks call) : Asks e performer actions w atPause call s.world

/-- Runs of the same actions are alike when their performers answer alike whatever they ask for, if the
caller goes on over pauses that do not count. -/
theorem execute_alike {e : Engine} {performer : Performer ω} {performer' : Performer ω'}
    {actions : List Action} {w₀ : ω} {w₀' : ω'} {atPause : AtPause}
    (goesOn : ¬ like.pauses → atPause = .goOn) (worlds : like.worlds w₀ w₀')
    (perform : ∀ task w w', e.Asks performer actions w₀ atPause (.perform task) w →
      e.Asks performer' actions w₀' atPause (.perform task) w' → like.worlds w w' →
      (performer.perform task w).Alike like (performer'.perform task w'))
    (judge : ∀ condition w w', e.Asks performer actions w₀ atPause (.judge condition) w →
      e.Asks performer' actions w₀' atPause (.judge condition) w' → like.worlds w w' →
      (performer.judge condition w).Alike like (performer'.judge condition w'))
    (fuel : Nat) :
    (e.execute performer actions w₀ atPause fuel).Alike like
      (e.execute performer' actions w₀' atPause fuel) := by
  rw [execute, execute]
  rcases accepted : e.control.accept with _ | ⟨run, control⟩
  · exact .refused
  have opened : (opening actions w₀ control).Alike like (opening actions w₀' control) :=
    ⟨worlds, rfl, rfl, rfl, fun _ => rfl⟩
  have mirrors : ∀ top parents t t', (e.setup performer actions run atPause).Reaches [.once actions]
        (opening actions w₀ control) (top :: parents) t →
      (e.setup performer' actions run atPause).Reaches [.once actions]
        (opening actions w₀' control) (top :: parents) t' → t.Alike like t' →
      RunSetup.Mirrors like (e.setup performer actions run atPause)
        (e.setup performer' actions run atPause) top t.world t'.world :=
    fun top parents t t' reaches reaches' states => ⟨rfl, rfl, rfl, rfl, goesOn,
      fun task asks => perform task _ _ (.reached accepted reaches asks)
        (.reached accepted reaches' asks) states.world,
      fun condition asks => judge condition _ _ (.reached accepted reaches asks)
        (.reached accepted reaches' asks) states.world⟩
  have ends := RunSetup.walk_alike opened mirrors fuel
  rcases walked : (e.setup performer actions run atPause).walk fuel [.once actions]
      (opening actions w₀ control) with _ | ⟨ending, s⟩ <;>
    rcases walked' : (e.setup performer' actions run atPause).walk fuel [.once actions]
      (opening actions w₀' control) with _ | ⟨ending', s'⟩ <;>
    rw [walked, walked'] at ends <;> cases ends
  case none.none.none =>
    rw [setup, opening] at walked walked'
    simp only [walked, walked']
    exact .unfinished
  case some.some.some ends =>
    obtain ⟨rfl, states⟩ := ends
    rw [setup, opening] at walked walked'
    simp only [walked, walked']
    exact .ran (close_alike e ending' states)

end Engine

end Screenplay
