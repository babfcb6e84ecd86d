import Mathlib.Computability.Language
import Mathlib.Order.CompletePartialOrder
import Screenplay.Proofs.Simulation

/-!
What a run tells is a word of a regular language (`Chronicle.run`). Its words are one start, any
number of blocks, and one of four ends. A block is a leaf from its beginning to its end, a judgement
that opens no pass, or what opens a pass. Every part of the tree tells whole blocks, and after them
only what its exit adds (`Evaluates.tells`), so a run that ends tells such a word and nothing after
its last event (`Engine.execute_tells`).
-/
namespace Screenplay

open scoped Computability

namespace Chronicle

/-- The words of one such event. -/
def single (such : Event → Prop) : Language Event := {w | ∃ e, such e ∧ w = [e]}

theorem single_mem {such : Event → Prop} {e : Event} (holds : such e) : [e] ∈ single such :=
  ⟨e, holds, rfl⟩

def start : Language Event := single fun e => ∃ total, e = .start total

/-- The requests to stop that are made while a call is in flight. -/
def requests : Language Event := (single fun e => ∃ index, e = .stopRequested index)∗

/-- A leaf that was begun and may be in flight. -/
def begun (index : Nat) (a : Action) : Language Event :=
  single (fun e => ∃ reached total, e = .actionStart index a reached total) * requests

/-- The event tells how a leaf went. -/
inductive Closes (index : Nat) (a : Action) : Event → Prop where
  | complete : Closes index a (.actionComplete index a)
  | failed (error : String) : Closes index a (.actionFailed index a error)
  | skipped (reason : Option String) : Closes index a (.actionSkipped index a reason)

/-- A leaf from its beginning to its end. -/
def leaf : Language Event :=
  {w | ∃ index a, a.isControl = false ∧ w ∈ begun index a * single (Closes index a)}

/-- A condition that is judged in this way for such an action. -/
def judged (owner : ControlKind) (result : Bool) : Language Event :=
  requests * single fun e => ∃ condition, e = .conditionEvaluated owner condition result

/-- A pass of a body begins. -/
def pass (owner : ControlKind) : Language Event :=
  single fun e => ∃ iteration total, e = .loopIteration owner iteration total

/-- What a run is told in: a leaf, a judgement that opens no pass, or what opens a pass. -/
def block : Language Event :=
  leaf + judged .branch true + judged .branch false + judged .repeatWhile false + pass .loop +
    judged .repeatWhile true * pass .repeatWhile

theorem mem_block {w : List Event} :
    w ∈ block ↔ w ∈ leaf ∨ w ∈ judged .branch true ∨ w ∈ judged .branch false ∨
      w ∈ judged .repeatWhile false ∨ w ∈ pass .loop ∨
        w ∈ judged .repeatWhile true * pass .repeatWhile := by
  simp only [block, Language.mem_add, or_assoc]

theorem leaf_le_block : leaf ≤ block := fun _ member => mem_block.mpr (.inl member)

theorem judged_branch_le_block : ∀ result, judged .branch result ≤ block
  | true => fun _ member => mem_block.mpr (.inr (.inl member))
  | false => fun _ member => mem_block.mpr (.inr (.inr (.inl member)))

theorem judged_false_le_block : judged .repeatWhile false ≤ block :=
  fun _ member => mem_block.mpr (.inr (.inr (.inr (.inl member))))

theorem pass_loop_le_block : pass .loop ≤ block :=
  fun _ member => mem_block.mpr (.inr (.inr (.inr (.inr (.inl member)))))

theorem pass_while_le_block : judged .repeatWhile true * pass .repeatWhile ≤ block :=
  fun _ member => mem_block.mpr (.inr (.inr (.inr (.inr (.inr member)))))

def terminated : Language Event := single fun e => ∃ index reason, e = .terminated index reason

def stopped : Language Event := single fun e => ∃ index, e = .stopped index

def complete : Language Event := single fun e => ∃ report, e = .complete report

def error : Language Event := single fun e => ∃ message report, e = .error message report

/-- How a run ends. -/
def ending : Language Event :=
  complete + leaf * terminated * complete + stopped * complete + error

theorem complete_le_ending : complete ≤ ending := fun _ member => .inl (.inl (.inl member))

theorem terminated_le_ending : leaf * terminated * complete ≤ ending :=
  fun _ member => .inl (.inl (.inr member))

theorem stopped_le_ending : stopped * complete ≤ ending := fun _ member => .inl (.inr member)

theorem error_le_ending : error ≤ ending := fun _ member => .inr member

/-- A run from its beginning to its end. -/
def run : Language Event := start * block∗ * ending

/-- A leaf that is in flight. -/
def inFlight : Language Event := {w | ∃ index a, a.isControl = false ∧ w ∈ begun index a}

/-- A run that was let go while a leaf or a condition was in flight. -/
def brokenOff : Language Event := start * block∗ * (inFlight + requests)

/-! ### Nothing follows the last event -/

/-- No run ends within these events. -/
def quiet : Language Event := {w | ∀ e ∈ w, e.isFinal = false}

theorem single_le_quiet {such : Event → Prop} (goesOn : ∀ e, such e → e.isFinal = false) :
    single such ≤ quiet := by
  rintro w ⟨e, holds, rfl⟩ e' member
  rw [List.mem_singleton.mp member]
  exact goesOn e holds

theorem mul_le_quiet {l m : Language Event} (first : l ≤ quiet) (second : m ≤ quiet) :
    l * m ≤ quiet := by
  rintro w ⟨u, inFirst, v, inSecond, rfl⟩ e member
  rcases List.mem_append.mp member with early | late
  · exact first inFirst e early
  · exact second inSecond e late

theorem kstar_le_quiet {l : Language Event} (each : l ≤ quiet) : l∗ ≤ quiet :=
  kstar_le_of_mul_le_left (fun w nothing e member => by cases nothing; cases member)
    (mul_le_quiet le_rfl each)

theorem requests_le_quiet : requests ≤ quiet :=
  kstar_le_quiet (single_le_quiet (by rintro e ⟨index, rfl⟩; rfl))

theorem begun_le_quiet (index : Nat) (a : Action) : begun index a ≤ quiet :=
  mul_le_quiet (single_le_quiet (by rintro e ⟨reached, total, rfl⟩; rfl)) requests_le_quiet

theorem leaf_le_quiet : leaf ≤ quiet := by
  rintro w ⟨index, a, -, member⟩
  have closing : single (Closes index a) ≤ quiet := single_le_quiet (by rintro e ⟨⟩ <;> rfl)
  exact mul_le_quiet (begun_le_quiet index a) closing member

theorem judged_le_quiet (owner : ControlKind) (result : Bool) : judged owner result ≤ quiet :=
  mul_le_quiet requests_le_quiet (single_le_quiet (by rintro e ⟨condition, rfl⟩; rfl))

theorem pass_le_quiet (owner : ControlKind) : pass owner ≤ quiet :=
  single_le_quiet (by rintro e ⟨iteration, total, rfl⟩; rfl)

theorem block_le_quiet : block ≤ quiet :=
  add_le (add_le (add_le (add_le (add_le leaf_le_quiet (judged_le_quiet ..)) (judged_le_quiet ..))
    (judged_le_quiet ..)) (pass_le_quiet _)) (mul_le_quiet (judged_le_quiet ..) (pass_le_quiet _))

/-- A run that ends tells its end once, and last. -/
theorem run_le_final : run ≤ quiet * single fun e => e.isFinal = true := by
  have completed : complete ≤ single fun e => e.isFinal = true := by
    rintro w ⟨e, ⟨report, rfl⟩, rfl⟩
    exact single_mem rfl
  have failed : error ≤ single fun e => e.isFinal = true := by
    rintro w ⟨e, ⟨message, report, rfl⟩, rfl⟩
    exact single_mem rfl
  have ended : terminated ≤ quiet := single_le_quiet (by rintro e ⟨index, reason, rfl⟩; rfl)
  have halted : stopped ≤ quiet := single_le_quiet (by rintro e ⟨index, rfl⟩; rfl)
  have silent : start * block∗ ≤ quiet :=
    mul_le_quiet (single_le_quiet (by rintro e ⟨total, rfl⟩; rfl)) (kstar_le_quiet block_le_quiet)
  simp only [run, ending, mul_add, ← mul_assoc]
  refine add_le (add_le (add_le ?_ ?_) ?_) ?_
  · exact mul_le_mul' silent completed
  · exact mul_le_mul' (mul_le_quiet (mul_le_quiet silent leaf_le_quiet) ended) completed
  · exact mul_le_mul' (mul_le_quiet silent halted) completed
  · exact mul_le_mul' silent failed

end Chronicle

variable {ω : Type}

/-! ### What a part tells -/

namespace RunState

/-- Between the two states the run tells a word of the language. -/
def Tells (s s' : RunState ω) (l : Language Event) : Prop :=
  ∃ w ∈ l, s'.events.toList = s.events.toList ++ w

variable {s s' s'' : RunState ω} {l m : Language Event}

theorem Tells.trans (first : s.Tells s' l) (later : s'.Tells s'' m) : s.Tells s'' (l * m) := by
  obtain ⟨u, inFirst, told⟩ := first
  obtain ⟨v, inLater, after⟩ := later
  exact ⟨u ++ v, Language.append_mem_mul inFirst inLater, by rw [after, told, List.append_assoc]⟩

theorem Tells.mono (tells : s.Tells s' l) (wider : l ≤ m) : s.Tells s' m := by
  obtain ⟨w, member, told⟩ := tells
  exact ⟨w, wider member, told⟩

theorem tells_nothing : s.Tells s 1 := ⟨[], rfl, (List.append_nil _).symm⟩

theorem tells_emit {such : Event → Prop} {e : Event} (holds : such e) :
    s.Tells (s.emit e) (Chronicle.single such) :=
  ⟨[e], Chronicle.single_mem holds, Array.toList_push⟩

theorem tells_requestStop : s.Tells s.requestStop Chronicle.requests := by
  unfold requestStop
  split
  · exact tells_nothing.mono one_le_kstar
  next index control _ =>
    have told : s.Tells ({ s with control }.emit (.stopRequested index))
        (Chronicle.single fun e => ∃ index, e = .stopRequested index) := tells_emit ⟨index, rfl⟩
    exact told.mono le_kstar

theorem Tells.requests (first : s.Tells s' Chronicle.requests)
    (later : s'.Tells s'' Chronicle.requests) : s.Tells s'' Chronicle.requests :=
  (first.trans later).mono (kstar_mul_kstar _).le

theorem tells_hear (atPause : AtPause) (signals : List (Signal ω)) :
    s.Tells (s.hear atPause signals).1 Chronicle.requests := by
  induction signals generalizing s with
  | nil => exact tells_nothing.mono one_le_kstar
  | cons signal rest ih =>
    cases signal with
    | stop => exact tells_requestStop.requests ih
    | crash world => exact tells_nothing.mono one_le_kstar
    | pause world =>
      rw [hear]
      split
      · exact ih
      cases atPause with
      | goOn => exact ih (s := { s with paused := some s.control })
      | stop => exact (tells_requestStop (s := { s with paused := some s.control })).requests ih
      | abandon => exact tells_nothing.mono one_le_kstar

end RunState

namespace RunSetup

variable {p : RunSetup ω} {s s' : RunState ω}

theorem tells_heard {α : Type} {reply : Reply ω α} {answer : Option α}
    (heard : p.heard s reply = (s', answer)) : s.Tells s' Chronicle.requests := by
  have told := RunState.tells_hear (s := s) p.atPause reply.signals
  rw [RunSetup.heard] at heard
  split at heard <;> rename_i split <;> cases heard <;> rw [split] at told <;> exact told

theorem tells_judged {owner : ControlKind} {condition : Option Condition} {result : Bool}
    (judged : p.judged s owner condition = (s', some result)) :
    s.Tells s' (Chronicle.judged owner result) := by
  cases condition with
  | none =>
    cases judged
    exact (RunState.tells_nothing.mono one_le_kstar).trans (RunState.tells_emit ⟨none, rfl⟩)
  | some c =>
    rw [RunSetup.judged] at judged
    split at judged
    next => cases judged
    next _ t result call =>
      cases judged
      exact (tells_heard call).trans (RunState.tells_emit ⟨some c, rfl⟩)

theorem tells_judged_none {owner : ControlKind} {condition : Option Condition}
    (judged : p.judged s owner condition = (s', none)) : s.Tells s' Chronicle.requests := by
  cases condition with
  | none => cases judged
  | some c =>
    rw [RunSetup.judged] at judged
    split at judged
    next _ t call =>
      cases judged
      exact tells_heard call
    next => cases judged

/-- A leaf is begun and then called. -/
theorem tells_begun {path : List Nat} {index : Nat} {a : Action}
    (called : (p.started s path index a).Tells s' Chronicle.requests) :
    s.Tells s' (Chronicle.begun index a) :=
  (RunState.tells_emit ⟨_, _, rfl⟩).trans called

theorem tells_started (path : List Nat) (index : Nat) (a : Action) :
    s.Tells (p.started s path index a) (Chronicle.begun index a) :=
  tells_begun (RunState.tells_nothing.mono one_le_kstar)

theorem tells_leaf {index : Nat} {a : Action} {e : Event}
    (begun : s.Tells s' (Chronicle.begun index a)) (leaf : a.isControl = false)
    (closes : Chronicle.Closes index a e) : s.Tells (s'.emit e) Chronicle.leaf := by
  obtain ⟨w, member, told⟩ := begun.trans (RunState.tells_emit closes)
  exact ⟨w, ⟨index, a, leaf, member⟩, told⟩

end RunSetup

/-- What a part tells after its blocks if it is left in this way. -/
def Exit.tail : Exit → Language Event
  | done | jump _ | ends .finished | ends (.fault _) => 1
  | ends .stopped => Chronicle.stopped
  | ends .terminated => Chronicle.leaf * Chronicle.terminated
  | ends .abandoned => Chronicle.inFlight + Chronicle.requests

/-- What a part tells that is left in this way. -/
def Exit.words (x : Exit) : Language Event := Chronicle.block∗ * x.tail

theorem Exit.tail_of_next {x : Exit} {index n : Nat} (goesOn : x.next index = some n) :
    x.tail = 1 := by
  cases x with
  | done | jump target => rfl
  | ends e => cases goesOn

namespace RunState

variable {s s' s'' : RunState ω} {x : Exit}

/-- A part that tells no block. -/
theorem Tells.only (told : s.Tells s' x.tail) : s.Tells s' x.words :=
  (tells_nothing.mono one_le_kstar).trans told

/-- A part that tells one block. -/
theorem Tells.block {l : Language Event} (told : s.Tells s' l) (inBlock : l ≤ Chronicle.block)
    (goesOn : x.tail = 1) : s.Tells s' x.words := by
  rw [Exit.words, goesOn, mul_one]
  exact told.mono (inBlock.trans le_kstar)

theorem Tells.blocks (told : s.Tells s' x.words) (goesOn : x.tail = 1) :
    s.Tells s' Chronicle.block∗ := by
  rw [Exit.words, goesOn, mul_one] at told
  exact told

/-- Blocks in front of a part. -/
theorem Tells.andThen (first : s.Tells s' Chronicle.block∗) (later : s'.Tells s'' x.words) :
    s.Tells s'' x.words :=
  (first.trans later).mono (by rw [Exit.words, ← mul_assoc, kstar_mul_kstar])

/-- One block in front of a part. -/
theorem Tells.blockThen {l : Language Event} (first : s.Tells s' l) (inBlock : l ≤ Chronicle.block)
    (later : s'.Tells s'' x.words) : s.Tells s'' x.words :=
  (first.mono (inBlock.trans le_kstar)).andThen later

end RunState

variable {p : RunSetup ω}

/-- A task that was answered is a leaf, and what its outcome makes of the run comes after it. -/
theorem RunSetup.tells_answered {s s' s'' : RunState ω} {path : List Nat} {index : Nat} {x : Exit}
    {task : Task} {answer : Except String Outcome}
    (answered : p.answered s' path index task answer = (x, s''))
    (begun : s.Tells s' (Chronicle.begun index (.task task))) : s.Tells s'' x.words := by
  cases answer with
  | error error =>
    cases answered
    exact (tells_leaf begun rfl (.failed _)).block Chronicle.leaf_le_block rfl
  | ok outcome =>
    simp only [RunSetup.answered] at answered
    have told : s.Tells (if outcome.success then
          (s'.record path (.task task) .completed none).emit (.actionComplete index (.task task))
        else
          (s'.record path (.task task) .failed (some (outcome.error.getD defaultFailure))).emit
            (.actionFailed index (.task task) (outcome.error.getD defaultFailure)))
        Chronicle.leaf := by
      cases outcome.success with
      | true => exact tells_leaf begun rfl .complete
      | false => exact tells_leaf begun rfl (.failed _)
    split at answered
    · cases answered
      exact (told.trans (RunState.tells_emit ⟨_, _, rfl⟩)).only
    split at answered
    · cases answered
      exact told.block Chronicle.leaf_le_block rfl
    split at answered <;> cases answered <;> exact told.block Chronicle.leaf_le_block rfl

/-- What begins with a pass of a counted body. -/
theorem RunState.tells_counted {s s' : RunState ω} {x : Exit} {iteration : Nat} {total : Option Nat}
    (told : (s.emit (.loopIteration .loop iteration total)).Tells s' x.words) :
    s.Tells s' x.words := by
  have opened : s.Tells (s.emit (.loopIteration .loop iteration total)) (Chronicle.pass .loop) :=
    tells_emit ⟨iteration, total, rfl⟩
  exact opened.blockThen Chronicle.pass_loop_le_block told

/-- What begins with a pass whose condition was just found to hold. -/
theorem RunSetup.tells_while {s s' s'' : RunState ω} {x : Exit} {condition : Option Condition}
    {iteration : Nat} {total : Option Nat}
    (judged : p.judged s .repeatWhile condition = (s', some true))
    (told : (s'.emit (.loopIteration .repeatWhile iteration total)).Tells s'' x.words) :
    s.Tells s'' x.words := by
  have opened : s'.Tells (s'.emit (.loopIteration .repeatWhile iteration total))
      (Chronicle.pass .repeatWhile) := RunState.tells_emit ⟨iteration, total, rfl⟩
  exact ((tells_judged judged).trans opened).blockThen Chronicle.pass_while_le_block told

/-- Every part tells whole blocks, and after them what its exit adds. -/
theorem Evaluates.tells {part : Part} {s s' : RunState ω} {x : Exit}
    (evaluated : Evaluates p part s x s') : s.Tells s' x.words := by
  induction evaluated with
  | exhausted | whileTooDeep | loopTooDeep | once | countedEnough | whileEnough =>
    exact RunState.tells_nothing.only
  | stopped | passesStopped => exact (RunState.tells_emit ⟨_, rfl⟩).only
  | @step place next n a s s' s'' x y actions here running first goesOn rest told later =>
    exact (told.blocks (Exit.tail_of_next goesOn)).andThen later
  | stepOver here running first told => exact told
  | @skip place index s reason =>
    have begun := RunSetup.tells_started (p := p) (s := s) (place ++ [index]) index (.skip reason)
    exact (RunSetup.tells_leaf begun rfl (.skipped _)).block Chronicle.leaf_le_block rfl
  | @test place index s name =>
    have begun := RunSetup.tells_started (p := p) (s := s) (place ++ [index]) index (.test name)
    exact (RunSetup.tells_leaf begun rfl .complete).block Chronicle.leaf_le_block rfl
  | @fail place index s message =>
    have begun := RunSetup.tells_started (p := p) (s := s) (place ++ [index]) index (.fail message)
    have failed := RunSetup.tells_leaf begun rfl (.failed (message.getD defaultFailMessage))
    exact (failed.trans (RunState.tells_emit ⟨_, _, rfl⟩)).only
  | taskAbandoned call =>
    obtain ⟨w, member, told⟩ := RunSetup.tells_begun (RunSetup.tells_heard call)
    exact RunState.Tells.only ⟨w, .inl ⟨_, _, rfl, member⟩, told⟩
  | task call outcome =>
    exact RunSetup.tells_answered outcome (RunSetup.tells_begun (RunSetup.tells_heard call))
  | branchAbandoned judged | whileAbandoned _ _ judged =>
    exact ((RunSetup.tells_judged_none judged).mono fun _ => .inr).only
  | branchNone judged | branchTooDeep judged =>
    exact (RunSetup.tells_judged judged).block (Chronicle.judged_branch_le_block _) rfl
  | branch judged taken admits inner within =>
    exact (RunSetup.tells_judged judged).blockThen (Chronicle.judged_branch_le_block _) within
  | whileLoop admits bound inner within => exact within
  | loop admits inner within => exact within
  | countedPass running more pass rest told later =>
    exact RunState.tells_counted ((told.blocks rfl).andThen later)
  | countedOver running more pass told => exact RunState.tells_counted told
  | whileFalse running more judged =>
    exact (RunSetup.tells_judged judged).block Chronicle.judged_false_le_block rfl
  | whilePass running more judged pass rest told later =>
    exact RunSetup.tells_while judged ((told.blocks rfl).andThen later)
  | whileOver running more judged pass told => exact RunSetup.tells_while judged told

/-! ### Runs of an engine -/

namespace Engine

/-- The events of a run up to the end of its walk. -/
theorem walk_tells {actions : List Action} {world : ω} {control : Control} {fuel : Nat}
    {ending : Ending} {s : RunState ω}
    (walked : p.walk fuel [.once actions] (opening actions world control) = some (ending, s)) :
    ∃ x : Exit, x.ending = ending ∧ s.events.toList ∈ Chronicle.start * x.words := by
  obtain ⟨x, evaluated, ends⟩ := RunSetup.ends_iff_evaluates.mp ⟨fuel, walked⟩
  obtain ⟨w, member, told⟩ := evaluated.tells
  refine ⟨x, ends, ?_⟩
  rw [told]
  exact Language.append_mem_mul (Chronicle.single_mem ⟨_, rfl⟩) member

/-- What closes a run makes its events a word. -/
theorem close_tells (e : Engine) {x : Exit} {s : RunState ω} {result : RunResult}
    (told : s.events.toList ∈ Chronicle.start * x.words)
    (ended : (e.close (x.ending, s)).result = some result) :
    (e.close (x.ending, s)).events.toList ∈ Chronicle.run := by
  have closed : ∀ {last : Event} {such : Event → Prop}, such last →
      x.tail * Chronicle.single such ≤ Chronicle.ending →
      (s.events.push last).toList ∈ Chronicle.run := by
    intro last such holds ends
    have member := Language.append_mem_mul told (Chronicle.single_mem holds)
    rw [Exit.words, ← mul_assoc, mul_assoc] at member
    rw [Array.toList_push]
    exact mul_le_mul_right ends _ member
  have completed : x.tail * Chronicle.complete ≤ Chronicle.ending →
      (s.events.push (.complete s.report)).toList ∈ Chronicle.run := closed ⟨s.report, rfl⟩
  cases x with
  | done | jump target => exact completed ((one_mul _).trans_le Chronicle.complete_le_ending)
  | ends ending =>
    cases ending with
    | finished => exact completed ((one_mul _).trans_le Chronicle.complete_le_ending)
    | stopped => exact completed Chronicle.stopped_le_ending
    | terminated => exact completed Chronicle.terminated_le_ending
    | fault f => exact closed ⟨_, _, rfl⟩ ((one_mul _).trans_le Chronicle.error_le_ending)
    | abandoned => cases ended

/-- The events of a run that was abandoned end with a call that is in flight. -/
theorem execute_tells_abandoned {e : Engine} {performer : Performer ω} {actions : List Action}
    {world : ω} {atPause : AtPause} {fuel : Nat} {record : RunRecord ω}
    (ran : e.execute performer actions world atPause fuel = .ran record)
    (abandoned : record.result = none) : record.events.toList ∈ Chronicle.brokenOff := by
  obtain ⟨run, control, ⟨ending, s⟩, -, walked, rfl⟩ := ran_iff.mp ran
  obtain ⟨x, rfl, told⟩ := walk_tells walked
  cases x with
  | done | jump target => cases abandoned
  | ends ending =>
    cases ending with
    | finished | stopped | terminated | fault f => cases abandoned
    | abandoned =>
      rw [Chronicle.brokenOff, mul_assoc]
      exact told

/-- The events of a run that ends are one start, any number of blocks and one of the four ends. The
last event, and no other, is final. -/
theorem execute_tells {e : Engine} {performer : Performer ω} {actions : List Action} {world : ω}
    {atPause : AtPause} {fuel : Nat} {record : RunRecord ω} {result : RunResult}
    (ran : e.execute performer actions world atPause fuel = .ran record)
    (ended : record.result = some result) :
    record.events.toList ∈ Chronicle.run ∧
      ∃ told last, record.events.toList = told ++ [last] ∧ last.isFinal = true ∧
        ∀ event ∈ told, event.isFinal = false := by
  obtain ⟨run, control, ⟨ending, s⟩, -, walked, rfl⟩ := ran_iff.mp ran
  obtain ⟨x, rfl, walkTold⟩ := walk_tells walked
  have member := close_tells e walkTold ended
  obtain ⟨told, silent, -, ⟨last, final, rfl⟩, joined⟩ := Chronicle.run_le_final member
  exact ⟨member, told, last, joined.symm, final, silent⟩

/-- A run that is asked to stop while the task of its first pass is in flight. -/
theorem execute_tells_stopping :
    ∃ (record : RunRecord Unit) (result : RunResult),
      execute {} { perform := fun _ _ => ⟨.ok Outcome.ok, (), [.stop]⟩
                   judge := fun _ _ => ⟨true, (), []⟩ }
        [.repeatWhile none [.task (.input "a")] none] () .goOn 4 = .ran record ∧
      record.result = some result ∧
      record.events.toList.map Event.name =
        ["execution:start", "execution:condition-evaluated", "execution:loop-iteration",
          "execution:action-start", "execution:stop-requested", "execution:action-complete",
          "execution:stopped", "execution:complete"] ∧
      record.events.toList ∈ Chronicle.run := by
  refine ⟨?record, ?result, ?ran, ?ended, ?names, (execute_tells ?ran ?ended).1⟩
  case ran => exact rfl
  case ended => exact rfl
  case names => rfl

end Engine

end Screenplay
