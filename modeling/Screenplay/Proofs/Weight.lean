import Mathlib.Algebra.GroupWithZero.Nat
import Screenplay.Device.Desktop
import Screenplay.Proofs.Steps
import Screenplay.Stage.Judgement

/-!
Every walk ends whose leaves send their sequence only forwards, and it visits no more leaves than its
actions weigh. The measure is what is still to be walked: the rest of every open sequence and the
passes that it may still make. A charge on every action and on every open sequence makes each step
of the walk count.
-/
namespace Screenplay

variable {ω : Type}

/-! ### What a list of actions weighs -/

mutual

/-- The number of leaves that an action can come to. -/
def Action.weight (options : RunOptions) : Action → Nat
  | .branch _ thenActions elseActions =>
    max (weights options thenActions) (weightElse options elseActions)
  | .repeatWhile _ body maxIterations =>
    (maxIterations.getD options.defaultMaxIterations).toNat * weights options body
  | .loop count body => count.toNat * weights options body
  | .skip _ | .fail _ | .test _ | .task _ => 1

def Action.weights (options : RunOptions) : List Action → Nat
  | [] => 0
  | a :: rest => a.weight options + weights options rest

def Action.weightElse (options : RunOptions) : Option (List Action) → Nat
  | none => 0
  | some actions => weights options actions

end

mutual

/-- The weight of an action with a charge for everything that is done: for taking the action, and
for each sequence that it opens and each pass that it makes. -/
def Action.cost (charge : Nat) (options : RunOptions) : Action → Nat
  | .branch _ thenActions elseActions =>
    2 * charge + max (costs charge options thenActions) (costElse charge options elseActions)
  | .repeatWhile _ body maxIterations =>
    2 * charge + (maxIterations.getD options.defaultMaxIterations).toNat *
      (charge + costs charge options body)
  | .loop count body => 2 * charge + count.toNat * (charge + costs charge options body)
  | .skip _ | .fail _ | .test _ | .task _ => charge + 1

def Action.costs (charge : Nat) (options : RunOptions) : List Action → Nat
  | [] => 0
  | a :: rest => a.cost charge options + costs charge options rest

def Action.costElse (charge : Nat) (options : RunOptions) : Option (List Action) → Nat
  | none => 0
  | some actions => costs charge options actions

end

mutual

theorem Action.cost_zero (options : RunOptions) (a : Action) : a.cost 0 options = a.weight options := by
  cases a with
  | branch condition thenActions elseActions =>
    simp [cost, weight, costs_zero options thenActions, costElse_zero options elseActions]
  | repeatWhile condition body maxIterations => simp [cost, weight, costs_zero options body]
  | loop count body => simp [cost, weight, costs_zero options body]
  | skip | fail | test | task => rfl

theorem Action.costs_zero (options : RunOptions) (actions : List Action) :
    costs 0 options actions = weights options actions := by
  cases actions with
  | nil => rfl
  | cons a rest => rw [costs, weights, cost_zero options a, costs_zero options rest]

theorem Action.costElse_zero (options : RunOptions) (actions : Option (List Action)) :
    costElse 0 options actions = weightElse options actions := by
  cases actions with
  | none => rfl
  | some actions => exact costs_zero options actions

end

/-! ### What is still to be walked -/

/-- How many passes may still be made. -/
def Passes.left : Passes → Nat
  | .once => 0
  | .counted count made => count - made
  | .whileHolds _ most made => most - made

/-- The cost of the rest of a sequence and of the passes after it. -/
def OpenSequence.cost (charge : Nat) (options : RunOptions) (q : OpenSequence) : Nat :=
  charge + Action.costs charge options (q.actions.drop q.next) +
    q.passes.left * (charge + Action.costs charge options q.actions)

def Stack.cost (charge : Nat) (options : RunOptions) (stack : Stack) : Nat :=
  (stack.map fun q => q.cost charge options).sum

section
variable (charge : Nat) (options : RunOptions) {actions : List Action}

theorem Stack.cost_cons (q : OpenSequence) (parents : Stack) :
    Stack.cost charge options (q :: parents) =
      q.cost charge options + Stack.cost charge options parents := by
  simp [Stack.cost]

theorem Action.costs_drop {a : Action} {next : Nat} (here : actions[next]? = some a) :
    costs charge options (actions.drop next) =
      a.cost charge options + costs charge options (actions.drop (next + 1)) := by
  obtain ⟨inside, rfl⟩ := List.getElem?_eq_some_iff.mp here
  rw [List.drop_eq_getElem_cons inside, costs]

/-- Going on further behind costs no more. -/
theorem Action.costs_drop_le {next later : Nat} (forward : next ≤ later) :
    costs charge options (actions.drop later) ≤ costs charge options (actions.drop next) := by
  induction forward with
  | refl => exact Nat.le_refl _
  | @step later _ ih =>
    refine Nat.le_trans ?_ ih
    rcases here : actions[later]? with _ | a
    · rw [List.getElem?_eq_none_iff] at here
      rw [List.drop_eq_nil_of_le (by omega)]
      exact Nat.zero_le _
    · rw [costs_drop charge options here]
      exact Nat.le_add_left _ _

/-- A body that is opened is behind its last action. -/
theorem OpenSequence.cost_repeating (passes : Passes) :
    (repeating actions passes).cost charge options =
      charge + passes.left * (charge + Action.costs charge options actions) := by
  simp [OpenSequence.cost, repeating, Action.costs]

theorem OpenSequence.cost_once :
    (once actions).cost charge options = charge + Action.costs charge options actions := by
  simp [OpenSequence.cost, once, Passes.left]

/-- A sequence that goes on behind an action costs less by the action. -/
theorem OpenSequence.cost_behind {q : OpenSequence} {a : Action}
    (here : q.actions[q.next]? = some a) {n : Nat} (forward : q.next < n) :
    ({ q with next := n } : OpenSequence).cost charge options + a.cost charge options ≤
      q.cost charge options := by
  have later : Action.costs charge options (q.actions.drop n) ≤
      Action.costs charge options (q.actions.drop (q.next + 1)) :=
    Action.costs_drop_le charge options forward
  simp only [OpenSequence.cost, Action.costs_drop charge options here]
  omega

/-- A pass that begins is paid for by the passes that were left. -/
theorem OpenSequence.cost_pass {q : OpenSequence} {passes : Passes}
    (fewer : passes.left + 1 ≤ q.passes.left) :
    (⟨q.actions, 0, passes⟩ : OpenSequence).cost charge options + charge ≤
      q.cost charge options := by
  have paid := Nat.mul_le_mul_right (charge + Action.costs charge options q.actions) fewer
  rw [Nat.succ_mul] at paid
  simp only [OpenSequence.cost, List.drop_zero]
  omega

/-- The branch that is taken costs no more than the branch that costs more. -/
theorem Action.costs_chosen {result : Bool} {thenActions : List Action}
    {elseActions : Option (List Action)} (taken : chosen result thenActions elseActions = some actions)
    (condition : Option Condition) :
    2 * charge + costs charge options actions ≤
      (Action.branch condition thenActions elseActions).cost charge options := by
  rw [Action.cost]
  cases result with
  | true =>
    cases taken
    omega
  | false =>
    simp only [chosen, Bool.false_eq_true, if_false] at taken
    subst taken
    rw [costElse]
    omega

end

/-! ### What is counted of a run -/

def Event.isActionStart : Event → Bool
  | .actionStart .. => true
  | _ => false

/-- The number of leaves that were begun. -/
def RunState.starts (s : RunState ω) : Nat := s.events.countP Event.isActionStart

/-- How many leaves were begun, and how many of them were visited to their end. -/
def RunState.counts (s : RunState ω) : Nat × Nat := (s.starts, s.report.visited)

namespace RunState

variable {s : RunState ω}

theorem counts_emit {e : Event} (quiet : e.isActionStart = false) : (s.emit e).counts = s.counts := by
  simp [counts, starts, emit, quiet]

theorem counts_reaching (index : Nat) : (s.reaching index).counts = s.counts := rfl

theorem counts_stop (index : Nat) : (s.stop index).counts = s.counts := by
  rw [stop, counts_emit rfl]
  rfl

theorem counts_terminate (index : Nat) (reason : String) :
    (s.terminate index reason).counts = s.counts := by
  rw [terminate, counts_emit rfl]
  rfl

theorem counts_requestStop : s.requestStop.counts = s.counts := by
  unfold requestStop
  split
  · rfl
  · rw [counts_emit rfl]
    rfl

theorem counts_hear (atPause : AtPause) (signals : List (Signal ω)) :
    (s.hear atPause signals).1.counts = s.counts := by
  induction signals generalizing s with
  | nil => rfl
  | cons signal rest ih =>
    cases signal with
    | stop => rw [hear, ih, counts_requestStop]
    | crash world => rfl
    | pause world =>
      rw [hear]
      split
      · exact ih
      cases atPause with
      | goOn => exact ih
      | stop =>
        rw [ih, counts_requestStop]
        rfl
      | abandon => rfl

end RunState

/-- What is counted between two states in which one leaf is run: it is begun, and at most it is
visited to its end. -/
def OneLeaf (s s' : RunState ω) : Prop :=
  s'.starts = s.starts + 1 ∧ s'.report.visited ≤ s.report.visited + 1

theorem OneLeaf.quiet {s s' s'' : RunState ω} (one : OneLeaf s s') (same : s''.counts = s'.counts) :
    OneLeaf s s'' := by
  obtain ⟨starts, visited⟩ := Prod.mk.inj same
  rw [OneLeaf, starts, visited]
  exact one

namespace RunSetup

variable {p : RunSetup ω} {s s' : RunState ω}

theorem counts_heard {α : Type} {reply : Reply ω α} {answer : Option α}
    (heard : p.heard s reply = (s', answer)) : s'.counts = s.counts := by
  have same := RunState.counts_hear (s := s) p.atPause reply.signals
  rw [RunSetup.heard] at heard
  split at heard <;> rename_i split <;> cases heard <;> rw [split] at same <;> exact same

theorem counts_judged {owner : ControlKind} {condition : Option Condition} {result : Option Bool}
    (judged : p.judged s owner condition = (s', result)) : s'.counts = s.counts := by
  cases condition with
  | none =>
    cases judged
    exact RunState.counts_emit rfl
  | some c =>
    rw [RunSetup.judged] at judged
    split at judged
    next _ t call =>
      cases judged
      exact counts_heard call
    next _ t result call =>
      cases judged
      rw [RunState.counts_emit rfl]
      exact counts_heard call

theorem counts_started (s : RunState ω) (path : List Nat) (index : Nat) (a : Action) :
    (p.started s path index a).counts = (s.starts + 1, s.report.visited) := by
  have starts : (s.events.push (.actionStart index a (path.headD 0 + 1) p.total)).countP
      Event.isActionStart = s.events.countP Event.isActionStart + 1 :=
    Array.countP_push_of_pos rfl
  exact Prod.ext starts rfl

/-- A leaf is recorded after it was begun. -/
theorem oneLeaf_record {path : List Nat} {a : Action} {status : ActionStatus}
    {error : Option String} (begun : s'.counts = (s.starts + 1, s.report.visited)) :
    OneLeaf s (s'.record path a status error) := by
  obtain ⟨starts, visited⟩ := Prod.mk.inj begun
  refine ⟨starts, ?_⟩
  rw [← visited]
  cases status <;> simp [RunState.record, Report.record, Report.visited] <;> omega

theorem oneLeaf_answered {path : List Nat} {index : Nat} {task : Task}
    {answer : Except String Outcome} (begun : s'.counts = (s.starts + 1, s.report.visited)) :
    OneLeaf s (p.answered s' path index task answer).2 := by
  cases answer with
  | error error => exact (oneLeaf_record begun).quiet (RunState.counts_emit rfl)
  | ok outcome =>
    simp only [answered]
    have recorded : OneLeaf s (if outcome.success then
          (s'.record path (.task task) .completed none).emit (.actionComplete index (.task task))
        else
          (s'.record path (.task task) .failed (some (outcome.error.getD defaultFailure))).emit
            (.actionFailed index (.task task) (outcome.error.getD defaultFailure))) := by
      cases outcome.success with
      | true => exact (oneLeaf_record begun).quiet (RunState.counts_emit rfl)
      | false => exact (oneLeaf_record begun).quiet (RunState.counts_emit rfl)
    split
    · exact recorded.quiet (RunState.counts_terminate _ _)
    split
    · exact recorded
    split <;> exact recorded

end RunSetup

variable {p : RunSetup ω} {s s' : RunState ω}

theorem Evaluates.oneLeaf {place : List Nat} {index : Nat} {a : Action} {x : Exit}
    (leaf : a.isControl = false) (evaluated : Evaluates p (.action place index a) s x s') :
    OneLeaf s s' := by
  have begun := RunSetup.counts_started (p := p) s (place ++ [index]) index a
  cases evaluated with
  | skip | test => exact (RunSetup.oneLeaf_record begun).quiet (RunState.counts_emit rfl)
  | fail =>
    refine OneLeaf.quiet ?_ (RunState.counts_terminate _ _)
    exact (RunSetup.oneLeaf_record begun).quiet (RunState.counts_emit rfl)
  | taskAbandoned call =>
    obtain ⟨starts, visited⟩ := Prod.mk.inj ((RunSetup.counts_heard call).trans begun)
    exact ⟨starts, by omega⟩
  | task call outcome =>
    have called := (RunSetup.counts_heard call).trans begun
    change OneLeaf s (x, s').2
    rw [← outcome]
    exact RunSetup.oneLeaf_answered called
  | branchAbandoned | branchNone | branchTooDeep | branch => simp [Action.isControl] at leaf
  | whileTooDeep | whileLoop | loopTooDeep | loop => simp [Action.isControl] at leaf

/-! ### What a step costs -/

/-- The walk comes from one stack and state to another. -/
inductive RunSetup.Reaches (p : RunSetup ω) : Stack → RunState ω → Stack → RunState ω → Prop where
  | here {stack s} : Reaches p stack s stack s
  | step {stack rest stack' : Stack} {s t s' : RunState ω} (first : p.step stack s = .more rest t)
    (later : Reaches p rest t stack' s') : Reaches p stack s stack' s'

/-- If the task at this position is performed now, it sends its sequence only forwards. -/
def RunSetup.SendsForward (p : RunSetup ω) (top : OpenSequence) (s : RunState ω) : Prop :=
  ∀ task outcome target, top.actions[top.next]? = some (.task task) →
    (p.performer.perform task s.world).result = .ok outcome → outcome.jumpTo = some target →
    top.next < target

/-- Every task that the walk performs sends its sequence only forwards, if anywhere. -/
def RunSetup.JumpsForward (p : RunSetup ω) (stack : Stack) (s : RunState ω) : Prop :=
  ∀ top parents t, p.Reaches stack s (top :: parents) t → t.control.isCancelled p.run = false →
    p.SendsForward top t

theorem RunSetup.JumpsForward.step {stack rest : Stack} {t : RunState ω}
    (forward : p.JumpsForward stack s) (first : p.step stack s = .more rest t) :
    p.JumpsForward rest t :=
  fun top parents t' reaches => forward top parents t' (.step first reaches)

/-- A call that was answered gave this answer. -/
theorem RunSetup.heard_answer {α : Type} {reply : Reply ω α} {answer : α}
    (heard : p.heard s reply = (s', some answer)) : reply.result = answer := by
  rw [RunSetup.heard] at heard
  split at heard
  · cases heard
  · cases heard
    rfl

theorem RunSetup.answered_jump {path : List Nat} {index target : Nat} {task : Task}
    {answer : Except String Outcome}
    (answered : p.answered s path index task answer = (.jump target, s')) :
    ∃ outcome, answer = .ok outcome ∧ outcome.jumpTo = some target := by
  cases answer with
  | error error => cases answered
  | ok outcome =>
    refine ⟨outcome, rfl, ?_⟩
    simp only [RunSetup.answered] at answered
    split at answered
    · cases answered
    split at answered
    · cases answered
    split at answered
    next => cases answered
    next _ jump =>
      cases answered
      exact jump

/-- A leaf that jumps is a task whose outcome says so. -/
theorem Evaluates.jump {place : List Nat} {index target : Nat} {a : Action}
    (leaf : a.isControl = false)
    (evaluated : Evaluates p (.action place index a) s (.jump target) s') :
    ∃ task outcome, a = .task task ∧ (p.performer.perform task s.world).result = .ok outcome ∧
      outcome.jumpTo = some target := by
  cases evaluated with
  | task call answered =>
    obtain ⟨outcome, rfl, jump⟩ := RunSetup.answered_jump answered
    exact ⟨_, outcome, rfl, RunSetup.heard_answer call, jump⟩
  | branch | whileLoop | loop => simp [Action.isControl] at leaf

theorem Action.cost_leaf (charge : Nat) (options : RunOptions) {a : Action}
    (leaf : a.isControl = false) : a.cost charge options = charge + 1 := by
  cases a with
  | branch | repeatWhile | loop => simp [isControl] at leaf
  | skip | fail | test | task => rfl

/-- The state after a step. -/
def Progress.state : Progress ω → RunState ω
  | .more _ s => s
  | .over _ s => s

/-- What a step leaves to be walked, and the charge for the step itself. -/
def Progress.cost (charge : Nat) (options : RunOptions) : Progress ω → Nat
  | .more stack _ => Stack.cost charge options stack + charge
  | .over _ _ => 0

/-- A step runs no leaf, or one that is paid for out of the budget. -/
def Progress.Spends (charge : Nat) (options : RunOptions) (budget : Nat) (s : RunState ω)
    (after : Progress ω) : Prop :=
  (after.state.counts = s.counts ∧ after.cost charge options ≤ budget) ∨
    (OneLeaf s after.state ∧ after.cost charge options + 1 ≤ budget)

/-- The step that runs a leaf is paid for by the leaf. -/
theorem Evaluates.spends_leaf {charge : Nat} {top : OpenSequence} {parents : Stack} {a : Action}
    {x : Exit} (forward : p.SendsForward top s) (here : top.actions[top.next]? = some a)
    (leaf : a.isControl = false)
    (evaluated : Evaluates p (.action (Stack.path parents) top.next a) (s.reaching top.next) x s') :
    (Progress.leave { top with next := top.next + 1 } parents x s').Spends charge p.options
      (Stack.cost charge p.options (top :: parents)) s := by
  have one : OneLeaf (s.reaching top.next) s' := evaluated.oneLeaf leaf
  have price := Action.cost_leaf charge p.options leaf
  have goesOn : ∀ n, top.next < n → (Progress.more ({ top with next := n } :: parents) s').Spends
      charge p.options (Stack.cost charge p.options (top :: parents)) s := by
    intro n further
    have cheaper := OpenSequence.cost_behind charge p.options here further
    refine .inr ⟨one, ?_⟩
    rw [Progress.cost, Stack.cost_cons, Stack.cost_cons]
    omega
  cases x with
  | done => exact goesOn _ (Nat.lt_succ_self _)
  | jump target =>
    obtain ⟨task, outcome, rfl, result, jump⟩ := evaluated.jump leaf
    exact goesOn target (forward task outcome target here result jump)
  | ends e =>
    have cheaper := OpenSequence.cost_behind charge p.options here (Nat.lt_succ_self _)
    refine .inr ⟨one, ?_⟩
    rw [Progress.leave, Progress.cost, Stack.cost_cons]
    omega

/-- Every step is paid for by what was still to be walked. -/
theorem Moves.spends {top : OpenSequence} {parents : Stack} {after : Progress ω} (charge : Nat)
    (moves : Moves p top parents s after)
    (forward : s.control.isCancelled p.run = false → p.SendsForward top s) :
    after.Spends charge p.options (Stack.cost charge p.options (top :: parents)) s := by
  have left : charge ≤ top.cost charge p.options := by
    rw [OpenSequence.cost]
    omega
  have behind {a : Action} (here : top.actions[top.next]? = some a) :
      OpenSequence.cost charge p.options { top with next := top.next + 1 } +
        a.cost charge p.options ≤ top.cost charge p.options :=
    OpenSequence.cost_behind charge p.options here (Nat.lt_succ_self _)
  have popped : Stack.cost charge p.options parents + charge ≤
      Stack.cost charge p.options (top :: parents) := by
    rw [Stack.cost_cons]
    omega
  cases moves with
  | stoppedBetween | stopped => exact .inl ⟨RunState.counts_stop _, Nat.zero_le _⟩
  | whileAbandoned _ _ _ _ judged =>
    exact .inl ⟨RunSetup.counts_judged judged, Nat.zero_le _⟩
  | branchAbandoned _ _ judged | branchTooDeep _ _ judged =>
    have same := (RunSetup.counts_judged judged).trans (RunState.counts_reaching top.next)
    exact .inl ⟨same, Nat.zero_le _⟩
  | whileTooDeep | loopTooDeep => exact .inl ⟨rfl, Nat.zero_le _⟩
  | once | countedEnough | whileEnough => exact .inl ⟨rfl, popped⟩
  | whileFalse _ _ _ _ judged => exact .inl ⟨RunSetup.counts_judged judged, popped⟩
  | @countedPass count made exhausted running kind more =>
    have fewer : Passes.left (.counted count (made + 1)) + 1 ≤ top.passes.left := by
      simp only [kind, Passes.left]
      omega
    have paid := OpenSequence.cost_pass charge p.options fewer
    refine .inl ⟨RunState.counts_emit rfl, ?_⟩
    rw [Progress.cost, Stack.cost_cons, Stack.cost_cons]
    omega
  | @whilePass condition most made s' exhausted running kind more judged =>
    have fewer : Passes.left (.whileHolds condition most (made + 1)) + 1 ≤ top.passes.left := by
      simp only [kind, Passes.left]
      omega
    have paid := OpenSequence.cost_pass charge p.options fewer
    refine .inl ⟨(RunState.counts_emit rfl).trans (RunSetup.counts_judged judged), ?_⟩
    rw [Progress.cost, Stack.cost_cons, Stack.cost_cons]
    omega
  | leaf here running leaf evaluated => exact evaluated.spends_leaf (forward running) here leaf
  | branchNone here running judged nothing =>
    have cheaper := behind here
    refine .inl ⟨(RunSetup.counts_judged judged).trans (RunState.counts_reaching top.next), ?_⟩
    rw [Progress.cost, Stack.cost_cons, Stack.cost_cons]
    rw [Action.cost] at cheaper
    omega
  | @branch condition thenActions elseActions result s' actions here running judged taken admits =>
    have cheaper := behind here
    have bound := Action.costs_chosen charge p.options taken condition
    refine .inl ⟨(RunSetup.counts_judged judged).trans (RunState.counts_reaching top.next), ?_⟩
    rw [Progress.cost, Stack.cost_cons, Stack.cost_cons, Stack.cost_cons, OpenSequence.cost_once]
    omega
  | whileLoop here running admits | loop here running admits =>
    have cheaper := behind here
    refine .inl ⟨RunState.counts_reaching _, ?_⟩
    rw [Progress.cost, Stack.cost_cons, Stack.cost_cons, Stack.cost_cons,
      OpenSequence.cost_repeating, Passes.left, Nat.sub_zero]
    rw [Action.cost] at cheaper
    omega

/-! ### What a walk costs -/

/-- Leaves are visited to their end only after they were begun, and what was begun and what may
still be begun stay within a bound. -/
def RunState.Within (bound : Nat) (s : RunState ω) (left : Nat) : Prop :=
  s.report.visited ≤ s.starts ∧ s.starts + left ≤ bound

theorem Progress.Spends.within {charge budget bound : Nat} {options : RunOptions}
    {after : Progress ω} (spends : after.Spends charge options budget s)
    (within : s.Within bound budget) : after.state.Within bound (after.cost charge options) := by
  obtain ⟨visited, enough⟩ := within
  rcases spends with ⟨same, cheaper⟩ | ⟨⟨one, ended⟩, cheaper⟩
  · obtain ⟨starts, ended⟩ := Prod.mk.inj same
    exact ⟨by omega, by omega⟩
  · exact ⟨by omega, by omega⟩

/-- A stack whose walk stays within a bound. -/
structure RunSetup.Affords (p : RunSetup ω) (charge bound : Nat) (stack : Stack) (s : RunState ω) :
    Prop where
  begun : Stack.Begun stack.tail
  forward : p.JumpsForward stack s
  within : s.Within bound (Stack.cost charge p.options stack)

namespace RunSetup

theorem step_spends {stack : Stack} (charge : Nat) (begun : Stack.Begun stack.tail)
    (forward : p.JumpsForward stack s) :
    (p.step stack s).Spends charge p.options (Stack.cost charge p.options stack) s := by
  cases stack with
  | nil => exact .inl ⟨rfl, Nat.zero_le _⟩
  | cons top parents =>
    have moves : Moves p top parents s (p.step (top :: parents) s) := step_moves begun
    exact moves.spends charge fun running => forward top parents s .here running

theorem step_tail {stack rest : Stack} (begun : Stack.Begun stack.tail)
    (first : p.step stack s = .more rest s') : Stack.Begun rest.tail := by
  cases stack with
  | nil => cases first
  | cons top parents => exact step_begun begun first

/-- A step lowers the bound by its charge. -/
theorem Affords.step {charge bound : Nat} {stack : Stack} (affords : p.Affords charge bound stack s) :
    (p.step stack s).Meets (fun rest t => charge ≤ bound ∧ p.Affords charge (bound - charge) rest t)
      (fun t => t.Within bound 0) := by
  obtain ⟨begun, forward, within⟩ := affords
  have next := (step_spends charge begun forward).within within
  rcases step : p.step stack s with ⟨rest, t⟩ | ⟨e, t⟩
  · rw [step, Progress.cost] at next
    obtain ⟨visited, left⟩ : t.Within bound (Stack.cost charge p.options rest + charge) := next
    refine ⟨by omega, step_tail begun step, forward.step step, visited, ?_⟩
    omega
  · rw [step] at next
    exact next

/-- With a charge for every step the bound is one for the number of steps. -/
theorem Affords.walk_ends {bound fuel : Nat} {stack : Stack} (affords : p.Affords 1 bound stack s)
    (enough : bound < fuel) : ∃ r, p.walk fuel stack s = some r := by
  induction fuel generalizing bound stack s with
  | zero => omega
  | succ fuel ih =>
    have next := affords.step
    rw [walk]
    rcases step : p.step stack s with ⟨rest, t⟩ | ⟨e, t⟩
    · rw [step] at next
      obtain ⟨charged, next⟩ := next
      exact ih next (by omega)
    · exact ⟨(e, t), rfl⟩

/-- Without a charge the bound is one for the leaves that are begun. -/
theorem Affords.walk_within {bound fuel : Nat} {stack : Stack} {e : Ending}
    (affords : p.Affords 0 bound stack s) (walked : p.walk fuel stack s = some (e, s')) :
    s'.Within bound 0 := by
  have kept : ∀ stack s, p.Affords 0 bound stack s →
      (p.step stack s).Meets (p.Affords 0 bound) (fun t => t.Within bound 0) := by
    intro stack s affords
    have next := affords.step
    rcases step : p.step stack s with ⟨rest, t⟩ | ⟨e, t⟩
    · rw [step] at next
      exact next.2
    · rw [step] at next
      exact next
  exact walk_meets kept affords walked

end RunSetup

/-! ### Runs of an engine -/

/-- The leaves that a run has begun. -/
def RunRecord.starts (record : RunRecord ω) : Nat := record.events.countP Event.isActionStart

namespace Engine

theorem close_starts (e : Engine) (ending : Ending) (s : RunState ω) :
    (e.close (ending, s)).starts = s.starts := by
  cases ending <;> simp [close, RunRecord.starts, RunState.starts, Event.isActionStart]

theorem close_report {e : Engine} {ending : Ending} {s : RunState ω} {result : RunResult}
    (given : (e.close (ending, s)).result = some result) : result.report = s.report := by
  cases ending <;> cases given <;> rfl

/-- The engine runs these actions to an end, and no run of them visits more leaves than this. -/
def EndsWithin (e : Engine) (performer : Performer ω) (actions : List Action) (world : ω)
    (atPause : AtPause) (bound : Nat) : Prop :=
  ∃ fuel record, e.execute performer actions world atPause fuel = .ran record ∧
    record.starts ≤ bound ∧
    ∀ result, record.result = some result → result.report.visited ≤ bound

theorem endsWithin_of_jumpsForward {e : Engine} {performer : Performer ω} {actions : List Action}
    {world : ω} {atPause : AtPause} {run : Nat} {control : Control}
    (accepted : e.control.accept = some (run, control))
    (forward : (e.setup performer actions run atPause).JumpsForward [.once actions]
      (opening actions world control)) :
    e.EndsWithin performer actions world atPause (Action.weights e.options actions) := by
  have begun : Stack.Begun [OpenSequence.once actions].tail :=
    fun q member => absurd member List.not_mem_nil
  have start : ∀ charge, (e.setup performer actions run atPause).Affords charge
      (Stack.cost charge e.options [.once actions]) [.once actions]
      (opening actions world control) := by
    intro charge
    refine ⟨begun, forward, Nat.zero_le _, ?_⟩
    simp [opening, setup, RunState.starts, Event.isActionStart]
  have weight : Stack.cost 0 e.options [.once actions] = Action.weights e.options actions := by
    simp [Stack.cost, OpenSequence.cost_once, Action.costs_zero]
  obtain ⟨⟨ending, s⟩, walked⟩ := (start 1).walk_ends (Nat.lt_succ_self _)
  obtain ⟨visited, starts⟩ := (start 0).walk_within walked
  rw [weight] at starts
  refine ⟨_, e.close (ending, s), ran_iff.mpr ⟨run, control, _, accepted, walked, rfl⟩, ?_, ?_⟩
  · rw [close_starts]
    exact starts
  · intro result given
    rw [close_report given]
    exact Nat.le_trans visited starts

end Engine

namespace Desktop

theorem inContext_jumpTo {activity : Activity Unit} {c : Context Desktop} {outcome : Outcome}
    (answered : (inContext activity (fun () => Outcome.ok) c).result = .ok outcome) :
    outcome.jumpTo = none := by
  simp only [inContext] at answered
  split at answered
  split at answered
  · cases answered
    rfl
  · cases answered

theorem matchOnScreen_jumpTo {check : ImageCheck} {c : Context Desktop} {outcome : Outcome}
    (answered : (matchOnScreen check c).result = .ok outcome) : outcome.jumpTo = none := by
  rw [matchOnScreen] at answered
  split at answered
  · cases answered
    rfl
  simp only at answered
  split at answered
  · cases answered
  cases answered
  split <;> rfl

/-- On the desktop no task sends its sequence anywhere. -/
theorem perform_jumpTo {task : Task} {c : Context Desktop} {outcome : Outcome}
    (answered : (perform task c).result = .ok outcome) : outcome.jumpTo = none := by
  cases task with
  | click | drag | input | key | wait | log => exact inContext_jumpTo answered
  | soundCheck =>
    cases answered
    rfl
  | imageMatch => exact matchOnScreen_jumpTo answered

theorem jumpsForward {p : RunSetup (Context Desktop)} (desktop : p.performer = executor.performer)
    (stack : Stack) (s : RunState (Context Desktop)) : p.JumpsForward stack s := by
  intro top parents t _ _ task outcome target _ answered jump
  rw [desktop] at answered
  rw [perform_jumpTo answered] at jump
  cases jump

end Desktop

namespace Engine

/-- A run whose tasks send their sequences only forwards ends, and it visits no more leaves than its
actions weigh. The desktop sends no sequence anywhere, so there every run ends so. -/
theorem execute_ends_within_weight {e : Engine} {actions : List Action} {atPause : AtPause}
    {run : Nat} {control : Control} (accepted : e.control.accept = some (run, control)) :
    (∀ (ω : Type) (performer : Performer ω) (world : ω),
      (e.setup performer actions run atPause).JumpsForward [.once actions]
        (opening actions world control) →
      e.EndsWithin performer actions world atPause (Action.weights e.options actions)) ∧
    ∀ c, e.EndsWithin Desktop.executor.performer actions c atPause
      (Action.weights e.options actions) := by
  constructor
  · intro ω performer world forward
    exact endsWithin_of_jumpsForward accepted forward
  · intro c
    exact endsWithin_of_jumpsForward accepted (Desktop.jumpsForward rfl _ _)

/-- A run in which one task skips the one after it. -/
theorem execute_ends_within_weight_skipping :
    EndsWithin {} { perform := fun _ _ => ⟨.ok { success := true, jumpTo := some 2 }, (), []⟩
                    judge := fun _ _ => ⟨true, (), []⟩ }
      [.task (.input "a"), .task (.input "b")] () .goOn 2 := by
  refine (execute_ends_within_weight rfl).1 Unit _ () ?_
  intro top parents t reached _ task outcome target here answered jump
  cases answered
  cases jump
  -- the first position is left for the end, and then the stack is empty
  cases reached with
  | here => exact Nat.zero_lt_two
  | step first later =>
    cases first
    cases later with
    | here => cases here
    | step first later =>
      cases first
      cases later with
      | step first => cases first

end Engine

end Screenplay
