import Screenplay.Proofs.Reaching

/-!
Which sequences can be open at once. Each of them is one that the action of the sequence below it
opens, down to the actions of the run (`Stack.Descends`), wherever the walk comes.
-/
namespace Screenplay

variable {ω : Type}

/-- The action opens the sequence. Where the sequence stands and how many passes were made of it is
left open. -/
inductive Action.Opens : Action → OpenSequence → Prop where
  | thenActions {condition thenActions elseActions next} :
    Opens (.branch condition thenActions elseActions) ⟨thenActions, next, .once⟩
  | elseActions {condition thenActions elseActions next} :
    Opens (.branch condition thenActions (some elseActions)) ⟨elseActions, next, .once⟩
  | whileBody {condition body maxIterations next most made} :
    Opens (.repeatWhile condition body maxIterations) ⟨body, next, .whileHolds condition most made⟩
  | loopBody {count body next made} :
    Opens (.loop count body) ⟨body, next, .counted count.toNat made⟩

/-- What is taken of a branch is opened by it. -/
theorem Action.opens_chosen {condition : Option Condition} {result : Bool}
    {thenActions actions : List Action} {elseActions : Option (List Action)}
    (taken : chosen result thenActions elseActions = some actions) :
    (Action.branch condition thenActions elseActions).Opens (.once actions) := by
  cases result with
  | true =>
    cases taken
    exact .thenActions
  | false =>
    cases taken
    exact .elseActions

/-- The action is a loop over the body. -/
inductive Action.Repeats : Action → List Action → Prop where
  | whileBody {condition body maxIterations} :
    Repeats (.repeatWhile condition body maxIterations) body
  | loopBody {count body} : Repeats (.loop count body) body

/-- What opens a sequence for several passes is a loop. -/
theorem Action.Opens.repeats {a : Action} {q : OpenSequence} (opens : a.Opens q)
    (repeats : q.passes ≠ .once) : a.Repeats q.actions := by
  cases opens with
  | thenActions | elseActions => exact absurd rfl repeats
  | whileBody => exact .whileBody
  | loopBody => exact .loopBody

/-- The stack leads down a tree of actions: at its bottom are the actions themselves, and every
other sequence is opened by the action that the sequence below it stands behind. -/
inductive Stack.Descends (actions : List Action) : Stack → Prop where
  | nothing : Descends actions []
  | top {next} : Descends actions [⟨actions, next, .once⟩]
  | inner {q owner : OpenSequence} {rest : Stack} {index : Nat} {a : Action}
    (below : Descends actions (owner :: rest)) (behind : owner.next = index + 1)
    (here : owner.actions[index]? = some a) (opens : a.Opens q) : Descends actions (q :: owner :: rest)

namespace Stack.Descends

variable {actions body : List Action} {q : OpenSequence} {rest : Stack}

theorem outer (descends : Descends actions (q :: rest)) : Descends actions rest := by
  cases descends with
  | top => exact .nothing
  | inner below => exact below

/-- Where the innermost sequence stands is left open. -/
theorem stand (descends : Descends actions (q :: rest)) (next : Nat) :
    Descends actions ({ q with next } :: rest) := by
  cases descends with
  | top => exact .top
  | inner below behind here opens =>
    refine .inner below behind here ?_
    cases opens <;> constructor

theorem countedPass {next count made : Nat}
    (descends : Descends actions (⟨body, next, .counted count made⟩ :: rest)) :
    Descends actions (⟨body, 0, .counted count (made + 1)⟩ :: rest) := by
  cases descends with
  | inner below behind here opens =>
    refine .inner below behind here ?_
    cases opens
    exact .loopBody

theorem whilePass {condition : Option Condition} {next most made : Nat}
    (descends : Descends actions (⟨body, next, .whileHolds condition most made⟩ :: rest)) :
    Descends actions (⟨body, 0, .whileHolds condition most (made + 1)⟩ :: rest) := by
  cases descends with
  | inner below behind here opens =>
    refine .inner below behind here ?_
    cases opens
    exact .whileBody

/-- The innermost sequence opens another one at the action that it comes to. -/
theorem enter {inner : OpenSequence} {a : Action} (descends : Descends actions (q :: rest))
    (here : q.actions[q.next]? = some a) (opens : a.Opens inner) :
    Descends actions (inner :: { q with next := q.next + 1 } :: rest) :=
  .inner (descends.stand (q.next + 1)) rfl here opens

end Stack.Descends

/-- Every step leaves a stack that leads down the same tree. -/
theorem RunSetup.keeps_descends (p : RunSetup ω) (actions : List Action) :
    p.Keeps (fun stack _ => Stack.Descends actions stack) fun _ _ => True where
  step := by
    intro top parents s after descends moves
    obtain ⟨body, next, passes⟩ := top
    cases moves with
    | stoppedBetween | stopped | whileAbandoned | branchAbandoned => exact trivial
    | branchTooDeep | whileTooDeep | loopTooDeep => exact trivial
    | once | countedEnough | whileEnough | whileFalse => exact descends.outer
    | countedPass _ _ kind =>
      cases kind
      exact descends.countedPass
    | whilePass _ _ kind =>
      cases kind
      exact descends.whilePass
    | branchNone => exact descends.stand _
    | branch here _ _ taken => exact descends.enter here (Action.opens_chosen taken)
    | whileLoop here => exact descends.enter here .whileBody
    | loop here => exact descends.enter here .loopBody
    | @leaf a x s' =>
      cases x with
      | done => exact descends.stand _
      | jump target => exact descends.stand target
      | ends ending => exact trivial
  finish := fun _ _ => trivial

end Screenplay
