import Screenplay.Proofs.Evaluation

/-!
What one step of the walk does, said with the words of the evaluation: how a call is heard, what
follows a leaf, which stacks come after a stack (`Moves`). A run of an engine is a walk of one
sequence from a fixed state (`Engine.ran_iff`).
-/
namespace Screenplay

variable {ω : Type}

namespace Stack

/-- Every sequence that owns another one has begun an action. -/
def Begun (parents : Stack) : Prop := ∀ q ∈ parents, 1 ≤ q.next

theorem path_cons (top : OpenSequence) (parents : Stack) :
    path (top :: parents) = path parents ++ [top.next - 1] := by
  simp [path]

theorem path_behind {top : OpenSequence} {parents : Stack} {index : Nat}
    (behind : top.next = index + 1) : path (top :: parents) = path parents ++ [index] := by
  rw [path_cons, behind, Nat.add_sub_cancel]

theorem begun_cons {top : OpenSequence} {parents : Stack} {index : Nat}
    (behind : top.next = index + 1) (begun : Begun parents) : Begun (top :: parents) := by
  intro q member
  rcases List.mem_cons.mp member with rfl | later
  · omega
  · exact begun q later

theorem length_path (stack : Stack) : stack.path.length = stack.length := by
  simp [path]

theorem ownerIndex_eq (parents : Stack) : ownerIndex parents = ownerOf (path parents) := by
  simp [ownerIndex, ownerOf, path]

/-- The leaf that is being run counts as begun. -/
theorem reached_eq {stack : Stack} (begun : stack.Begun) (nonempty : stack ≠ []) :
    reached stack = stack.path.headD 0 + 1 := by
  obtain ⟨q, last⟩ : ∃ q, stack.getLast? = some q := by
    simpa [Option.isSome_iff_exists] using (List.getLast?_isSome (l := stack)).mpr nonempty
  have positive := begun q (List.mem_of_getLast? last)
  simp only [reached, path, List.headD_eq_head?_getD, List.head?_reverse, List.getLast?_map, last,
    Option.map_some, Option.getD_some]
  omega

end Stack

/-- What the walk does when an action was left in this way; `top` stands behind the action. -/
def Progress.leave (top : OpenSequence) (parents : Stack) : Exit → RunState ω → Progress ω
  | .done, s => .more (top :: parents) s
  | .jump target, s => .more ({ top with next := target } :: parents) s
  | .ends ending, s => .over ending s

theorem Progress.leave_next {top : OpenSequence} {parents : Stack} {x : Exit} {index n : Nat}
    {s : RunState ω} (behind : top.next = index + 1) (goesOn : x.next index = some n) :
    Progress.leave top parents x s = .more ({ top with next := n } :: parents) s := by
  cases x with
  | done =>
    simp only [Exit.next, Option.some.injEq] at goesOn
    subst goesOn
    simp [leave, ← behind]
  | jump target =>
    simp only [Exit.next, Option.some.injEq] at goesOn
    simp [leave, goesOn]
  | ends e => simp [Exit.next] at goesOn

namespace RunSetup

variable {p : RunSetup ω} {s : RunState ω} {top : OpenSequence} {parents : Stack}

theorem hearing_eq {α : Type} (reply : Reply ω α) (next : RunState ω → α → Progress ω) :
    p.hearing s reply next =
      match p.heard s reply with
      | (s, none) => .over .abandoned s
      | (s, some a) => next s a := by
  rcases heard : s.hear p.atPause reply.signals with ⟨t, _ | world⟩
  · simp only [hearing, RunSetup.heard, heard]
  · simp only [hearing, RunSetup.heard, heard]

theorem judging_eq (owner : ControlKind) (condition : Option Condition)
    (next : RunState ω → Bool → Progress ω) :
    p.judging s owner condition next =
      match p.judged s owner condition with
      | (s, none) => .over .abandoned s
      | (s, some result) => next s result := by
  cases condition with
  | none => rfl
  | some c =>
    rcases call : p.heard s (p.performer.judge c s.world) with ⟨t, _ | result⟩
    · simp only [judging, judged, hearing_eq, call]
    · simp only [judging, judged, hearing_eq, call]

theorem emit_world (e : Event) : (s.emit e).world = s.world := rfl

theorem begin_eq (begun : Stack.Begun (top :: parents)) (index : Nat) (action : Action) :
    p.begin s (top :: parents) index action =
      p.started s (Stack.path (top :: parents)) index action := by
  rw [begin, started, Stack.reached_eq begun (List.cons_ne_nil _ _)]

theorem settle_eq (index : Nat) (task : Task) (answer : Except String Outcome) :
    p.settle s top parents index task answer =
      Progress.leave top parents (p.answered s (Stack.path (top :: parents)) index task answer).1
        (p.answered s (Stack.path (top :: parents)) index task answer).2 := by
  cases answer with
  | error error => rfl
  | ok outcome =>
    simp only [settle, answered]
    cases outcome.terminate <;> cases (!outcome.success && p.options.stopOnFailure) <;>
      cases outcome.jumpTo <;> rfl

theorem enter_admitted (admits : p.Admits (Stack.path parents)) (inner : OpenSequence) :
    p.enter s parents inner = .more (inner :: parents) s := by
  rw [Admits, Stack.length_path] at admits
  rw [enter, if_neg (by omega)]

theorem enter_tooDeep (deep : ¬ p.Admits (Stack.path parents)) (inner : OpenSequence) :
    p.enter s parents inner = .over (.fault (.tooDeep p.options.maxDepth)) s := by
  rw [Admits, Stack.length_path] at deep
  rw [enter, if_pos (by omega)]

/-! ### Steps by what is next in the innermost sequence -/

theorem step_exhausted (behind : top.actions.length ≤ top.next) :
    p.step (top :: parents) s =
      if top.passes ≠ .once ∧ s.control.isCancelled p.run then
        .over .stopped (s.stop (ownerOf (Stack.path parents)))
      else p.turn s top parents := by
  rw [step, List.getElem?_eq_none behind, Stack.ownerIndex_eq]

theorem step_action {a : Action} (here : top.actions[top.next]? = some a) :
    p.step (top :: parents) s =
      if s.control.isCancelled p.run then .over .stopped (s.stop top.next)
      else
        p.execute (s.reaching top.next) { top with next := top.next + 1 } parents top.next a := by
  rw [step, here]
  rfl

theorem step_turn (behind : top.actions.length ≤ top.next)
    (running : s.control.isCancelled p.run = false) :
    p.step (top :: parents) s = p.turn s top parents := by
  rw [step_exhausted behind, if_neg (by simp [running])]

theorem step_stopped {a : Action} (here : top.actions[top.next]? = some a)
    (cancelled : s.control.isCancelled p.run = true) :
    p.step (top :: parents) s = .over .stopped (s.stop top.next) := by
  rw [step_action here, if_pos cancelled]

theorem step_running {a : Action} (here : top.actions[top.next]? = some a)
    (running : s.control.isCancelled p.run = false) :
    p.step (top :: parents) s =
      p.execute (s.reaching top.next) { top with next := top.next + 1 } parents top.next a := by
  rw [step_action here, if_neg (by simp [running])]

/-! ### The innermost sequence has run out -/

theorem turn_once (kind : top.passes = .once) : p.turn s top parents = .more parents s := by
  rw [turn, kind]

theorem turn_counted {count made : Nat} (kind : top.passes = .counted count made) :
    p.turn s top parents =
      if count ≤ made then .more parents s
      else .more ({ top with next := 0, passes := .counted count (made + 1) } :: parents)
        (s.emit (.loopIteration .loop (made + 1) (some count))) := by
  rw [turn, kind]

theorem turn_while {condition : Option Condition} {most made : Nat}
    (kind : top.passes = .whileHolds condition most made) :
    p.turn s top parents =
      if most ≤ made then .more parents s
      else
        match p.judged s .repeatWhile condition with
        | (s, none) => .over .abandoned s
        | (s, some true) =>
          .more (⟨top.actions, 0, .whileHolds condition most (made + 1)⟩ :: parents)
            (s.emit (.loopIteration .repeatWhile (made + 1) none))
        | (s, some false) => .more parents s := by
  have unfolded : p.turn s top parents =
      if most ≤ made then .more parents s
      else p.judging s .repeatWhile condition fun s result =>
        if result then
          .more (⟨top.actions, 0, .whileHolds condition most (made + 1)⟩ :: parents)
            (s.emit (.loopIteration .repeatWhile (made + 1) none))
        else .more parents s := by
    rw [turn, kind]
  rw [unfolded, judging_eq]
  rcases p.judged s .repeatWhile condition with ⟨s', _ | _ | _⟩ <;> rfl

/-! ### The action that is next -/

theorem execute_branch (condition : Option Condition) (thenActions : List Action)
    (elseActions : Option (List Action)) (index : Nat) :
    p.execute s top parents index (.branch condition thenActions elseActions) =
      match p.judged s .branch condition with
      | (s, none) => .over .abandoned s
      | (s, some result) =>
        match chosen result thenActions elseActions with
        | none => .more (top :: parents) s
        | some actions => p.enter s (top :: parents) (.once actions) := by
  rw [execute, judging_eq]
  rfl

theorem execute_while (condition : Option Condition) (body : List Action)
    (maxIterations : Option UInt32) (index : Nat) :
    p.execute s top parents index (.repeatWhile condition body maxIterations) =
      p.enter s (top :: parents) (.repeating body (.whileHolds condition
        (maxIterations.getD p.options.defaultMaxIterations).toNat 0)) := rfl

theorem execute_loop (count : UInt32) (body : List Action) (index : Nat) :
    p.execute s top parents index (.loop count body) =
      p.enter s (top :: parents) (.repeating body (.counted count.toNat 0)) := rfl

/-- A leaf is evaluated in one step. -/
theorem execute_leaf {a : Action} {index : Nat} {x : Exit} {s' : RunState ω}
    (leaf : a.isControl = false) (begun : Stack.Begun parents) (behind : top.next = index + 1)
    (evaluated : Evaluates p (.action (Stack.path parents) index a) s x s') :
    p.execute s top parents index a = .leave top parents x s' := by
  have begun' := Stack.begun_cons behind begun
  have path : Stack.path (top :: parents) = Stack.path parents ++ [index] :=
    Stack.path_behind behind
  cases evaluated with
  | skip => simp only [execute, begin_eq begun', path, Progress.leave]
  | test => simp only [execute, begin_eq begun', path, Progress.leave]
  | fail => simp only [execute, begin_eq begun', path, Progress.leave]
  | taskAbandoned call =>
    simp only [execute, begin_eq begun', path, hearing_eq]
    rw [started, emit_world, ← started, call]
    rfl
  | task call outcome =>
    simp only [execute, begin_eq begun', path, hearing_eq]
    rw [started, emit_world, ← started, call]
    simp only [settle_eq, path, outcome]
  | branchAbandoned | branchNone | branchTooDeep | branch => simp [Action.isControl] at leaf
  | whileTooDeep | whileLoop | loopTooDeep | loop => simp [Action.isControl] at leaf

/-- Every leaf can be evaluated. -/
theorem leaf_evaluates {a : Action} (leaf : a.isControl = false) (place : List Nat) (index : Nat) :
    ∃ x s', Evaluates p (.action place index a) s x s' := by
  cases a with
  | branch | repeatWhile | loop => simp [Action.isControl] at leaf
  | skip reason => exact ⟨_, _, .skip⟩
  | fail message => exact ⟨_, _, .fail⟩
  | test name => exact ⟨_, _, .test⟩
  | task t =>
    rcases call : p.heard (p.started s (place ++ [index]) index (.task t))
      (p.performer.perform t s.world) with ⟨s', _ | answer⟩
    · exact ⟨_, _, .taskAbandoned call⟩
    · exact ⟨_, _, .task call rfl⟩

end RunSetup

/-! ### All steps -/

/-- What one step can do while `top` is the innermost sequence. -/
inductive Moves (p : RunSetup ω) (top : OpenSequence) (parents : Stack) (s : RunState ω) :
    Progress ω → Prop where
  | stoppedBetween (behind : top.actions.length ≤ top.next) (repeats : top.passes ≠ .once)
    (cancelled : s.control.isCancelled p.run = true) :
    Moves p top parents s (.over .stopped (s.stop (ownerOf (Stack.path parents))))
  | once (behind : top.actions.length ≤ top.next) (kind : top.passes = .once) :
    Moves p top parents s (.more parents s)
  | countedEnough {count made} (behind : top.actions.length ≤ top.next)
    (running : s.control.isCancelled p.run = false) (kind : top.passes = .counted count made)
    (enough : count ≤ made) :
    Moves p top parents s (.more parents s)
  | countedPass {count made} (behind : top.actions.length ≤ top.next)
    (running : s.control.isCancelled p.run = false) (kind : top.passes = .counted count made)
    (more : made < count) :
    Moves p top parents s (.more (⟨top.actions, 0, .counted count (made + 1)⟩ :: parents)
      (s.emit (.loopIteration .loop (made + 1) (some count))))
  | whileEnough {condition most made} (behind : top.actions.length ≤ top.next)
    (running : s.control.isCancelled p.run = false)
    (kind : top.passes = .whileHolds condition most made) (enough : most ≤ made) :
    Moves p top parents s (.more parents s)
  | whileAbandoned {condition most made s'} (behind : top.actions.length ≤ top.next)
    (running : s.control.isCancelled p.run = false)
    (kind : top.passes = .whileHolds condition most made) (more : made < most)
    (judged : p.judged s .repeatWhile condition = (s', none)) :
    Moves p top parents s (.over .abandoned s')
  | whileFalse {condition most made s'} (behind : top.actions.length ≤ top.next)
    (running : s.control.isCancelled p.run = false)
    (kind : top.passes = .whileHolds condition most made) (more : made < most)
    (judged : p.judged s .repeatWhile condition = (s', some false)) :
    Moves p top parents s (.more parents s')
  | whilePass {condition most made s'} (behind : top.actions.length ≤ top.next)
    (running : s.control.isCancelled p.run = false)
    (kind : top.passes = .whileHolds condition most made) (more : made < most)
    (judged : p.judged s .repeatWhile condition = (s', some true)) :
    Moves p top parents s
      (.more (⟨top.actions, 0, .whileHolds condition most (made + 1)⟩ :: parents)
        (s'.emit (.loopIteration .repeatWhile (made + 1) none)))
  | stopped {a} (here : top.actions[top.next]? = some a)
    (cancelled : s.control.isCancelled p.run = true) :
    Moves p top parents s (.over .stopped (s.stop top.next))
  | leaf {a x s'} (here : top.actions[top.next]? = some a)
    (running : s.control.isCancelled p.run = false) (leaf : a.isControl = false)
    (evaluated : Evaluates p (.action (Stack.path parents) top.next a) (s.reaching top.next) x s') :
    Moves p top parents s (.leave { top with next := top.next + 1 } parents x s')
  | branchAbandoned {condition thenActions elseActions s'}
    (here : top.actions[top.next]? = some (.branch condition thenActions elseActions))
    (running : s.control.isCancelled p.run = false)
    (judged : p.judged (s.reaching top.next) .branch condition = (s', none)) :
    Moves p top parents s (.over .abandoned s')
  | branchNone {condition thenActions elseActions result s'}
    (here : top.actions[top.next]? = some (.branch condition thenActions elseActions))
    (running : s.control.isCancelled p.run = false)
    (judged : p.judged (s.reaching top.next) .branch condition = (s', some result))
    (nothing : chosen result thenActions elseActions = none) :
    Moves p top parents s (.more ({ top with next := top.next + 1 } :: parents) s')
  | branchTooDeep {condition thenActions elseActions result s' actions}
    (here : top.actions[top.next]? = some (.branch condition thenActions elseActions))
    (running : s.control.isCancelled p.run = false)
    (judged : p.judged (s.reaching top.next) .branch condition = (s', some result))
    (taken : chosen result thenActions elseActions = some actions)
    (deep : ¬ p.Admits (Stack.path parents ++ [top.next])) :
    Moves p top parents s (.over (.fault (.tooDeep p.options.maxDepth)) s')
  | branch {condition thenActions elseActions result s' actions}
    (here : top.actions[top.next]? = some (.branch condition thenActions elseActions))
    (running : s.control.isCancelled p.run = false)
    (judged : p.judged (s.reaching top.next) .branch condition = (s', some result))
    (taken : chosen result thenActions elseActions = some actions)
    (admits : p.Admits (Stack.path parents ++ [top.next])) :
    Moves p top parents s
      (.more (.once actions :: { top with next := top.next + 1 } :: parents) s')
  | whileTooDeep {condition body maxIterations}
    (here : top.actions[top.next]? = some (.repeatWhile condition body maxIterations))
    (running : s.control.isCancelled p.run = false)
    (deep : ¬ p.Admits (Stack.path parents ++ [top.next])) :
    Moves p top parents s (.over (.fault (.tooDeep p.options.maxDepth)) (s.reaching top.next))
  | whileLoop {condition body maxIterations}
    (here : top.actions[top.next]? = some (.repeatWhile condition body maxIterations))
    (running : s.control.isCancelled p.run = false)
    (admits : p.Admits (Stack.path parents ++ [top.next])) :
    Moves p top parents s
      (.more (.repeating body (.whileHolds condition
          (maxIterations.getD p.options.defaultMaxIterations).toNat 0) ::
        { top with next := top.next + 1 } :: parents) (s.reaching top.next))
  | loopTooDeep {count body} (here : top.actions[top.next]? = some (.loop count body))
    (running : s.control.isCancelled p.run = false)
    (deep : ¬ p.Admits (Stack.path parents ++ [top.next])) :
    Moves p top parents s (.over (.fault (.tooDeep p.options.maxDepth)) (s.reaching top.next))
  | loop {count body} (here : top.actions[top.next]? = some (.loop count body))
    (running : s.control.isCancelled p.run = false)
    (admits : p.Admits (Stack.path parents ++ [top.next])) :
    Moves p top parents s
      (.more (.repeating body (.counted count.toNat 0) ::
        { top with next := top.next + 1 } :: parents) (s.reaching top.next))

namespace RunSetup

variable {p : RunSetup ω} {s : RunState ω} {top : OpenSequence} {parents : Stack}

/-- A step that finds the sequence on top run out. -/
theorem step_moves_exhausted (behind : top.actions.length ≤ top.next) :
    Moves p top parents s (p.step (top :: parents) s) := by
  rw [step_exhausted behind]
  by_cases kind : top.passes = .once
  · rw [if_neg (by simp [kind]), turn_once kind]
    exact .once behind kind
  by_cases cancelled : s.control.isCancelled p.run
  · rw [if_pos ⟨kind, cancelled⟩]
    exact .stoppedBetween behind kind cancelled
  rw [if_neg (by simp [cancelled])]
  have running := Bool.eq_false_iff.mpr cancelled
  rcases shape : top.passes with _ | ⟨count, made⟩ | ⟨condition, most, made⟩
  · exact absurd shape kind
  · rw [turn_counted shape]
    split
    next enough => exact .countedEnough behind running shape enough
    next more => exact .countedPass behind running shape (Nat.lt_of_not_le more)
  · rw [turn_while shape]
    split
    next enough => exact .whileEnough behind running shape enough
    next more =>
      have more := Nat.lt_of_not_le more
      rcases judged : p.judged s .repeatWhile condition with ⟨s', _ | _ | _⟩
      · exact .whileAbandoned behind running shape more judged
      · exact .whileFalse behind running shape more judged
      · exact .whilePass behind running shape more judged

/-- A step that takes an action. -/
theorem step_moves_action (begun : Stack.Begun parents) {a : Action}
    (here : top.actions[top.next]? = some a) :
    Moves p top parents s (p.step (top :: parents) s) := by
  rw [step_action here]
  by_cases cancelled : s.control.isCancelled p.run
  · rw [if_pos cancelled]
    exact .stopped here cancelled
  rw [if_neg cancelled]
  have running := Bool.eq_false_iff.mpr cancelled
  have path : Stack.path ({ top with next := top.next + 1 } :: parents) =
      Stack.path parents ++ [top.next] := Stack.path_behind rfl
  rcases control : a.isControl with _ | _
  · obtain ⟨x, s', evaluated⟩ :=
      leaf_evaluates (p := p) (s := s.reaching top.next) control (Stack.path parents) top.next
    rw [execute_leaf control begun rfl evaluated]
    exact .leaf here running control evaluated
  cases a with
  | skip | fail | test | task => simp [Action.isControl] at control
  | branch condition thenActions elseActions =>
    rw [execute_branch]
    rcases judged : p.judged (s.reaching top.next) .branch condition with ⟨s', _ | result⟩
    · exact .branchAbandoned here running judged
    rcases taken : chosen result thenActions elseActions with _ | actions
    · simp only [taken]
      exact .branchNone here running judged taken
    simp only [taken]
    by_cases admits : p.Admits (Stack.path parents ++ [top.next])
    · rw [enter_admitted (path ▸ admits)]
      exact .branch here running judged taken admits
    · rw [enter_tooDeep (path ▸ admits)]
      exact .branchTooDeep here running judged taken admits
  | repeatWhile condition body maxIterations =>
    rw [execute_while]
    by_cases admits : p.Admits (Stack.path parents ++ [top.next])
    · rw [enter_admitted (path ▸ admits)]
      exact .whileLoop here running admits
    · rw [enter_tooDeep (path ▸ admits)]
      exact .whileTooDeep here running admits
  | loop count body =>
    rw [execute_loop]
    by_cases admits : p.Admits (Stack.path parents ++ [top.next])
    · rw [enter_admitted (path ▸ admits)]
      exact .loop here running admits
    · rw [enter_tooDeep (path ▸ admits)]
      exact .loopTooDeep here running admits

/-- Every step is one of the moves. -/
theorem step_moves (begun : Stack.Begun parents) :
    Moves p top parents s (p.step (top :: parents) s) := by
  rcases here : top.actions[top.next]? with _ | a
  · exact step_moves_exhausted (List.getElem?_eq_none_iff.mp here)
  · exact step_moves_action begun here

end RunSetup

/-- The stacks that a step can leave behind. -/
theorem Moves.stack {p : RunSetup ω} {top : OpenSequence} {parents stack : Stack}
    {s s' : RunState ω} {after : Progress ω} (moves : Moves p top parents s after)
    (more : after = .more stack s') :
    stack = parents ∨ (∃ next passes, stack = ⟨top.actions, next, passes⟩ :: parents) ∨
      ∃ inner, stack = inner :: { top with next := top.next + 1 } :: parents := by
  cases moves with
  | stoppedBetween | whileAbandoned | stopped | branchAbandoned | branchTooDeep | whileTooDeep
  | loopTooDeep => cases more
  | once | countedEnough | whileEnough | whileFalse => cases more; exact .inl rfl
  | countedPass | whilePass | branchNone => cases more; exact .inr (.inl ⟨_, _, rfl⟩)
  | branch | whileLoop | loop => cases more; exact .inr (.inr ⟨_, rfl⟩)
  | @leaf a x t here running leaf evaluated =>
    cases x with
    | done => cases more; exact .inr (.inl ⟨_, _, rfl⟩)
    | jump target => cases more; exact .inr (.inl ⟨_, _, rfl⟩)
    | ends e => cases more

/-- A sequence that owns another one stands behind the action that owns it, at every step. -/
theorem RunSetup.step_begun {p : RunSetup ω} {top : OpenSequence} {parents stack : Stack}
    {s s' : RunState ω} (begun : Stack.Begun parents)
    (more : p.step (top :: parents) s = .more stack s') : Stack.Begun stack.tail := by
  rcases (step_moves begun).stack more with rfl | ⟨next, passes, rfl⟩ | ⟨inner, rfl⟩
  · exact fun q member => begun q (List.mem_of_mem_tail member)
  · exact begun
  · exact Stack.begun_cons rfl begun

/-! ### Whole walks -/

/-- What is asked of the stack and the state that a step leaves, or else of the end of the walk. -/
def Progress.Meets (going : Stack → RunState ω → Prop) (ended : RunState ω → Prop) :
    Progress ω → Prop
  | .more stack s => going stack s
  | .over _ s => ended s

/-- An invariant that every step keeps, and that ends as it should, does so over a whole walk. -/
theorem RunSetup.walk_meets {p : RunSetup ω} {going : Stack → RunState ω → Prop}
    {ended : RunState ω → Prop}
    (kept : ∀ stack s, going stack s → (p.step stack s).Meets going ended) {fuel : Nat}
    {stack : Stack} {s s' : RunState ω} {e : Ending} (holds : going stack s)
    (walked : p.walk fuel stack s = some (e, s')) : ended s' := by
  induction fuel generalizing stack s with
  | zero => cases walked
  | succ fuel ih =>
    have next := kept stack s holds
    rw [walk] at walked
    rcases step : p.step stack s with ⟨rest, t⟩ | ⟨e, t⟩
    · rw [step] at walked next
      exact ih next walked
    · rw [step] at walked next
      cases walked
      exact next

/-! ### Runs of an engine -/

namespace Engine

/-- What does not change during a run of this engine. -/
def setup (e : Engine) (performer : Performer ω) (actions : List Action) (run : Nat)
    (atPause : AtPause) : RunSetup ω :=
  { performer, options := e.options, total := actions.length, run, atPause }

/-- The state in which a run begins that was accepted with this control. -/
def opening (actions : List Action) (world : ω) (control : Control) : RunState ω :=
  { world, control, events := #[.start actions.length] }

/-- A run has ended exactly if it was accepted and its walk has ended. -/
theorem ran_iff {e : Engine} {performer : Performer ω} {actions : List Action} {world : ω}
    {atPause : AtPause} {fuel : Nat} {record : RunRecord ω} :
    e.execute performer actions world atPause fuel = .ran record ↔
      ∃ run control ended, e.control.accept = some (run, control) ∧
        (e.setup performer actions run atPause).walk fuel [.once actions]
          (opening actions world control) = some ended ∧ record = e.close ended := by
  simp only [execute]
  constructor
  · intro ran
    rcases accepted : e.control.accept with _ | ⟨run, control⟩
    · simp [accepted] at ran
    simp only [accepted] at ran
    split at ran
    next => cases ran
    next ended walked =>
      cases ran
      exact ⟨run, control, ended, rfl, walked, rfl⟩
  · rintro ⟨run, control, ended, accepted, walked, rfl⟩
    simp only [setup, opening] at walked
    simp only [accepted, walked]

end Engine

end Screenplay
