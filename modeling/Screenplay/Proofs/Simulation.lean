import Screenplay.Proofs.Steps

/-!
The walk with a stack and the evaluation of the tree come to the same. Every evaluation is walked
(`Evaluates.walked`): the stack around it waits until it is done. Conversely each step of the walk
can be put in front of an evaluation of the stack that it leaves (`Moves.evaluated`), so a walk that
ends has evaluated the whole tree.
-/
namespace Screenplay

variable {ω : Type} {p : RunSetup ω}

/-- The walk of a stack ends in this way, with as many steps as it needs. -/
def RunSetup.Ends (p : RunSetup ω) (stack : Stack) (s : RunState ω) (r : Ending × RunState ω) :
    Prop := ∃ fuel, p.walk fuel stack s = some r

/-- The walk ends in this way after a step. -/
def Progress.Ends (p : RunSetup ω) : Progress ω → Ending × RunState ω → Prop
  | .more stack s, r => p.Ends stack s r
  | .over e s, r => r = (e, s)

theorem RunSetup.ends_iff {stack : Stack} {s : RunState ω} {r : Ending × RunState ω} :
    p.Ends stack s r ↔ (p.step stack s).Ends p r := by
  constructor
  · rintro ⟨fuel, walked⟩
    cases fuel with
    | zero => cases walked
    | succ fuel =>
      rw [walk] at walked
      rcases step : p.step stack s with ⟨rest, t⟩ | ⟨e, t⟩
      · rw [step] at walked
        exact ⟨fuel, walked⟩
      · rw [step] at walked
        exact (Option.some.inj walked).symm
  · intro ends
    rcases step : p.step stack s with ⟨rest, t⟩ | ⟨e, t⟩
    · rw [step] at ends
      obtain ⟨fuel, walked⟩ := ends
      exact ⟨fuel + 1, by rw [walk, step]; exact walked⟩
    · rw [step] at ends
      exact ⟨1, by rw [walk, step, ends]⟩

/-- What a part leads to: it ends the run, or the run goes on after it. -/
def Exit.Leads (x : Exit) (s : RunState ω) (r : Ending × RunState ω) (after : RunState ω → Prop) :
    Prop :=
  match x with
  | .done => after s
  | .jump _ => False
  | .ends e => r = (e, s)

/-! ### What is evaluated is walked -/

/-- Only a leaf sends its sequence to another position. -/
def Part.isLeaf : Part → Bool
  | .action _ _ a => !a.isControl
  | .sequence .. | .passes .. => false

theorem Evaluates.ne_jump {part : Part} {s s' : RunState ω} {x : Exit}
    (evaluated : Evaluates p part s x s') (inner : part.isLeaf = false) (target : Nat) :
    x ≠ .jump target := by
  induction evaluated with
  | step _ _ _ _ _ _ later => exact later rfl
  | branch _ _ _ _ within => exact within rfl
  | whileLoop _ _ _ within => exact within rfl
  | loop _ _ within => exact within rfl
  | countedPass _ _ _ _ _ later => exact later rfl
  | whilePass _ _ _ _ _ _ later => exact later rfl
  | skip | test | fail | taskAbandoned | task => simp [Part.isLeaf, Action.isControl] at inner
  | exhausted | stopped | stepOver | branchAbandoned | branchNone | branchTooDeep | whileTooDeep
  | loopTooDeep | once | passesStopped | countedEnough | countedOver | whileEnough | whileAbandoned
  | whileFalse | whileOver => simp

/-- A part is walked as it was evaluated, on top of any stack that has its place: if the walk ends
in this way after the part, it ends in this way from its beginning. -/
def Part.Walked (p : RunSetup ω) : Part → RunState ω → Exit → RunState ω → Prop
  | .sequence place actions next, s, x, s' =>
    ∀ (passes : Passes) (parents : Stack) (r : Ending × RunState ω),
      Stack.path parents = place → Stack.Begun parents →
      (x.Leads s' r fun s' =>
        ∀ n, actions.length ≤ n → p.Ends (⟨actions, n, passes⟩ :: parents) s' r) →
      p.Ends (⟨actions, next, passes⟩ :: parents) s r
  | .action place index a, s, x, s' =>
    ∀ (top : OpenSequence) (parents : Stack) (r : Ending × RunState ω),
      Stack.path parents = place → Stack.Begun parents → top.next = index + 1 →
      (Progress.leave top parents x s').Ends p r → (p.execute s top parents index a).Ends p r
  | .passes place body kind, s, x, s' =>
    ∀ (next : Nat) (parents : Stack) (r : Ending × RunState ω),
      Stack.path parents = place → Stack.Begun parents → body.length ≤ next →
      (x.Leads s' r fun s' => p.Ends parents s' r) →
      p.Ends (⟨body, next, kind⟩ :: parents) s r

theorem Part.walked_leaf {place : List Nat} {index : Nat} {a : Action} {s s' : RunState ω}
    {x : Exit} (leaf : a.isControl = false) (evaluated : Evaluates p (.action place index a) s x s') :
    Part.Walked p (.action place index a) s x s' := by
  rintro top parents r rfl begun behind ends
  rw [RunSetup.execute_leaf leaf begun behind evaluated]
  exact ends

/-- A walk that ends after an action ends so after what the action opened. -/
theorem Exit.leads_of_leave {x : Exit} {top : OpenSequence} {parents : Stack} {s : RunState ω}
    {r : Ending × RunState ω} (stays : ∀ target, x ≠ .jump target)
    (ends : (Progress.leave top parents x s).Ends p r) :
    x.Leads s r fun s => p.Ends (top :: parents) s r := by
  cases x with
  | done => exact ends
  | jump target => exact absurd rfl (stays target)
  | ends e => exact ends

theorem Exit.Leads.mono {x : Exit} {s : RunState ω} {r : Ending × RunState ω}
    {after after' : RunState ω → Prop} (leads : x.Leads s r after)
    (weaker : ∀ s, after s → after' s) : x.Leads s r after' := by
  cases x with
  | done => exact weaker _ leads
  | jump target => exact leads
  | ends e => exact leads

theorem RunSetup.ends_once {actions : List Action} {n : Nat} {parents : Stack} {s : RunState ω}
    {r : Ending × RunState ω} (behind : actions.length ≤ n) (ends : p.Ends parents s r) :
    p.Ends (⟨actions, n, .once⟩ :: parents) s r := by
  rw [ends_iff, step_exhausted behind, if_neg (by simp), turn_once rfl]
  exact ends

/-- Every evaluation is walked. -/
theorem Evaluates.walked {part : Part} {s s' : RunState ω} {x : Exit}
    (evaluated : Evaluates p part s x s') : part.Walked p s x s' := by
  induction evaluated with
  | exhausted behind =>
    rintro passes parents r rfl begun leads
    exact leads _ behind
  | @stopped place next a s actions here cancelled =>
    rintro passes parents r rfl begun leads
    have step : p.step (⟨actions, next, passes⟩ :: parents) s = .over .stopped (s.stop next) :=
      RunSetup.step_stopped here cancelled
    rw [RunSetup.ends_iff, step]
    exact leads
  | @step place next n a s s' s'' x y actions here running _ goesOn _ first later =>
    rintro passes parents r rfl begun leads
    have step : p.step (⟨actions, next, passes⟩ :: parents) s =
        p.execute (s.reaching next) ⟨actions, next + 1, passes⟩ parents next a :=
      RunSetup.step_running here running
    rw [RunSetup.ends_iff, step]
    apply first _ _ _ rfl begun rfl
    rw [Progress.leave_next rfl goesOn]
    exact later passes parents r rfl begun leads
  | @stepOver place next a s s' e actions here running _ first =>
    rintro passes parents r rfl begun leads
    have step : p.step (⟨actions, next, passes⟩ :: parents) s =
        p.execute (s.reaching next) ⟨actions, next + 1, passes⟩ parents next a :=
      RunSetup.step_running here running
    rw [RunSetup.ends_iff, step]
    exact first _ _ _ rfl begun rfl leads
  | skip => exact Part.walked_leaf rfl .skip
  | test => exact Part.walked_leaf rfl .test
  | fail => exact Part.walked_leaf rfl .fail
  | taskAbandoned call => exact Part.walked_leaf rfl (.taskAbandoned call)
  | task call outcome => exact Part.walked_leaf rfl (.task call outcome)
  | branchAbandoned judged =>
    rintro top parents r rfl begun behind ends
    rw [RunSetup.execute_branch, judged]
    exact ends
  | branchNone judged nothing =>
    rintro top parents r rfl begun behind ends
    rw [RunSetup.execute_branch, judged]
    simp only [nothing]
    exact ends
  | branchTooDeep judged taken deep =>
    rintro top parents r rfl begun behind ends
    rw [RunSetup.execute_branch, judged]
    simp only [taken]
    rw [RunSetup.enter_tooDeep (Stack.path_behind behind ▸ deep)]
    exact ends
  | branch judged taken admits inner within =>
    rintro top parents r rfl begun behind ends
    rw [RunSetup.execute_branch, judged]
    simp only [taken]
    rw [RunSetup.enter_admitted (Stack.path_behind behind ▸ admits)]
    apply within .once _ _ (Stack.path_behind behind) (Stack.begun_cons behind begun)
    exact (Exit.leads_of_leave (inner.ne_jump rfl) ends).mono
      fun s ends n beyond => RunSetup.ends_once beyond ends
  | whileTooDeep deep =>
    rintro top parents r rfl begun behind ends
    rw [RunSetup.execute_while, RunSetup.enter_tooDeep (Stack.path_behind behind ▸ deep)]
    exact ends
  | whileLoop admits bound inner within =>
    rintro top parents r rfl begun behind ends
    rw [RunSetup.execute_while, RunSetup.enter_admitted (Stack.path_behind behind ▸ admits), ← bound]
    exact within _ _ _ (Stack.path_behind behind) (Stack.begun_cons behind begun) (Nat.le_refl _)
      (Exit.leads_of_leave (inner.ne_jump rfl) ends)
  | loopTooDeep deep =>
    rintro top parents r rfl begun behind ends
    rw [RunSetup.execute_loop, RunSetup.enter_tooDeep (Stack.path_behind behind ▸ deep)]
    exact ends
  | loop admits inner within =>
    rintro top parents r rfl begun behind ends
    rw [RunSetup.execute_loop, RunSetup.enter_admitted (Stack.path_behind behind ▸ admits)]
    exact within _ _ _ (Stack.path_behind behind) (Stack.begun_cons behind begun) (Nat.le_refl _)
      (Exit.leads_of_leave (inner.ne_jump rfl) ends)
  | once =>
    rintro next parents r rfl begun behind leads
    exact RunSetup.ends_once behind leads
  | passesStopped repeats cancelled =>
    rintro next parents r rfl begun behind leads
    rw [RunSetup.ends_iff, RunSetup.step_exhausted behind, if_pos ⟨repeats, cancelled⟩]
    exact leads
  | countedEnough running enough =>
    rintro next parents r rfl begun behind leads
    rw [RunSetup.ends_iff, RunSetup.step_turn behind running, RunSetup.turn_counted rfl,
      if_pos enough]
    exact leads
  | countedPass running more _ _ pass later =>
    rintro next parents r rfl begun behind leads
    rw [RunSetup.ends_iff, RunSetup.step_turn behind running, RunSetup.turn_counted rfl,
      if_neg (Nat.not_le_of_lt more)]
    apply pass _ _ _ rfl begun
    exact fun n beyond => later n parents r rfl begun beyond leads
  | countedOver running more _ pass =>
    rintro next parents r rfl begun behind leads
    rw [RunSetup.ends_iff, RunSetup.step_turn behind running, RunSetup.turn_counted rfl,
      if_neg (Nat.not_le_of_lt more)]
    exact pass _ _ _ rfl begun leads
  | whileEnough running enough =>
    rintro next parents r rfl begun behind leads
    rw [RunSetup.ends_iff, RunSetup.step_turn behind running, RunSetup.turn_while rfl,
      if_pos enough]
    exact leads
  | whileAbandoned running more judged =>
    rintro next parents r rfl begun behind leads
    rw [RunSetup.ends_iff, RunSetup.step_turn behind running, RunSetup.turn_while rfl,
      if_neg (Nat.not_le_of_lt more), judged]
    exact leads
  | whileFalse running more judged =>
    rintro next parents r rfl begun behind leads
    rw [RunSetup.ends_iff, RunSetup.step_turn behind running, RunSetup.turn_while rfl,
      if_neg (Nat.not_le_of_lt more), judged]
    exact leads
  | whilePass running more judged _ _ pass later =>
    rintro next parents r rfl begun behind leads
    rw [RunSetup.ends_iff, RunSetup.step_turn behind running, RunSetup.turn_while rfl,
      if_neg (Nat.not_le_of_lt more), judged]
    apply pass _ _ _ rfl begun
    exact fun n beyond => later n parents r rfl begun beyond leads
  | whileOver running more judged _ pass =>
    rintro next parents r rfl begun behind leads
    rw [RunSetup.ends_iff, RunSetup.step_turn behind running, RunSetup.turn_while rfl,
      if_neg (Nat.not_le_of_lt more), judged]
    exact pass _ _ _ rfl begun leads

/-! ### What is walked is evaluated -/

/-- The evaluation of a part leads on: it ends the run in this way, or it is done in a state from
which the run goes on. -/
def Part.Leads (p : RunSetup ω) (part : Part) (s : RunState ω) (r : Ending × RunState ω)
    (after : RunState ω → Prop) : Prop :=
  ∃ x s', Evaluates p part s x s' ∧ x.Leads s' r after

/-- The evaluation of a stack ends the run in this way: the rest of the pass on top, the passes
after it, then the sequences below. -/
def Stack.Evaluated (p : RunSetup ω) : Stack → RunState ω → Ending × RunState ω → Prop
  | [], s, r => r = (.finished, s)
  | top :: parents, s, r =>
    Part.Leads p (.sequence (path parents) top.actions top.next) s r fun s =>
      Part.Leads p (.passes (path parents) top.actions top.passes) s r fun s =>
        Evaluated p parents s r

/-- The evaluation ends the run in this way after a step. -/
def Progress.Evaluated (p : RunSetup ω) : Progress ω → Ending × RunState ω → Prop
  | .more stack s, r => Stack.Evaluated p stack s r
  | .over e s, r => r = (e, s)

section
variable {place : List Nat} {actions body : List Action} {next n : Nat} {a : Action} {x : Exit}
  {s s' : RunState ω} {r : Ending × RunState ω} {after : RunState ω → Prop}

/-- A sequence that has run out leads on at once. -/
theorem Part.leads_exhausted (behind : actions.length ≤ next) :
    Part.Leads p (.sequence place actions next) s r after ↔ after s := by
  constructor
  · rintro ⟨x, s', evaluated, leads⟩
    cases evaluated with
    | exhausted => exact leads
    | stopped here | step here | stepOver here =>
      rw [List.getElem?_eq_none behind] at here
      cases here
  · exact fun on => ⟨.done, s, .exhausted behind, on⟩

/-- What follows a pass is decided when the pass has run out. -/
theorem Part.leads_turn {top : OpenSequence} {parents : Stack} {kind : Passes}
    (behind : top.actions.length ≤ top.next) (same : top.passes = kind)
    (rest : Part.Leads p (.passes (Stack.path parents) top.actions kind) s r fun s =>
      Stack.Evaluated p parents s r) :
    Stack.Evaluated p (top :: parents) s r := by
  subst same
  exact (Part.leads_exhausted behind).mpr rest

/-- An action in front of the rest of its sequence. -/
theorem Part.leads_step (here : actions[next]? = some a)
    (running : s.control.isCancelled p.run = false)
    (first : Evaluates p (.action place next a) (s.reaching next) x s')
    (goesOn : x.next next = some n)
    (rest : Part.Leads p (.sequence place actions n) s' r after) :
    Part.Leads p (.sequence place actions next) s r after := by
  obtain ⟨y, s'', evaluated, leads⟩ := rest
  exact ⟨y, s'', .step here running first goesOn evaluated, leads⟩

theorem Part.leads_stepOver {e : Ending} (here : actions[next]? = some a)
    (running : s.control.isCancelled p.run = false)
    (first : Evaluates p (.action place next a) (s.reaching next) (.ends e) s')
    (same : r = (e, s')) : Part.Leads p (.sequence place actions next) s r after :=
  ⟨.ends e, s', .stepOver here running first, same⟩

/-- An action that was left in any way, in front of what the walk does then. -/
theorem Part.leads_leave {top : OpenSequence} {parents : Stack}
    (here : top.actions[top.next]? = some a) (running : s.control.isCancelled p.run = false)
    (first : Evaluates p (.action (Stack.path parents) top.next a) (s.reaching top.next) x s')
    (rest : (Progress.leave { top with next := top.next + 1 } parents x s').Evaluated p r) :
    Stack.Evaluated p (top :: parents) s r := by
  cases x with
  | done => exact Part.leads_step here running first rfl rest
  | jump target => exact Part.leads_step here running first rfl rest
  | ends e => exact Part.leads_stepOver here running first rest

/-- An action that opens a part is left as the part is left. -/
theorem Part.leads_inside {top : OpenSequence} {parents : Stack} {inner : Part}
    {t : RunState ω} (here : top.actions[top.next]? = some a)
    (running : s.control.isCancelled p.run = false)
    (first : ∀ x s', Evaluates p inner t x s' →
      Evaluates p (.action (Stack.path parents) top.next a) (s.reaching top.next) x s')
    (rest : Part.Leads p inner t r fun s =>
      Stack.Evaluated p ({ top with next := top.next + 1 } :: parents) s r) :
    Stack.Evaluated p (top :: parents) s r := by
  obtain ⟨x, s', evaluated, leads⟩ := rest
  cases x with
  | done => exact Part.leads_leave here running (first _ _ evaluated) leads
  | jump target => exact leads.elim
  | ends e => exact Part.leads_leave here running (first _ _ evaluated) leads

/-- No pass follows a sequence that is walked once. -/
theorem Part.leads_once (leads : Part.Leads p (.passes place body .once) s r after) : after s := by
  obtain ⟨x, s', evaluated, leads⟩ := leads
  cases evaluated with
  | once => exact leads
  | passesStopped repeats => exact absurd rfl repeats

end

/-- A pass in front of the passes that are still to be made. -/
theorem Part.leads_pass {place : List Nat} {body : List Action} {kind kind' : Passes}
    {s t : RunState ω} {r : Ending × RunState ω} {after : RunState ω → Prop}
    (pass : ∀ s' x s'', Evaluates p (.sequence place body 0) t .done s' →
      Evaluates p (.passes place body kind') s' x s'' → Evaluates p (.passes place body kind) s x s'')
    (broken : ∀ e s', Evaluates p (.sequence place body 0) t (.ends e) s' →
      Evaluates p (.passes place body kind) s (.ends e) s')
    (leads : Part.Leads p (.sequence place body 0) t r fun s =>
      Part.Leads p (.passes place body kind') s r after) :
    Part.Leads p (.passes place body kind) s r after := by
  obtain ⟨x, s', evaluated, leads⟩ := leads
  cases x with
  | done =>
    obtain ⟨y, s'', later, leads⟩ := leads
    exact ⟨y, s'', pass s' y s'' evaluated later, leads⟩
  | jump target => exact leads.elim
  | ends e => exact ⟨.ends e, s', broken e s' evaluated, leads⟩

/-- A step can be put in front of the evaluation of what it leaves. -/
theorem Moves.evaluated {top : OpenSequence} {parents : Stack} {s : RunState ω} {after : Progress ω}
    {r : Ending × RunState ω} (moves : Moves p top parents s after) (rest : after.Evaluated p r) :
    Stack.Evaluated p (top :: parents) s r := by
  have behind : Stack.path ({ top with next := top.next + 1 } :: parents) =
      Stack.path parents ++ [top.next] := Stack.path_behind rfl
  cases moves with
  | stoppedBetween exhausted repeats cancelled =>
    exact Part.leads_turn exhausted rfl ⟨_, _, .passesStopped repeats cancelled, rest⟩
  | once exhausted kind =>
    exact Part.leads_turn exhausted kind ⟨.done, s, .once, rest⟩
  | countedEnough exhausted running kind enough =>
    exact Part.leads_turn exhausted kind ⟨.done, s, .countedEnough running enough, rest⟩
  | countedPass exhausted running kind more =>
    exact Part.leads_turn exhausted kind (Part.leads_pass
      (fun _ _ _ => .countedPass running more) (fun _ _ => .countedOver running more) rest)
  | whileEnough exhausted running kind enough =>
    exact Part.leads_turn exhausted kind ⟨.done, s, .whileEnough running enough, rest⟩
  | whileAbandoned exhausted running kind more judged =>
    exact Part.leads_turn exhausted kind ⟨_, _, .whileAbandoned running more judged, rest⟩
  | whileFalse exhausted running kind more judged =>
    exact Part.leads_turn exhausted kind ⟨.done, _, .whileFalse running more judged, rest⟩
  | whilePass exhausted running kind more judged =>
    exact Part.leads_turn exhausted kind (Part.leads_pass
      (fun _ _ _ => .whilePass running more judged) (fun _ _ => .whileOver running more judged) rest)
  | stopped here cancelled => exact ⟨_, _, .stopped here cancelled, rest⟩
  | leaf here running leaf evaluated => exact Part.leads_leave here running evaluated rest
  | branchAbandoned here running judged =>
    exact Part.leads_leave (x := .ends .abandoned) here running (.branchAbandoned judged) rest
  | branchNone here running judged nothing =>
    exact Part.leads_leave (x := .done) here running (.branchNone judged nothing) rest
  | branchTooDeep here running judged taken deep =>
    exact Part.leads_stepOver here running (.branchTooDeep judged taken deep) rest
  | branch here running judged taken admits =>
    refine Part.leads_inside here running (fun _ _ => .branch judged taken admits) ?_
    rw [← behind]
    obtain ⟨x, s', evaluated, leads⟩ := rest
    exact ⟨x, s', evaluated, leads.mono fun _ => Part.leads_once⟩
  | whileTooDeep here running deep =>
    exact Part.leads_stepOver here running (.whileTooDeep deep) rest
  | whileLoop here running admits =>
    refine Part.leads_inside here running (fun _ _ => .whileLoop admits rfl) ?_
    rw [← behind]
    exact (Part.leads_exhausted (Nat.le_refl _)).mp rest
  | loopTooDeep here running deep =>
    exact Part.leads_stepOver here running (.loopTooDeep deep) rest
  | loop here running admits =>
    refine Part.leads_inside here running (fun _ _ => .loop admits) ?_
    rw [← behind]
    exact (Part.leads_exhausted (Nat.le_refl _)).mp rest

/-! ### Both ways -/

theorem RunSetup.evaluated_of_walk {fuel : Nat} {stack : Stack} {s : RunState ω}
    {r : Ending × RunState ω} (begun : Stack.Begun stack.tail)
    (walked : p.walk fuel stack s = some r) : Stack.Evaluated p stack s r := by
  induction fuel generalizing stack s with
  | zero => cases walked
  | succ fuel ih =>
    rw [walk] at walked
    cases stack with
    | nil =>
      rw [step] at walked
      exact (Option.some.inj walked).symm
    | cons top parents =>
      have moves : Moves p top parents s (p.step (top :: parents) s) := step_moves begun
      rcases next : p.step (top :: parents) s with ⟨rest, t⟩ | ⟨e, t⟩
      · rw [next] at walked moves
        exact moves.evaluated (ih (step_begun begun next) walked)
      · rw [next] at walked moves
        exact moves.evaluated (Option.some.inj walked).symm

/-- The walk of a list of actions ends in a way exactly if its evaluation does. -/
theorem RunSetup.ends_iff_evaluates {actions : List Action} {s s' : RunState ω} {e : Ending} :
    p.Ends [.once actions] s (e, s') ↔
      ∃ x, Evaluates p (.sequence [] actions 0) s x s' ∧ x.ending = e := by
  constructor
  · rintro ⟨fuel, walked⟩
    have begun : Stack.Begun [OpenSequence.once actions].tail :=
      fun q member => absurd member List.not_mem_nil
    obtain ⟨x, t, evaluated, leads⟩ := evaluated_of_walk begun walked
    cases x with
    | done =>
      obtain ⟨rfl, rfl⟩ := Prod.mk.inj (Part.leads_once leads)
      exact ⟨.done, evaluated, rfl⟩
    | jump target => exact leads.elim
    | ends e =>
      obtain ⟨rfl, rfl⟩ := Prod.mk.inj leads
      exact ⟨.ends e, evaluated, rfl⟩
  · rintro ⟨x, evaluated, rfl⟩
    refine evaluated.walked .once [] _ rfl (fun q member => absurd member List.not_mem_nil) ?_
    cases x with
    | done => exact fun n beyond => ends_once beyond ⟨1, rfl⟩
    | jump target => exact absurd rfl (evaluated.ne_jump rfl target)
    | ends e => rfl

/-- More steps than enough change nothing. -/
theorem RunSetup.walk_mono {fuel more : Nat} (enough : fuel ≤ more) {stack : Stack} {s : RunState ω}
    {r : Ending × RunState ω} (walked : p.walk fuel stack s = some r) :
    p.walk more stack s = some r := by
  induction fuel generalizing more stack s with
  | zero => cases walked
  | succ fuel ih =>
    obtain ⟨more, rfl⟩ : ∃ k, more = k + 1 := ⟨more - 1, by omega⟩
    rw [walk] at walked ⊢
    rcases step : p.step stack s with ⟨rest, t⟩ | ⟨e, t⟩
    · rw [step] at walked
      exact ih (by omega) walked
    · rw [step] at walked
      exact walked

theorem RunSetup.Ends.unique {stack : Stack} {s : RunState ω} {r r' : Ending × RunState ω}
    (ends : p.Ends stack s r) (ends' : p.Ends stack s r') : r = r' := by
  obtain ⟨fuel, walked⟩ := ends
  obtain ⟨fuel', walked'⟩ := ends'
  have longer := RunSetup.walk_mono (Nat.le_max_left fuel fuel') walked
  have longer' := RunSetup.walk_mono (Nat.le_max_right fuel fuel') walked'
  exact Option.some.inj (longer.symm.trans longer')

/-- The evaluation of a list of actions comes to one result. -/
theorem Evaluates.unique {actions : List Action} {s t t' : RunState ω} {x x' : Exit}
    (evaluated : Evaluates p (.sequence [] actions 0) s x t)
    (evaluated' : Evaluates p (.sequence [] actions 0) s x' t') : x.ending = x'.ending ∧ t = t' := by
  have ends := RunSetup.ends_iff_evaluates.mpr ⟨x, evaluated, rfl⟩
  have ends' := RunSetup.ends_iff_evaluates.mpr ⟨x', evaluated', rfl⟩
  exact Prod.mk.inj (ends.unique ends')

namespace Engine

/-- An engine runs a list of actions as the evaluation of their tree says. The run ends if the
evaluation comes to a result, with its events, its report, its world and its ending. -/
theorem execute_agrees_with_evaluation (e : Engine) (performer : Performer ω)
    (actions : List Action) (world : ω) (atPause : AtPause) (record : RunRecord ω) :
    (∃ fuel, e.execute performer actions world atPause fuel = .ran record) ↔
      ∃ run control x s, e.control.accept = some (run, control) ∧
        Evaluates (e.setup performer actions run atPause) (.sequence [] actions 0)
          (opening actions world control) x s ∧
        record = e.close (x.ending, s) := by
  simp only [ran_iff]
  constructor
  · rintro ⟨fuel, run, control, ⟨ending, s⟩, accepted, walked, rfl⟩
    obtain ⟨x, evaluated, rfl⟩ := RunSetup.ends_iff_evaluates.mp ⟨fuel, walked⟩
    exact ⟨run, control, x, s, accepted, evaluated, rfl⟩
  · rintro ⟨run, control, x, s, accepted, evaluated, rfl⟩
    obtain ⟨fuel, walked⟩ := RunSetup.ends_iff_evaluates.mpr ⟨x, evaluated, rfl⟩
    exact ⟨fuel, run, control, (x.ending, s), accepted, walked, rfl⟩

end Engine

end Screenplay
