import Screenplay.Proofs.Calls
import Screenplay.Proofs.Nesting
import Screenplay.Scenario.Validate

/-!
What the check of a scenario promises its runs. Whatever sequence is open in a run was accepted at
the depth at which it lies (`Stack.Descends.accepted`), so a run never gets too deep
(`Scenario.validate_bounds_depth`).
-/
namespace Screenplay

variable {ω : Type}

/-! ### What is accepted -/

theorem located_ok {α : Type} {l : Location} {r : Except Invalid α} {a : α} :
    located l r = .ok a ↔ r = .ok a := by
  cases r <;> simp [located]

/-- Two checks in a row accept what both accept. -/
theorem checks_ok {first later : Except Invalid Unit} :
    (do first; later) = .ok () ↔ first = .ok () ∧ later = .ok () := by
  cases first with
  | ok => exact ⟨fun accepted => ⟨rfl, accepted⟩, fun both => both.2⟩
  | error e => exact ⟨fun accepted => (by cases accepted), fun both => (by cases both.1)⟩

namespace Scenario

variable {sc : Scenario} {depth : Nat}

theorem checkDepth_ok : sc.checkDepth depth = .ok () ↔ depth < sc.options.maxDepth.toNat := by
  rw [checkDepth]
  split
  next deep => simp [deep]
  next high => simp [Nat.lt_of_not_le high]

theorem checkCondition?_ok {l : Location} {condition : Option Condition} :
    sc.checkCondition? l condition = .ok () ↔ ∀ c, condition = some c → sc.checkCondition c = .ok () := by
  cases condition with
  | none => simp [checkCondition?]
  | some c => simp [checkCondition?, located_ok]

/-- A list of actions is accepted if each of them is. -/
theorem checkActions_ok {place : Nat → Location} {index : Nat} {actions : List Action} :
    sc.checkActions depth place index actions = .ok () ↔
      ∀ a ∈ actions, sc.checkAction depth a = .ok () := by
  induction actions generalizing index with
  | nil => simp [checkActions]
  | cons a rest ih => rw [checkActions, checks_ok, located_ok, ih, List.forall_mem_cons]

/-- The sequence is accepted with all that it owns when it lies at this depth, the outermost one at
depth 1. -/
structure Accepts (sc : Scenario) (depth : Nat) (q : OpenSequence) : Prop where
  actions : ∀ a ∈ q.actions, sc.checkAction depth a = .ok ()
  condition : ∀ c most made, q.passes = .whileHolds (some c) most made → sc.checkCondition c = .ok ()
  depth : depth ≤ sc.options.maxDepth.toNat

/-- What an accepted action opens is accepted one level deeper. -/
theorem accepts_of_opens {a : Action} {q : OpenSequence} (accepted : sc.checkAction depth a = .ok ())
    (opens : a.Opens q) : sc.Accepts (depth + 1) q := by
  cases opens with
  | thenActions =>
    simp only [checkAction, checks_ok, checkDepth_ok, checkActions_ok] at accepted
    obtain ⟨_, high, inner, _⟩ := accepted
    exact ⟨inner, by simp, high⟩
  | elseActions =>
    simp only [checkAction, checkElse, checks_ok, checkDepth_ok, checkActions_ok] at accepted
    obtain ⟨_, high, _, _, inner⟩ := accepted
    exact ⟨inner, by simp, high⟩
  | whileBody =>
    simp only [checkAction, checks_ok, checkCondition?_ok] at accepted
    obtain ⟨condition, accepted⟩ := accepted
    split at accepted
    next none => cases accepted
    next =>
      simp only [checks_ok, checkDepth_ok, checkActions_ok] at accepted
      obtain ⟨high, inner⟩ := accepted
      refine ⟨inner, ?_, high⟩
      rintro c most made kind
      cases kind
      exact condition c rfl
  | loopBody =>
    simp only [checkAction, checks_ok, checkDepth_ok, checkActions_ok] at accepted
    obtain ⟨high, inner⟩ := accepted
    exact ⟨inner, by simp, high⟩

/-- A condition that decides on a branch is accepted. -/
theorem accepts_branch {c : Condition} {thenActions : List Action} {elseActions : Option (List Action)}
    (accepted : sc.checkAction depth (.branch (some c) thenActions elseActions) = .ok ()) :
    sc.checkCondition c = .ok () := by
  simp only [checkAction, checks_ok, checkCondition?_ok] at accepted
  exact accepted.1 c rfl

/-- Only an action that is accepted below the greatest depth opens anything. -/
theorem depth_of_control {a : Action} (accepted : sc.checkAction depth a = .ok ())
    (control : a.isControl = true) : depth < sc.options.maxDepth.toNat := by
  obtain ⟨q, opens⟩ : ∃ q, a.Opens q := by
    cases a with
    | branch condition thenActions elseActions => exact ⟨⟨thenActions, 0, .once⟩, .thenActions⟩
    | repeatWhile condition body maxIterations =>
      exact ⟨⟨body, 0, .whileHolds condition 0 0⟩, .whileBody⟩
    | loop count body => exact ⟨⟨body, 0, .counted count.toNat 0⟩, .loopBody⟩
    | skip | fail | test | task => cases control
  exact (accepts_of_opens accepted opens).depth

/-- The actions of an accepted scenario are accepted as the outermost sequence. -/
theorem accepts_actions (valid : sc.validate = .ok ()) (next : Nat) :
    sc.Accepts 1 ⟨sc.actions, next, .once⟩ := by
  rw [validate] at valid
  split at valid
  next => cases valid
  next some =>
    refine ⟨checkActions_ok.mp valid, by simp, ?_⟩
    have positive : sc.options.maxDepth.toNat ≠ 0 := fun none => some (UInt64.toNat_inj.mp none)
    exact Nat.pos_of_ne_zero positive

end Scenario

/-- Every open sequence was accepted at the depth at which it lies. -/
theorem Stack.Descends.accepted {sc : Scenario} {stack : Stack} (valid : sc.validate = .ok ())
    (descends : Stack.Descends sc.actions stack) :
    ∀ q rest, stack = q :: rest → sc.Accepts stack.length q := by
  induction descends with
  | nothing => rintro q rest ⟨⟩
  | top =>
    rintro q rest ⟨⟩
    exact Scenario.accepts_actions valid _
  | @inner q owner below index a _ behind here opens ih =>
    rintro q' rest' ⟨⟩
    exact Scenario.accepts_of_opens ((ih owner below rfl).actions a (List.mem_of_getElem? here)) opens

/-! ### Depth -/

theorem Stack.Descends.not_tooDeep {p : RunSetup ω} {sc : Scenario} {top : OpenSequence}
    {parents : Stack} {s : RunState ω} {maxDepth : UInt64} (valid : sc.validate = .ok ())
    (same : p.options.maxDepth = sc.options.maxDepth)
    (descends : Stack.Descends sc.actions (top :: parents)) :
    ¬ Breaks p top parents s (.tooDeep maxDepth) := by
  intro breaks
  cases breaks with
  | tooDeep here control deep =>
    have accepts := descends.accepted valid top parents rfl
    have high := Scenario.depth_of_control (accepts.actions _ (List.mem_of_getElem? here)) control
    rw [same] at deep
    rw [List.length_cons] at high
    omega

/-- A run of an accepted scenario never gets too deep. -/
theorem RunSetup.keeps_admitted {p : RunSetup ω} {sc : Scenario} (valid : sc.validate = .ok ())
    (same : p.options.maxDepth = sc.options.maxDepth) :
    p.Keeps (fun stack _ => Stack.Descends sc.actions stack) fun ending _ =>
      ∀ maxDepth, ending ≠ .fault (.tooDeep maxDepth) where
  step := by
    intro top parents s after descends moves
    have next := (p.keeps_descends sc.actions).step top parents s after descends moves
    rcases after with ⟨rest, t⟩ | ⟨ending, t⟩
    · exact next
    rintro maxDepth rfl
    cases moves.concludes with
    | broken breaks => exact descends.not_tooDeep valid same breaks
  finish := by
    intro s descends maxDepth ends
    cases ends

/-- No run of an accepted scenario breaks off because it gets too deep, and it never has more
sequences open at once than the options of the scenario allow. -/
theorem Scenario.validate_bounds_depth {sc : Scenario} {e : Engine} {stopOnFailure : Bool}
    (valid : sc.validate = .ok ()) (options : e.options = { sc.options with stopOnFailure })
    (performer : Performer ω) (world : ω) (atPause : AtPause) :
    (∀ fuel record maxDepth report,
      e.execute performer sc.actions world atPause fuel = .ran record →
        record.result ≠ some (.fault (.tooDeep maxDepth) report)) ∧
    ∀ run control stack s, e.control.accept = some (run, control) →
      (e.setup performer sc.actions run atPause).Reaches [.once sc.actions]
        (Engine.opening sc.actions world control) stack s →
      stack.length ≤ sc.options.maxDepth.toNat := by
  have begun := Stack.begun_once sc.actions
  have maxDepth : e.options.maxDepth = sc.options.maxDepth := by rw [options]
  constructor
  · intro fuel record depth report ran result
    obtain ⟨run, control, ⟨ending, s⟩, _, walked, rfl⟩ := Engine.ran_iff.mp ran
    have high := (RunSetup.keeps_admitted valid maxDepth).walked walked begun .top
    cases ending with
    | fault f =>
      cases result
      exact high depth rfl
    | finished | stopped | terminated | abandoned => cases result
  · intro run control stack s _ reached
    have descends := (RunSetup.keeps_descends _ sc.actions).reached reached begun .top
    cases stack with
    | nil => exact Nat.zero_le _
    | cons top parents => exact (descends.accepted valid top parents rfl).depth

/-- A scenario that nests as deep as its options allow. -/
def Scenario.deep : Scenario where
  actions := [.loop 2 [.branch (some ⟨.system .cursorX, none, none⟩) [] (some [.test none])]]
  options := { maxDepth := 3 }

/-- The greatest depth is reached. -/
theorem Scenario.validate_bounds_depth_deep :
    ∃ stack s, (Engine.setup { options := Scenario.deep.options }
        { perform := fun _ world => ⟨.ok .ok, world, []⟩, judge := fun _ world => ⟨false, world, []⟩ }
        Scenario.deep.actions 0 .goOn).Reaches [.once Scenario.deep.actions]
        (Engine.opening Scenario.deep.actions () { active := some 0, accepted := 1 }) stack s ∧
      stack.length = 3 ∧ stack.length ≤ Scenario.deep.options.maxDepth.toNat := by
  obtain ⟨stack, s, reached, length⟩ : ∃ stack s, (Engine.setup { options := Scenario.deep.options }
        { perform := fun _ world => ⟨.ok .ok, world, []⟩, judge := fun _ world => ⟨false, world, []⟩ }
        Scenario.deep.actions 0 .goOn).Reaches [.once Scenario.deep.actions]
        (Engine.opening Scenario.deep.actions () { active := some 0, accepted := 1 }) stack s ∧
      stack.length = 3 := ⟨_, _, .step rfl (.step rfl (.step rfl .here)), rfl⟩
  have valid : Scenario.deep.validate = .ok () := rfl
  have options : ({ options := Scenario.deep.options } : Engine).options =
      { Scenario.deep.options with stopOnFailure := false } := rfl
  have bound := (validate_bounds_depth valid options _ () .goOn).2 0 _ stack s rfl reached
  exact ⟨stack, s, reached, length, bound⟩

end Screenplay
