import Screenplay.Proofs.Accepting

/-!
What is wrong with a scenario. Each action, however deep, is asked for something by itself
(`Scenario.Admits`). A scenario whose actions all do what they are asked for is accepted. Any other is
rejected for the first action that does not, in the order in which an action comes before what is
inside it and all of that before the next action, and the report leads to it (`Scenario.validate_iff`).
-/
namespace Screenplay

/-! ### Places in a tree of actions -/

/-- The sequences inside an action, in order. -/
def Action.branches : Action → List (Branch × List Action)
  | .branch _ thenActions elseActions =>
    (.thenActions, thenActions) :: elseActions.toList.map fun actions => (.elseActions, actions)
  | .repeatWhile _ actions _ | .loop _ actions => [(.actions, actions)]
  | .skip _ | .fail _ | .test _ | .task _ => []

/-- The condition of a control action. -/
def Action.condition : Action → Option Condition
  | .branch condition _ _ | .repeatWhile condition _ _ => condition
  | .loop .. | .skip _ | .fail _ | .test _ | .task _ => none

/-- The step from an action to its condition. -/
def Action.conditionStep : Action → Location
  | .repeatWhile .. => .loopCondition
  | _ => .branchCondition

/-- The path leads from the first action to the second one inside it; no step leads to itself. -/
inductive Action.Contains : Action → List Location → Action → Prop where
  | itself {a} : Contains a [] a
  | inside {a branch actions index b path c} (owns : (branch, actions) ∈ a.branches)
    (here : actions[index]? = some b) (further : Contains b path c) :
    Contains a (.nested branch index :: path) c

/-- The path leads into a sequence, at its first step to the action at that place. -/
inductive Action.Listed (place : Nat → Location) (actions : List Action) :
    List Location → Action → Prop where
  | intro {index a path b} (here : actions[index]? = some a) (contains : a.Contains path b) :
    Listed place actions (place index :: path) b

/-- The path leads from the scenario to an action. Its length is the depth of the action. -/
def Scenario.Node (s : Scenario) : List Location → Action → Prop := Action.Listed .action s.actions

/-- The order of two places of one sequence, or of the two sequences of an `if`. -/
inductive Location.Before : Location → Location → Prop where
  | action {i j} (less : i < j) : Before (.action i) (.action j)
  | nested {branch i j} (less : i < j) : Before (.nested branch i) (.nested branch j)
  | branches {i j} : Before (.nested .thenActions i) (.nested .elseActions j)

/-- An action comes before what is inside it, and all of that before what follows the action. -/
def Earlier : List Location → List Location → Prop := List.Lex Location.Before

/-! ### What an action is asked for -/

/-- The template is one of the scenario, and a threshold that is given is a score. -/
structure Scenario.AdmitsImage (s : Scenario) (check : ImageCheck) : Prop where
  template : ∃ file, (check.template, file) ∈ s.templates
  threshold : ∀ t, check.threshold = some t → 0.0 ≤ t ∧ t ≤ 1.0

/-- An image is one that may be looked for; any other measurement has a value for its operator. -/
structure Scenario.AdmitsCondition (s : Scenario) (c : Condition) : Prop where
  image : ∀ check, c.measure = .image check → s.AdmitsImage check
  value : (∀ check, c.measure ≠ .image check) → c.operator.isSome = true → c.value.isSome = true

/-- What an action at a depth is asked for, apart from what is inside it. -/
structure Scenario.Admits (s : Scenario) (depth : Nat) (a : Action) : Prop where
  condition : ∀ c, a.condition = some c → s.AdmitsCondition c
  iterations : ∀ condition actions, a ≠ .repeatWhile condition actions (some 0)
  depth : a.isControl = true → depth < s.options.maxDepth.toNat
  image : ∀ check, a = .task (.imageMatch check) → s.AdmitsImage check

/-- What is wrong with a look for an image: the template first, then the threshold. -/
inductive Scenario.ImageFlaw (s : Scenario) (check : ImageCheck) : Problem → Prop where
  | unknown (unknown : ∀ file, (check.template, file) ∉ s.templates) :
    ImageFlaw s check (.unknownTemplate check.template)
  | threshold {file t e} (known : (check.template, file) ∈ s.templates)
    (given : check.threshold = some t) (outside : checkThreshold t = .error e) :
    ImageFlaw s check (.threshold check.template e)

/-- What is wrong with a condition. -/
inductive Scenario.ConditionFlaw (s : Scenario) (c : Condition) : Problem → Prop where
  | image {check problem} (looks : c.measure = .image check) (flaw : s.ImageFlaw check problem) :
    ConditionFlaw s c problem
  | value (measures : ∀ check, c.measure ≠ .image check) (compares : c.operator.isSome = true)
    (missing : c.value = none) : ConditionFlaw s c .nothingToCompare

/-- What is wrong first with an action at a depth, apart from what is inside it, and the steps from the
action to that: its condition, then its iterations, then its depth. -/
inductive Scenario.Flaw (s : Scenario) (depth : Nat) : Action → List Location → Problem → Prop where
  | condition {a c problem} (decides : a.condition = some c) (flaw : s.ConditionFlaw c problem) :
    Flaw s depth a [a.conditionStep] problem
  | iterations {condition actions} (sound : ∀ c, condition = some c → s.AdmitsCondition c) :
    Flaw s depth (.repeatWhile condition actions (some 0)) [] .noIterations
  | depth {a} (control : a.isControl = true)
    (sound : ∀ c, a.condition = some c → s.AdmitsCondition c)
    (iterates : ∀ condition actions, a ≠ .repeatWhile condition actions (some 0))
    (deep : s.options.maxDepth.toNat ≤ depth) : Flaw s depth a [] (.tooDeep s.options.maxDepth)
  | image {check problem} (flaw : s.ImageFlaw check problem) :
    Flaw s depth (.task (.imageMatch check)) [] problem

/-- The report names what is wrong first with one of the nodes and leads to it, and all earlier nodes
do what they are asked for. A node lies as deep as its path is long, below `base` open sequences. -/
inductive Scenario.FirstFlaw (s : Scenario) (base : Nat) (nodes : List Location → Action → Prop) :
    Invalid → Prop where
  | intro {path a rest problem} (node : nodes path a)
    (flaw : s.Flaw (path.length + base) a rest problem)
    (earliest : ∀ path' a', nodes path' a' → Earlier path' path → s.Admits (path'.length + base) a') :
    FirstFlaw s base nodes ⟨path ++ rest, problem⟩

/-! ### What is wrong is not admitted -/

theorem checkThreshold_ok {t : Float} : checkThreshold t = .ok () ↔ 0.0 ≤ t ∧ t ≤ 1.0 := by
  unfold checkThreshold
  by_cases low : 0.0 ≤ t <;> by_cases high : t ≤ 1.0 <;> simp [low, high]

namespace Scenario

variable {s : Scenario} {depth : Nat} {check : ImageCheck} {c : Condition} {problem : Problem}

theorem ImageFlaw.not_admits (flaw : s.ImageFlaw check problem) : ¬ s.AdmitsImage check := by
  intro admits
  cases flaw with
  | unknown unknown =>
    obtain ⟨file, known⟩ := admits.template
    exact unknown file known
  | threshold known given outside =>
    have inside := checkThreshold_ok.mpr (admits.threshold _ given)
    rw [outside] at inside
    cases inside

theorem ConditionFlaw.not_admits (flaw : s.ConditionFlaw c problem) : ¬ s.AdmitsCondition c := by
  intro admits
  cases flaw with
  | image looks flaw => exact flaw.not_admits (admits.image _ looks)
  | value measures compares missing =>
    have given := admits.value measures compares
    rw [missing] at given
    cases given

theorem Flaw.not_admits {a : Action} {rest : List Location} (flaw : s.Flaw depth a rest problem) :
    ¬ s.Admits depth a := by
  intro admits
  cases flaw with
  | condition decides flaw => exact flaw.not_admits (admits.condition _ decides)
  | iterations => exact admits.iterations _ _ rfl
  | depth control _ _ deep => exact Nat.not_lt_of_le deep (admits.depth control)
  | image flaw => exact flaw.not_admits (admits.image _ rfl)

end Scenario

/-! ### What a check says -/

theorem then_accepts (first : Except Invalid Unit) : (do first; Except.ok ()) = first := by
  cases first <;> rfl

/-- A check accepts if all is as it should be, and says what is not. -/
def Reports (accepted : Prop) (rejected : Invalid → Prop) : Except Invalid Unit → Prop
  | .ok () => accepted
  | .error e => rejected e

namespace Reports

variable {A B : Prop} {E F : Invalid → Prop} {x y : Except Invalid Unit}

theorem mono (report : Reports A E x) (accepted : A → B) (rejected : ∀ e, E e → F e) :
    Reports B F x := by
  cases x with
  | ok => exact accepted report
  | error e => exact rejected e report

/-- A second check counts only if the first one accepts. -/
theorem andThen (first : Reports A E x) (later : A → Reports B F y) :
    Reports (A ∧ B) (fun e => E e ∨ A ∧ F e) (do x; y) := by
  cases x with
  | ok => exact (later first).mono (fun second => ⟨first, second⟩) fun e flaw => .inr ⟨first, flaw⟩
  | error e => exact .inl first

theorem ok_iff (report : Reports A E x) (apart : ∀ e, E e → ¬ A) : x = .ok () ↔ A := by
  cases x with
  | ok => exact ⟨fun _ => report, fun _ => rfl⟩
  | error e =>
    constructor
    · intro wrong
      cases wrong
    · intro accepted
      exact absurd accepted (apart e report)

end Reports

namespace Scenario

variable {s : Scenario} {depth : Nat}

theorem lookup_known {templates : List (String × TemplateFile)} {name : String} :
    (templates.lookup name).isSome = true ↔ ∃ file, (name, file) ∈ templates := by
  rw [Option.isSome_iff_exists]
  constructor
  · rintro ⟨file, found⟩
    obtain ⟨before, after, split, _⟩ := List.lookup_eq_some_iff.mp found
    exact ⟨file, by simp [split]⟩
  · rintro ⟨file, member⟩
    rcases found : templates.lookup name with _ | first
    · have other := List.lookup_eq_none_iff.mp found _ member
      simp at other
    · exact ⟨first, rfl⟩

theorem checkImage_reports (s : Scenario) (check : ImageCheck) :
    Reports (s.AdmitsImage check) (fun e => e.path = [] ∧ s.ImageFlaw check e.problem)
      (s.checkImage check) := by
  unfold checkImage
  split
  next unknown =>
    refine ⟨rfl, .unknown fun file member => ?_⟩
    have known := lookup_known.mpr ⟨file, member⟩
    rw [← Option.not_isNone, unknown] at known
    cases known
  next known =>
    rw [Bool.not_eq_true, Option.isNone_eq_false_iff] at known
    obtain ⟨file, member⟩ := lookup_known.mp known
    rcases given : check.threshold with _ | t
    · have default : checkThreshold 0.95 = .ok () :=
        checkThreshold_ok.mpr ⟨by decide +kernel, by decide +kernel⟩
      simp only [Option.getD_none, default]
      refine ⟨⟨file, member⟩, fun t some => ?_⟩
      rw [given] at some
      cases some
    · simp only [Option.getD_some]
      rcases checked : checkThreshold t with e | ⟨⟩
      · exact ⟨rfl, .threshold member given checked⟩
      · refine ⟨⟨file, member⟩, fun t' same => ?_⟩
        rw [given] at same
        cases same
        exact checkThreshold_ok.mp checked

theorem checkCondition_reports (s : Scenario) (c : Condition) :
    Reports (s.AdmitsCondition c) (fun e => e.path = [] ∧ s.ConditionFlaw c e.problem)
      (s.checkCondition c) := by
  unfold checkCondition
  rcases measures : c.measure with check | sound | system
  · refine (checkImage_reports s check).mono (fun admits => ⟨?_, ?_⟩) fun e flaw =>
      ⟨flaw.1, .image measures flaw.2⟩
    · intro check' same
      rw [measures] at same
      cases same
      exact admits
    · intro other
      exact absurd measures (other check)
  all_goals
    have other : ∀ check, c.measure ≠ .image check := by simp [measures]
    dsimp only
    split
    next missing => exact ⟨rfl, .value other missing.1 (Option.isNone_iff_eq_none.mp missing.2)⟩
    next given =>
      refine ⟨fun check looks => absurd looks (other check), fun _ compares => ?_⟩
      simpa [compares, Option.isSome_iff_ne_none] using given

theorem checkCondition?_reports (s : Scenario) (l : Location) (condition : Option Condition) :
    Reports (∀ c, condition = some c → s.AdmitsCondition c)
      (fun e => ∃ c, condition = some c ∧ e.path = [l] ∧ s.ConditionFlaw c e.problem)
      (s.checkCondition? l condition) := by
  cases condition with
  | none =>
    intro c none
    cases none
  | some c =>
    have report := checkCondition_reports s c
    simp only [checkCondition?]
    rcases checked : s.checkCondition c with ⟨path, problem⟩ | ⟨⟩
    · rw [checked] at report
      obtain ⟨here, flaw⟩ := report
      exact ⟨c, rfl, congrArg (l :: ·) here, flaw⟩
    · rw [checked] at report
      intro c' same
      cases same
      exact report

theorem checkDepth_reports (s : Scenario) (depth : Nat) :
    Reports (depth < s.options.maxDepth.toNat)
      (fun e => e = .here (.tooDeep s.options.maxDepth) ∧ s.options.maxDepth.toNat ≤ depth)
      (s.checkDepth depth) := by
  unfold checkDepth
  split
  next deep => exact ⟨rfl, deep⟩
  next high => exact Nat.lt_of_not_le high

/-- A bound of iterations is at least 1. -/
def checkIterations (maxIterations : Option UInt32) : Except Invalid Unit :=
  if maxIterations = some 0 then .error (.here .noIterations) else .ok ()

theorem checkIterations_reports (maxIterations : Option UInt32) :
    Reports (maxIterations ≠ some 0) (fun e => e = .here .noIterations ∧ maxIterations = some 0)
      (checkIterations maxIterations) := by
  unfold checkIterations
  split
  next none => exact ⟨rfl, none⟩
  next some => exact some

/-- Checks an action apart from what is inside it. -/
def checkItself (s : Scenario) (depth : Nat) : Action → Except Invalid Unit
  | .branch condition _ _ => do
    s.checkCondition? .branchCondition condition
    s.checkDepth depth
  | .repeatWhile condition _ maxIterations => do
    s.checkCondition? .loopCondition condition
    checkIterations maxIterations
    s.checkDepth depth
  | .loop _ _ => s.checkDepth depth
  | .task (.imageMatch check) => s.checkImage check
  | .skip _ | .fail _ | .test _ | .task _ => .ok ()

/-- Checks sequences in order. -/
def checkBranches (s : Scenario) (depth : Nat) : List (Branch × List Action) → Except Invalid Unit
  | [] => .ok ()
  | (branch, actions) :: rest => do
    s.checkActions (depth + 1) (.nested branch) 0 actions
    s.checkBranches depth rest

/-- An action is checked by itself and then what is inside it. -/
theorem checkAction_eq (s : Scenario) (depth : Nat) (a : Action) :
    s.checkAction depth a = (do s.checkItself depth a; s.checkBranches depth a.branches) := by
  cases a with
  | branch condition thenActions elseActions =>
    simp only [checkAction, checkItself, checkBranches, Action.branches]
    rcases s.checkCondition? .branchCondition condition with e | ⟨⟩
    · rfl
    rcases deep : s.checkDepth depth with e | ⟨⟩
    · rfl
    cases elseActions with
    | none => rfl
    | some actions =>
      have whole := then_accepts (s.checkActions (depth + 1) (.nested .elseActions) 0 actions)
      simp only [checkElse, deep, checkBranches, Option.toList_some, List.map_cons, List.map_nil,
        whole]
      rfl
  | repeatWhile condition actions maxIterations =>
    simp only [checkAction, checkItself, checkBranches, Action.branches, then_accepts]
    rcases s.checkCondition? .loopCondition condition with e | ⟨⟩
    · rfl
    unfold checkIterations
    split <;> rfl
  | loop count actions =>
    simp only [checkAction, checkItself, checkBranches, Action.branches, then_accepts]
  | skip | fail | test => rfl
  | task t =>
    cases t with
    | imageMatch check => exact (then_accepts _).symm
    | _ => rfl

/-- An action that is run itself is asked for nothing unless it looks for an image. -/
theorem admits_leaf {a : Action} (leaf : a.isControl = false)
    (image : ∀ check, a = .task (.imageMatch check) → s.AdmitsImage check) : s.Admits depth a where
  condition := by
    intro c decides
    cases a with
    | branch | repeatWhile | loop => cases leaf
    | skip | fail | test | task => cases decides
  iterations := by
    rintro condition actions rfl
    cases leaf
  depth control := by
    rw [leaf] at control
    cases control
  image := image

theorem checkItself_reports (s : Scenario) (depth : Nat) (a : Action) :
    Reports (s.Admits depth a) (fun e => s.Flaw depth a e.path e.problem) (s.checkItself depth a) := by
  cases a with
  | branch condition thenActions elseActions =>
    have report := (checkCondition?_reports s .branchCondition condition).andThen fun _ =>
      checkDepth_reports s depth
    refine report.mono ?_ ?_
    · rintro ⟨sound, low⟩
      exact ⟨sound, by simp, fun _ => low, by simp⟩
    · rintro ⟨path, problem⟩ (⟨c, decides, rfl, flaw⟩ | ⟨sound, same, deep⟩)
      · exact .condition decides flaw
      · cases same
        exact .depth rfl sound (by simp) deep
  | repeatWhile condition actions maxIterations =>
    have report := (checkCondition?_reports s .loopCondition condition).andThen fun _ =>
      (checkIterations_reports maxIterations).andThen fun _ => checkDepth_reports s depth
    refine report.mono ?_ ?_
    · rintro ⟨sound, some, low⟩
      exact ⟨sound, by simp [some], fun _ => low, by simp⟩
    · rintro ⟨path, problem⟩ (⟨c, decides, rfl, flaw⟩ | ⟨sound, ⟨same, rfl⟩ | ⟨some, same, deep⟩⟩)
      · exact .condition decides flaw
      · cases same
        exact .iterations sound
      · cases same
        exact .depth rfl sound (by simp [some]) deep
  | loop count actions =>
    refine (checkDepth_reports s depth).mono ?_ ?_
    · intro low
      exact ⟨by simp [Action.condition], by simp, fun _ => low, by simp⟩
    · rintro e ⟨rfl, deep⟩
      exact .depth rfl (by simp [Action.condition]) (by simp) deep
  | skip | fail | test => exact admits_leaf rfl (by simp)
  | task t =>
    cases t with
    | imageMatch check =>
      refine (checkImage_reports s check).mono ?_ ?_
      · intro admits
        refine admits_leaf rfl fun check' same => ?_
        cases same
        exact admits
      · rintro ⟨path, problem⟩ ⟨rfl, flaw⟩
        exact .image flaw
    | _ => exact admits_leaf rfl (by simp)

end Scenario

/-! ### From an action to the whole tree -/

theorem Location.not_before_self (l : Location) : ¬ l.Before l := by
  intro before
  cases before with
  | action less | nested less => exact Nat.lt_irrefl _ less

theorem not_earlier_nil (path : List Location) : ¬ Earlier path [] := by
  intro earlier
  cases earlier

theorem earlier_of_cons {l : Location} {path path' : List Location}
    (earlier : Earlier (l :: path') (l :: path)) : Earlier path' path := by
  cases earlier with
  | rel before => exact absurd before l.not_before_self
  | cons further => exact further

/-- The places of a sequence in order. -/
def Ordered (place : Nat → Location) : Prop :=
  ∀ i j, i < j → place i ≠ place j ∧ ¬ (place j).Before (place i)

theorem ordered_action : Ordered .action := by
  intro i j less
  refine ⟨by simp; omega, ?_⟩
  intro before
  cases before with
  | action less' => omega

theorem ordered_nested (branch : Branch) : Ordered (.nested branch) := by
  intro i j less
  refine ⟨by simp; omega, ?_⟩
  intro before
  cases before with
  | nested less' => omega

theorem not_earlier_of_apart {l l' : Location} {path path' : List Location} (other : l ≠ l')
    (behind : ¬ l'.Before l) : ¬ Earlier (l' :: path') (l :: path) := by
  intro earlier
  cases earlier with
  | rel before => exact behind before
  | cons further => exact other rfl

theorem Action.contains_iff {a b : Action} {path : List Location} :
    a.Contains path b ↔
      (path = [] ∧ b = a) ∨ ∃ q ∈ a.branches, Listed (.nested q.1) q.2 path b := by
  constructor
  · intro contains
    cases contains with
    | itself => exact .inl ⟨rfl, rfl⟩
    | inside owns here further => exact .inr ⟨_, owns, .intro here further⟩
  · rintro (⟨rfl, rfl⟩ | ⟨q, owns, ⟨here, further⟩⟩)
    · exact .itself
    · exact .inside owns here further

theorem Action.listed_cons {place : Nat → Location} {a b : Action} {rest : List Action}
    {path : List Location} : Listed place (a :: rest) path b ↔
      (∃ path', path = place 0 :: path' ∧ a.Contains path' b) ∨
        Listed (fun i => place (i + 1)) rest path b := by
  constructor
  · rintro (@⟨i, a', path', _, here, contains⟩)
    cases i with
    | zero =>
      cases here
      exact .inl ⟨path', rfl, contains⟩
    | succ i => exact .inr (@Listed.intro (fun i => place (i + 1)) rest i a' path' b here contains)
  · rintro (⟨path', rfl, contains⟩ | (@⟨i, a', path', _, here, contains⟩))
    · exact .intro rfl contains
    · exact @Listed.intro place (a :: rest) (i + 1) a' path' b here contains

theorem Action.branches_inOrder (a : Action) :
    a.branches.Pairwise fun q q' => q.1 = .thenActions ∧ q'.1 = .elseActions := by
  cases a with
  | branch condition thenActions elseActions => cases elseActions <;> simp [branches]
  | repeatWhile | loop => simp [branches]
  | skip | fail | test | task => exact .nil

theorem Action.sizeOf_lt {a b : Action} {q : Branch × List Action} (owns : q ∈ a.branches)
    (member : b ∈ q.2) : sizeOf b < sizeOf a := by
  have inner := List.sizeOf_lt_of_mem member
  cases a with
  | branch condition thenActions elseActions =>
    cases elseActions with
    | none =>
      simp only [branches, Option.toList_none, List.map_nil, List.mem_singleton] at owns
      subst owns
      simp at inner ⊢
      omega
    | some actions =>
      simp only [branches, Option.toList_some, List.map_cons, List.map_nil, List.mem_cons,
        List.not_mem_nil, or_false] at owns
      rcases owns with rfl | rfl
      · simp at inner ⊢
        omega
      · simp at inner ⊢
        omega
  | repeatWhile | loop =>
    simp only [branches, List.mem_singleton] at owns
    subst owns
    simp at inner ⊢
    omega
  | skip | fail | test | task => cases owns

/-- What holds of an action because it holds of those inside it holds of all actions. -/
theorem Action.inside_induction {P : Action → Prop}
    (step : ∀ a : Action, (∀ q ∈ a.branches, ∀ b ∈ q.2, P b) → P a) (a : Action) : P a :=
  step a fun _ owns b member =>
    have _smaller := sizeOf_lt owns member
    inside_induction step b
termination_by sizeOf a

namespace Scenario

/-- A check of some nodes accepts if all of them do what they are asked for, and names the first one
that does not. -/
def Judges (s : Scenario) (base : Nat) (nodes : List Location → Action → Prop) :
    Except Invalid Unit → Prop :=
  Reports (∀ path a, nodes path a → s.Admits (path.length + base) a) (s.FirstFlaw base nodes)

namespace Judges

variable {s : Scenario} {base : Nat} {nodes nodes' : List Location → Action → Prop}
  {x y : Except Invalid Unit}

theorem congr (judges : s.Judges base nodes x) (same : ∀ path a, nodes path a ↔ nodes' path a) :
    s.Judges base nodes' x := by
  have equal : nodes = nodes' := by
    funext path a
    exact propext (same path a)
  exact equal ▸ judges

theorem nothing (none : ∀ path a, ¬ nodes path a) : s.Judges base nodes (.ok ()) :=
  fun path a node => absurd node (none path a)

/-- Of two groups of nodes the one that comes first is checked first. -/
theorem andThen (first : s.Judges base nodes x) (later : s.Judges base nodes' y)
    (ordered : ∀ path a path' a', nodes path a → nodes' path' a' → ¬ Earlier path' path) :
    s.Judges base (fun path a => nodes path a ∨ nodes' path a) (do x; y) := by
  refine (Reports.andThen first fun _ => later).mono ?_ ?_
  · rintro ⟨admits, admits'⟩ path a (node | node)
    · exact admits path a node
    · exact admits' path a node
  · rintro e (⟨node, flaw, earliest⟩ | ⟨admits, ⟨node, flaw, earliest⟩⟩)
    · refine .intro (.inl node) flaw ?_
      rintro path' a' (node' | node') earlier
      · exact earliest path' a' node' earlier
      · exact absurd earlier (ordered _ _ _ _ node node')
    · refine .intro (.inr node) flaw ?_
      rintro path' a' (node' | node') earlier
      · exact admits path' a' node'
      · exact earliest path' a' node' earlier

/-- A step leads into a sequence in which the nodes lie one deeper. -/
theorem located {l : Location} (judges : s.Judges (base + 1) nodes x) :
    s.Judges base (fun path a => ∃ rest, path = l :: rest ∧ nodes rest a) (located l x) := by
  have deeper : ∀ rest : List Location, (l :: rest).length + base = rest.length + (base + 1) := by
    intro rest
    simp only [List.length_cons]
    omega
  cases x with
  | ok =>
    rintro path a ⟨rest, rfl, node⟩
    rw [deeper]
    exact judges rest a node
  | error e =>
    obtain ⟨node, flaw, earliest⟩ := judges
    rename_i path a rest problem
    refine @FirstFlaw.intro _ _ _ (l :: path) a rest problem ⟨path, rfl, node⟩
      (by rw [deeper]; exact flaw) ?_
    rintro _ a' ⟨path', rfl, node'⟩ earlier
    rw [deeper]
    exact earliest path' a' node' (earlier_of_cons earlier)

end Judges

variable {s : Scenario} {base : Nat}

theorem judges_itself (s : Scenario) (depth : Nat) (a : Action) :
    s.Judges depth (fun path b => path = [] ∧ b = a) (s.checkItself depth a) := by
  refine (checkItself_reports s depth a).mono ?_ ?_
  · rintro admits path b ⟨rfl, rfl⟩
    rw [List.length_nil, Nat.zero_add]
    exact admits
  · rintro ⟨rest, problem⟩ flaw
    refine @FirstFlaw.intro _ _ _ [] a rest problem ⟨rfl, rfl⟩
      (by rw [List.length_nil, Nat.zero_add]; exact flaw) ?_
    rintro path b - earlier
    exact absurd earlier (not_earlier_nil path)

/-- The actions of a sequence are checked one after the other, each with all that is inside it. -/
theorem judges_actions {place : Nat → Location} (ordered : Ordered place) (actions : List Action)
    (inner : ∀ a ∈ actions, s.Judges (base + 1) a.Contains (s.checkAction (base + 1) a))
    (index : Nat) :
    s.Judges base (Action.Listed (fun i => place (index + i)) actions)
      (s.checkActions (base + 1) place index actions) := by
  induction actions generalizing index with
  | nil =>
    refine .nothing ?_
    rintro _ _ ⟨here, _⟩
    cases here
  | cons a rest ih =>
    have first := (inner a List.mem_cons_self).located (l := place index)
    have later := ih (fun b member => inner b (List.mem_cons_of_mem _ member)) (index + 1)
    refine (first.andThen later ?_).congr ?_
    · rintro _ _ _ _ ⟨path, rfl, _⟩ (@⟨i, _, _, _, _, _⟩)
      obtain ⟨other, behind⟩ := ordered index (index + 1 + i) (by omega)
      exact not_earlier_of_apart other behind
    · have next : (fun i => place (index + 1 + i)) = fun i => place (index + (i + 1)) := by
        funext i
        rw [Nat.add_assoc, Nat.add_comm 1 i]
      intro path b
      rw [Action.listed_cons, next]
      rfl

/-- The sequences inside an action are checked in order. -/
theorem judges_branches (branches : List (Branch × List Action))
    (inOrder : branches.Pairwise fun q q' => q.1 = .thenActions ∧ q'.1 = .elseActions)
    (inner : ∀ q ∈ branches, ∀ a ∈ q.2,
      s.Judges (base + 1) a.Contains (s.checkAction (base + 1) a)) :
    s.Judges base (fun path a => ∃ q ∈ branches, Action.Listed (.nested q.1) q.2 path a)
      (s.checkBranches base branches) := by
  induction branches with
  | nil =>
    refine .nothing ?_
    rintro _ _ ⟨q, member, _⟩
    cases member
  | cons q rest ih =>
    obtain ⟨behind, inOrder⟩ := List.pairwise_cons.mp inOrder
    have first := judges_actions (s := s) (ordered_nested q.1) q.2 (inner q List.mem_cons_self) 0
    have later := ih inOrder fun q' member => inner q' (List.mem_cons_of_mem _ member)
    simp only [Nat.zero_add] at first
    refine (first.andThen later ?_).congr ?_
    · rintro _ _ _ _ ⟨_, _⟩ ⟨q', member, ⟨_, _⟩⟩
      obtain ⟨former, latter⟩ := behind q' member
      rw [former, latter]
      refine not_earlier_of_apart (by simp) ?_
      intro before
      cases before
    · intro path b
      simp only [List.mem_cons, exists_eq_or_imp]

/-- An action is checked with all that is inside it. -/
theorem judges_action (s : Scenario) (depth : Nat) (a : Action) :
    s.Judges depth a.Contains (s.checkAction depth a) := by
  induction a using Action.inside_induction generalizing depth with
  | step a ih =>
    have inner := judges_branches (s := s) a.branches a.branches_inOrder
      fun q owns b member => ih q owns b member (depth + 1)
    rw [checkAction_eq]
    refine ((judges_itself s depth a).andThen inner ?_).congr fun path b => a.contains_iff.symm
    rintro _ _ path' _ ⟨rfl, _⟩ _
    exact not_earlier_nil path'

/-- A scenario is accepted exactly if it allows for some depth and each of its actions, at its depth,
does what it is asked for by itself. Otherwise the report leads to what is wrong first with the first
action that does not. -/
theorem validate_iff (s : Scenario) :
    (s.validate = .ok () ↔
      s.options.maxDepth ≠ 0 ∧ ∀ path a, s.Node path a → s.Admits path.length a) ∧
    ∀ e, s.validate = .error e →
      (s.options.maxDepth = 0 ∧ e = .here .noDepth) ∨
        (s.options.maxDepth ≠ 0 ∧ s.FirstFlaw 0 s.Node e) := by
  have judges : s.Judges 0 s.Node (s.checkActions 1 .action 0 s.actions) := by
    have inOrder := @judges_actions s 0 .action ordered_action s.actions
      (fun a _ => judges_action s 1 a) 0
    simp only [Nat.zero_add] at inOrder
    exact inOrder
  have flawed : ∀ e, s.FirstFlaw 0 s.Node e → ¬ ∀ path a, s.Node path a → s.Admits path.length a := by
    rintro _ ⟨node, flaw, _⟩ admits
    exact flaw.not_admits (admits _ _ node)
  unfold validate
  split
  next none => simp [none]
  next some =>
    refine ⟨?_, ?_⟩
    · rw [judges.ok_iff flawed]
      simp [some]
    · intro e rejected
      rw [rejected] at judges
      exact .inr ⟨some, judges⟩

/-- A loop inside an `if` compares with nothing, and would be wrong about its iterations, too; what is
wrong with the other branch comes later. -/
theorem validate_iff_inside :
    let compares : Condition := ⟨.system .cursorX, some .less, none⟩
    let unknown : ImageCheck := ⟨"t", none, none, false, none, none⟩
    let s : Scenario :=
      { actions := [.test none, .branch none [.repeatWhile (some compares) [] (some 0)]
          (some [.task (.imageMatch unknown)])] }
    let e : Invalid := ⟨[.action 1, .nested .thenActions 0, .loopCondition], .nothingToCompare⟩
    s.validate = .error e ∧ s.FirstFlaw 0 s.Node e := by
  intro compares unknown s e
  have rejected : s.validate = .error e := rfl
  rcases (validate_iff s).2 e rejected with ⟨none, _⟩ | ⟨_, first⟩
  · exact absurd none (by decide)
  · exact ⟨rejected, first⟩

end Scenario

end Screenplay
