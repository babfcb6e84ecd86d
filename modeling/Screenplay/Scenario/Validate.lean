import Screenplay.Matching.Options
import Screenplay.Scenario.Basic

/-!
What a scenario must satisfy beyond its form: it names only templates that it has, its thresholds
are scores, no loop is bounded by zero, comparisons have something to compare with, and nothing
nests deeper than its own options allow.
-/
namespace Screenplay

/-- A list of actions inside another action. -/
inductive Branch where
  | thenActions
  | elseActions
  | actions
  deriving DecidableEq, Repr

def Branch.name : Branch → String
  | thenActions => "thenActions"
  | elseActions => "elseActions"
  | actions => "actions"

/-- A step on the way from the scenario to what is wrong with it. -/
inductive Location where
  | action (index : Nat)
  | nested (branch : Branch) (index : Nat)
  | branchCondition
  | loopCondition
  deriving DecidableEq, Repr

namespace Location

def message : Location → String
  | action index => "Invalid action at index " ++ Nat.repr index
  | nested branch index => "Invalid action in `" ++ branch.name ++ "` at index " ++ Nat.repr index
  | branchCondition => "Invalid `if` condition"
  | loopCondition => "Invalid `while` condition"

end Location

/-- What is wrong. -/
inductive Problem where
  | noDepth
  | tooDeep (maxDepth : UInt64)
  | noIterations
  | nothingToCompare
  | unknownTemplate (name : String)
  | threshold (template : String) (e : ThresholdError)
  deriving DecidableEq, Repr

namespace Problem

def message : Problem → String
  | noDepth => "options.maxDepth must be at least 1"
  | tooDeep maxDepth =>
    "Maximum action nesting depth (" ++ Nat.repr maxDepth.toNat ++ ") exceeded"
  | noIterations => "`while` maxIterations must be at least 1"
  | nothingToCompare => "Condition operator given without a `value` to compare against"
  | unknownTemplate name => "Referenced template '" ++ name ++ "' was not found in `templates`"
  | threshold template e => "Invalid image-match options for '" ++ template ++ "': " ++ e.message

end Problem

/-- The first problem of a scenario and the way to it. -/
structure Invalid where
  path : List Location
  problem : Problem
  deriving DecidableEq, Repr

namespace Invalid

/-- A problem where it is found. -/
def here (problem : Problem) : Invalid := ⟨[], problem⟩

def message (e : Invalid) : String :=
  ": ".intercalate (e.path.map Location.message ++ [e.problem.message])

end Invalid

/-- Puts a step in front of the way to a problem. -/
def located {α : Type} (l : Location) : Except Invalid α → Except Invalid α
  | .ok a => .ok a
  | .error e => .error { e with path := l :: e.path }

namespace Scenario

def checkImage (s : Scenario) (check : ImageCheck) : Except Invalid Unit :=
  if (s.templates.lookup check.template).isNone then .error (.here (.unknownTemplate check.template))
  else
    let default : SearchOptions := {}
    match checkThreshold (check.threshold.getD default.threshold) with
    | .ok () => .ok ()
    | .error e => .error (.here (.threshold check.template e))

def checkCondition (s : Scenario) (c : Condition) : Except Invalid Unit :=
  match c.measure with
  | .image check => s.checkImage check
  | .sound _ | .system _ =>
    if c.operator.isSome ∧ c.value.isNone then .error (.here .nothingToCompare) else .ok ()

/-- A condition that is not there holds. -/
def checkCondition? (s : Scenario) (l : Location) : Option Condition → Except Invalid Unit
  | none => .ok ()
  | some c => located l (s.checkCondition c)

/-- A list of actions may be opened only below the greatest depth. -/
def checkDepth (s : Scenario) (depth : Nat) : Except Invalid Unit :=
  if s.options.maxDepth.toNat ≤ depth then .error (.here (.tooDeep s.options.maxDepth)) else .ok ()

mutual

/-- Checks an action at a depth: its condition, its own limits, then what it owns. -/
def checkAction (s : Scenario) (depth : Nat) : Action → Except Invalid Unit
  | .branch condition thenActions elseActions => do
    s.checkCondition? .branchCondition condition
    s.checkDepth depth
    s.checkActions (depth + 1) (.nested .thenActions) 0 thenActions
    s.checkElse depth elseActions
  | .repeatWhile condition actions maxIterations => do
    s.checkCondition? .loopCondition condition
    if maxIterations = some 0 then throw (.here .noIterations)
    s.checkDepth depth
    s.checkActions (depth + 1) (.nested .actions) 0 actions
  | .loop _ actions => do
    s.checkDepth depth
    s.checkActions (depth + 1) (.nested .actions) 0 actions
  | .task (.imageMatch check) => s.checkImage check
  | _ => .ok ()

/-- Checks a list of actions in order. -/
def checkActions (s : Scenario) (depth : Nat) (place : Nat → Location) (index : Nat) :
    List Action → Except Invalid Unit
  | [] => .ok ()
  | a :: rest => do
    located (place index) (s.checkAction depth a)
    s.checkActions depth place (index + 1) rest

def checkElse (s : Scenario) (depth : Nat) : Option (List Action) → Except Invalid Unit
  | none => .ok ()
  | some actions => do
    s.checkDepth depth
    s.checkActions (depth + 1) (.nested .elseActions) 0 actions

end

/-- The first problem of a scenario, if it has one. -/
def validate (s : Scenario) : Except Invalid Unit :=
  if s.options.maxDepth = 0 then .error (.here .noDepth)
  else s.checkActions 1 .action 0 s.actions

end Scenario

end Screenplay
