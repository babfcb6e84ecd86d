import Screenplay.Proofs.Mirroring

/-!
What is in an action, however deep: the tasks and the conditions that a run may come to. A run of
some actions asks its performer for nothing else (`Engine.Asks.mem`).
-/
namespace Screenplay

/-- The call for the condition of a control action; one that is not there asks for nothing. -/
def Condition.calls : Option Condition → List Call
  | none => []
  | some condition => [.judge condition]

mutual

/-- The calls that an action can come to. -/
def Action.calls : Action → List Call
  | .branch condition thenActions elseActions =>
    Condition.calls condition ++ allCalls thenActions ++ elseCalls elseActions
  | .repeatWhile condition body _ => Condition.calls condition ++ allCalls body
  | .loop _ body => allCalls body
  | .skip _ | .fail _ | .test _ => []
  | .task t => [.perform t]

def Action.allCalls : List Action → List Call
  | [] => []
  | a :: rest => a.calls ++ allCalls rest

def Action.elseCalls : Option (List Action) → List Call
  | none => []
  | some actions => allCalls actions

end

theorem Action.mem_allCalls {actions : List Action} {call : Call} :
    call ∈ allCalls actions ↔ ∃ a ∈ actions, call ∈ a.calls := by
  induction actions with
  | nil => simp [allCalls]
  | cons a rest ih => simp [allCalls, ih]

/-- What a sequence asks for or comes to is among the calls of the action that opens it. -/
structure OpenSequence.Within (q : OpenSequence) (calls : List Call) : Prop where
  actions : Action.allCalls q.actions ⊆ calls
  condition : ∀ c most made, q.passes = .whileHolds (some c) most made → .judge c ∈ calls

namespace OpenSequence.Within

variable {q : OpenSequence} {calls : List Call}

theorem of_opens {a : Action} (opens : a.Opens q) : q.Within a.calls := by
  cases opens with
  | thenActions => exact ⟨fun call member => by simp [Action.calls, member], by simp⟩
  | elseActions => exact ⟨fun call member => by simp [Action.calls, Action.elseCalls, member], by simp⟩
  | whileBody =>
    refine ⟨fun call member => by simp [Action.calls, member], ?_⟩
    rintro c most made kind
    cases kind
    simp [Action.calls, Condition.calls]
  | loopBody => exact ⟨fun call member => by simp [Action.calls, member], by simp⟩

theorem weaken {more : List Call} (within : q.Within calls) (subset : calls ⊆ more) : q.Within more :=
  ⟨fun _ member => subset (within.actions member),
    fun c most made kind => subset (within.condition c most made kind)⟩

theorem of_mem {a : Action} (within : q.Within calls) (member : a ∈ q.actions) : a.calls ⊆ calls :=
  fun _ inside => within.actions (Action.mem_allCalls.mpr ⟨a, member, inside⟩)

theorem asks {call : Call} (within : q.Within calls) (asks : q.Asks call) : call ∈ calls := by
  cases asks with
  | task here => exact within.of_mem (List.mem_of_getElem? here) (by simp [Action.calls])
  | branch here =>
    exact within.of_mem (List.mem_of_getElem? here) (by simp [Action.calls, Condition.calls])
  | pass kind => exact within.condition _ _ _ kind

end OpenSequence.Within

namespace Stack.Descends

variable {actions : List Action} {q : OpenSequence} {rest : Stack}

/-- Whatever is open is within the actions of the run. -/
theorem within (descends : Descends actions (q :: rest)) : q.Within (Action.allCalls actions) := by
  generalize opened : q :: rest = stack at descends
  induction descends generalizing q rest with
  | nothing => cases opened
  | top =>
    cases opened
    exact ⟨fun _ member => member, by simp⟩
  | inner below behind here opens ih =>
    cases opened
    have owner := (ih rfl).of_mem (List.mem_of_getElem? here)
    exact (OpenSequence.Within.of_opens opens).weaken owner

end Stack.Descends

/-- A run asks only for what is in its actions. -/
theorem Engine.Asks.mem {ω : Type} {e : Engine} {performer : Performer ω} {actions : List Action}
    {w₀ w : ω} {atPause : AtPause} {call : Call} (asks : e.Asks performer actions w₀ atPause call w) :
    call ∈ Action.allCalls actions := by
  cases asks with
  | @reached run control _ _ _ _ accepted reaches asks =>
    have keeps := (e.setup performer actions run atPause).keeps_descends actions
    have descends := keeps.reached reaches (Stack.begun_once actions) .top
    exact descends.within.asks asks

end Screenplay
