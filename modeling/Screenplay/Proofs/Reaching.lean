import Screenplay.Proofs.Simulation
import Screenplay.Proofs.Weight

/-!
Where a walk comes. What every step keeps holds at every stack that the walk reaches, and a walk that
ends does so as its last step says (`RunSetup.Keeps`).
-/
namespace Screenplay

variable {ω : Type} {p : RunSetup ω}

namespace RunSetup

variable {stack rest : Stack} {s t : RunState ω}

/-- What every step keeps holds wherever the walk comes. -/
theorem Reaches.keeps (holds : Stack → RunState ω → Prop)
    (kept : ∀ stack s rest t, holds stack s → p.step stack s = .more rest t → holds rest t)
    (reaches : p.Reaches stack s rest t) (start : holds stack s) : holds rest t := by
  induction reaches with
  | here => exact start
  | step first later ih => exact ih (kept _ _ _ _ start first)

/-- A sequence that owns another one stands behind the action that owns it, wherever the walk
comes. -/
theorem Reaches.begun (reaches : p.Reaches stack s rest t) (start : Stack.Begun stack.tail) :
    Stack.Begun rest.tail :=
  reaches.keeps (fun stack _ => Stack.Begun stack.tail)
    (fun _ _ _ _ begun first => step_tail begun first) start

/-- A walk ends as it ends from where it comes. -/
theorem Reaches.ends {r : Ending × RunState ω} (reaches : p.Reaches stack s rest t)
    (ends : p.Ends rest t r) : p.Ends stack s r := by
  induction reaches with
  | here => exact ends
  | step first later ih =>
    rw [ends_iff, first]
    exact ih ends

end RunSetup

/-- What is asked of the stack and the state that a step leaves, or else of the end of the walk. -/
def Progress.Leaves (going : Stack → RunState ω → Prop) (ended : Ending → RunState ω → Prop) :
    Progress ω → Prop
  | .more stack s => going stack s
  | .over ending s => ended ending s

/-- Every step keeps an invariant, or ends the walk as it should. -/
structure RunSetup.Keeps (p : RunSetup ω) (going : Stack → RunState ω → Prop)
    (ended : Ending → RunState ω → Prop) : Prop where
  step : ∀ top parents s after, going (top :: parents) s → Moves p top parents s after →
    after.Leaves going ended
  finish : ∀ s, going [] s → ended .finished s

namespace RunSetup.Keeps

variable {going : Stack → RunState ω → Prop} {ended : Ending → RunState ω → Prop}
  {stack rest : Stack} {s t : RunState ω}

theorem leaves (keeps : p.Keeps going ended) (begun : Stack.Begun stack.tail) (start : going stack s) :
    (p.step stack s).Leaves going ended := by
  cases stack with
  | nil => exact keeps.finish s start
  | cons top parents => exact keeps.step top parents s _ start (step_moves begun)

/-- The invariant holds wherever the walk comes. -/
theorem reached (keeps : p.Keeps going ended) (reaches : p.Reaches stack s rest t)
    (begun : Stack.Begun stack.tail) (start : going stack s) : going rest t := by
  have both : Stack.Begun rest.tail ∧ going rest t := by
    refine reaches.keeps (fun stack s => Stack.Begun stack.tail ∧ going stack s) ?_
      ⟨begun, start⟩
    rintro stack s rest t ⟨begun, holds⟩ first
    have next := keeps.leaves begun holds
    rw [first] at next
    exact ⟨step_tail begun first, next⟩
  exact both.2

/-- A walk that ends does so as it should. -/
theorem walked (keeps : p.Keeps going ended) {fuel : Nat} {ending : Ending}
    (walked : p.walk fuel stack s = some (ending, t)) (begun : Stack.Begun stack.tail)
    (start : going stack s) : ended ending t := by
  induction fuel generalizing stack s with
  | zero => cases walked
  | succ fuel ih =>
    have next := keeps.leaves begun start
    rw [walk] at walked
    rcases step : p.step stack s with ⟨rest, u⟩ | ⟨e, u⟩
    · rw [step] at walked next
      exact ih walked (step_tail begun step) next
    · rw [step] at walked next
      cases walked
      exact next

end RunSetup.Keeps

/-- At its beginning a run has no sequence that owns another one. -/
theorem Stack.begun_once (actions : List Action) : Stack.Begun [OpenSequence.once actions].tail :=
  fun _ member => absurd member List.not_mem_nil

end Screenplay
