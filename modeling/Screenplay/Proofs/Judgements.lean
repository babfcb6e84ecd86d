import Screenplay.Proofs.Mirroring

/-!
The judgements that a run tells of. Each of them was made by the performer when the run came to the
condition, and what is told is what the performer said (`Engine.execute_judgements`).
-/
namespace Screenplay

variable {ω : Type}

/-- What an event tells of a condition that was judged. -/
def Event.judgement : Event → Option (Condition × Bool)
  | .conditionEvaluated _ (some c) result => some (c, result)
  | _ => none

/-- The judgements told so far. -/
def RunState.judgements (s : RunState ω) : List (Condition × Bool) := s.events.toList.filterMap Event.judgement

namespace RunState

variable {s s' : RunState ω}

theorem judgements_emit {e : Event} (other : e.judgement = none) : (s.emit e).judgements = s.judgements := by
  rw [judgements, emit, Array.toList_push, List.filterMap_append, List.filterMap_cons_none other]
  exact List.append_nil _

theorem judgements_hears {requests : List Event} (hears : s.Hears s' requests) : s'.judgements = s.judgements := by
  have nothing : requests.filterMap Event.judgement = [] := by
    rw [List.filterMap_eq_nil_iff]
    intro e member
    have asked := hears.requested e member
    cases e <;> first | rfl | cases asked
  rw [judgements, hears.events, List.filterMap_append, nothing, List.append_nil]
  rfl

end RunState

namespace RunSetup

variable {p : RunSetup ω} {top : OpenSequence} {parents : Stack} {s s' : RunState ω}

theorem judgements_heard {α : Type} {reply : Reply ω α} {answer : Option α}
    (heard : p.heard s reply = (s', answer)) : s'.judgements = s.judgements := by
  obtain ⟨requests, hears⟩ := RunState.hears_hear s p.atPause reply.signals
  have told := RunState.judgements_hears hears
  rw [RunSetup.heard] at heard
  split at heard
  · rename_i abandoned
    cases heard
    rw [abandoned] at told
    exact told
  · rename_i answered
    cases heard
    rw [answered] at told
    exact told

/-- The judgements of the later state are those of the earlier one, and at most one that was made
here. -/
inductive Judges (p : RunSetup ω) (top : OpenSequence) (s s' : RunState ω) : Prop where
  | nothing (same : s'.judgements = s.judgements)
  | one {c} (asks : top.Asks (.judge c))
    (told : s'.judgements = s.judgements ++ [(c, (p.performer.judge c s.world).result)])

theorem judges_judged {owner : ControlKind} {condition : Option Condition} {result : Option Bool}
    (asks : ∀ c, condition = some c → top.Asks (.judge c))
    (judged : p.judged s owner condition = (s', result)) : Judges p top s s' := by
  cases condition with
  | none =>
    cases judged
    exact .nothing (RunState.judgements_emit rfl)
  | some c =>
    rw [RunSetup.judged] at judged
    split at judged
    · rename_i t call
      cases judged
      exact .nothing (judgements_heard call)
    · rename_i t result call
      cases judged
      refine .one (asks c rfl) ?_
      rw [heard_answer call, ← judgements_heard call, RunState.judgements, RunState.emit, Array.toList_push,
        List.filterMap_append]
      rfl

end RunSetup

open RunSetup

variable {p : RunSetup ω} {top : OpenSequence} {parents : Stack} {s s' : RunState ω}

theorem Evaluates.judgements_leaf {place : List Nat} {index : Nat} {a : Action} {x : Exit}
    (leaf : a.isControl = false) (evaluated : Evaluates p (.action place index a) s x s') :
    s'.judgements = s.judgements := by
  have started {path : List Nat} {a : Action} : (p.started s path index a).judgements = s.judgements :=
    RunState.judgements_emit rfl
  have closed {t : RunState ω} {path : List Nat} {a : Action} {status : ActionStatus} {error : Option String}
      {own : Event} (other : own.judgement = none) : ((t.record path a status error).emit own).judgements =
        t.judgements :=
    RunState.judgements_emit other
  cases evaluated with
  | skip | test => rw [closed rfl, started]
  | fail => exact (RunState.judgements_emit rfl).trans ((closed rfl).trans started)
  | taskAbandoned call => rw [judgements_heard call, started]
  | task call outcome =>
    have answered {t : RunState ω} {path : List Nat} {task : Task} {status : ActionStatus} {error : Option String}
        {own : Event} (answers : (Call.perform task).Answers own) :
        ((t.record path (.task task) status error).emit own).judgements = t.judgements := by
      cases answers <;> exact closed rfl
    rw [← started, ← judgements_heard call]
    cases answered_settles outcome with
    | goesOn answers => exact answered answers
    | breaksOff answers => exact answered answers
    | terminated answers => exact (RunState.judgements_emit rfl).trans (answered answers)
  | branchAbandoned | branchNone | branchTooDeep | branch => simp [Action.isControl] at leaf
  | whileTooDeep | whileLoop | loopTooDeep | loop => simp [Action.isControl] at leaf

/-- A step tells of at most one judgement, which is made in it. -/
theorem Moves.judges {after : Progress ω} (moves : Moves p top parents s after) : Judges p top s after.state := by
  have reaching {s' : RunState ω} (judges : Judges p top (s.reaching top.next) s') : Judges p top s s' := by
    cases judges with
    | nothing same => exact .nothing same
    | one asks told => exact .one asks told
  cases moves with
  | stoppedBetween | stopped => exact .nothing (RunState.judgements_emit rfl)
  | once | countedEnough | whileEnough => exact .nothing rfl
  | countedPass => exact .nothing (RunState.judgements_emit rfl)
  | whileAbandoned behind running kind more judged | whileFalse behind running kind more judged =>
    exact judges_judged (fun c same => .pass (same ▸ kind)) judged
  | whilePass behind running kind more judged =>
    have remark {s' : RunState ω} {e : Event} (other : e.judgement = none) (judges : Judges p top s s') :
        Judges p top s (s'.emit e) := by
      cases judges with
      | nothing same => exact .nothing ((RunState.judgements_emit other).trans same)
      | one asks told => exact .one asks ((RunState.judgements_emit other).trans told)
    exact remark rfl (judges_judged (fun c same => .pass (same ▸ kind)) judged)
  | branchAbandoned here running judged | branchNone here running judged
  | branchTooDeep here running judged | branch here running judged =>
    exact reaching (judges_judged (fun c same => .branch (same ▸ here)) judged)
  | whileTooDeep | whileLoop | loopTooDeep | loop => exact .nothing rfl
  | leaf here running leaf evaluated =>
    rw [Progress.state_leave]
    exact reaching (.nothing (evaluated.judgements_leaf leaf))

/-- Every judgement that a walk tells of was told before, or is made where the walk comes. -/
theorem RunSetup.walk_judgements {stack : Stack} {fuel : Nat} {ending : Ending} {t : RunState ω}
    (begun : Stack.Begun stack.tail) (walked : p.walk fuel stack s = some (ending, t)) :
    ∀ j ∈ t.judgements, j ∈ s.judgements ∨ ∃ top parents u, p.Reaches stack s (top :: parents) u ∧
      top.Asks (.judge j.1) ∧ (p.performer.judge j.1 u.world).result = j.2 := by
  induction fuel generalizing stack s with
  | zero => cases walked
  | succ fuel ih =>
    cases stack with
    | nil =>
      cases walked
      exact fun j told => .inl told
    | cons top parents =>
      have judges := (step_moves begun : Moves p top parents s (p.step (top :: parents) s)).judges
      have here {s' : RunState ω} (judges : Judges p top s s') (j) (told : j ∈ s'.judgements) :
          j ∈ s.judgements ∨ ∃ top' parents' u, p.Reaches (top :: parents) s (top' :: parents') u ∧
            top'.Asks (.judge j.1) ∧ (p.performer.judge j.1 u.world).result = j.2 := by
        cases judges with
        | nothing same => exact .inl (same ▸ told)
        | one asks all =>
          rw [all] at told
          rcases List.mem_append.mp told with early | late
          · exact .inl early
          · rw [List.mem_singleton.mp late]
            exact .inr ⟨top, parents, s, .here, asks, rfl⟩
      rw [RunSetup.walk] at walked
      rcases first : p.step (top :: parents) s with ⟨rest, u⟩ | ⟨e, u⟩
      · rw [first] at walked judges
        intro j told
        rcases ih (step_tail begun first) walked j told with early | ⟨top', parents', v, reaches, made⟩
        · exact here judges j early
        · exact .inr ⟨top', parents', v, .step first reaches, made⟩
      · rw [first] at walked judges
        cases walked
        exact here judges

/-- What a run tells of a condition, its performer said when the run came to the condition. -/
theorem Engine.execute_judgements {e : Engine} {performer : Performer ω} {actions : List Action} {w : ω}
    {atPause : AtPause} {fuel : Nat} {record : RunRecord ω} {owner : ControlKind} {c : Condition} {result : Bool}
    (ran : e.execute performer actions w atPause fuel = .ran record)
    (told : .conditionEvaluated owner (some c) result ∈ record.events.toList) :
    ∃ u, e.Asks performer actions w atPause (.judge c) u ∧ (performer.judge c u).result = result := by
  obtain ⟨run, control, ⟨ending, t⟩, accepted, walked, rfl⟩ := Engine.ran_iff.mp ran
  have before : .conditionEvaluated owner (some c) result ∈ t.events.toList := by
    cases ending <;> simpa [Engine.close] using told
  have judged : (c, result) ∈ t.judgements := List.mem_filterMap.mpr ⟨_, before, rfl⟩
  rcases RunSetup.walk_judgements (Stack.begun_once actions) walked _ judged with
    early | ⟨top, parents, u, reaches, asks, made⟩
  · cases early
  · exact ⟨u.world, .reached accepted reaches asks, made⟩

end Screenplay
