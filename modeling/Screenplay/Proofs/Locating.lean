import Mathlib.Algebra.Order.Field.Basic
import Mathlib.Algebra.Order.Field.Rat
import Screenplay.Proofs.Accounting
import Screenplay.Proofs.Quotient

/-!
Where the leaves of a run stand. The path that is recorded of a leaf leads to it from the top
sequence, at every `if` on the way into the list that was taken there (`Action.Leads`). The walk keeps
the paths of its open sequences right while what is told grows (`Moves.locates`), so each leaf that is
told of is the one at its path, and the part of the top sequence that has been begun can be read off
the path (`Engine.execute_locates`).
-/
namespace Screenplay

variable {ω : Type}

/-! ### Paths through a tree of actions -/

/-- The sequence inside an action. Only an `if` needs to know how it was judged. -/
def Action.inside (verdict : Option Bool) : Action → Option (List Action)
  | .branch _ thenActions elseActions => verdict.bind fun result => chosen result thenActions elseActions
  | .repeatWhile _ body _ | .loop _ body => some body
  | .skip _ | .fail _ | .test _ | .task _ => none

/-- A path leads to a sequence: from the top sequence into the one inside the action at each position.
How the `if` at a path was judged is told by `verdict`. -/
inductive Action.Leads (actions : List Action) (verdict : List Nat → Option Bool) :
    List Nat → List Action → Prop where
  | top : Leads actions verdict [] actions
  | into {path sequence index a inner} (outer : Leads actions verdict path sequence)
    (here : sequence[index]? = some a)
    (inside : a.inside (verdict (path ++ [index])) = some inner) :
    Leads actions verdict (path ++ [index]) inner

namespace Action.Leads

variable {actions sequence : List Action} {verdict verdict' : List Nat → Option Bool}
  {path : List Nat} {index : Nat} {a : Action}

/-- A path depends on the verdicts along it only. -/
theorem congr (leads : Leads actions verdict path sequence)
    (same : ∀ along, along.length ≤ path.length → verdict' along = verdict along) :
    Leads actions verdict' path sequence := by
  induction leads with
  | top => exact .top
  | @into path sequence index a inner outer here inside ih =>
    have length : (path ++ [index]).length = path.length + 1 := by simp
    have before := ih fun along short => same along (by omega)
    rw [← same _ (Nat.le_refl _)] at inside
    exact .into before here inside

/-- A path begins with a position in the top sequence. -/
theorem head_lt (leads : Leads actions verdict path sequence) (here : sequence[index]? = some a) :
    (path ++ [index]).headD 0 < actions.length := by
  induction leads generalizing index a with
  | top => exact (List.getElem?_eq_some_iff.mp here).1
  | @into path _ index' _ _ outer here' inside ih =>
    have same : (path ++ [index'] ++ [index]).headD 0 = (path ++ [index']).headD 0 := by
      cases path <;> rfl
    rw [same]
    exact ih here'

end Action.Leads

/-! ### What is seen of the places of a run -/

/-- The event tells that a leaf begins or how an `if` was judged. -/
def Event.isSighting : Event → Bool
  | .actionStart .. | .conditionEvaluated .branch .. => true
  | _ => false

/-- How an `if` was judged. -/
def Event.verdict : Event → Option Bool
  | .conditionEvaluated .branch _ result => some result
  | _ => none

theorem Event.unsighted_of_leafEnd {e : Event} (ends : e.leafEnd.isSome) : e.isSighting = false := by
  cases e <;> simp_all [leafEnd, isSighting]

/-- The leaf that begins. -/
def Event.started : Event → Option Action
  | .actionStart _ a _ _ => some a
  | _ => none

/-- What was told of the action at a path. -/
structure Sighting where
  path : List Nat
  event : Event

namespace Sighting

/-- How the `if` at this path was judged, if that is what was told. -/
def verdictAt (path : List Nat) (s : Sighting) : Option Bool :=
  if s.path = path then s.event.verdict else none

/-- How the `if` at this path was judged last. -/
def lastVerdict (seen : List Sighting) (path : List Nat) : Option Bool :=
  (seen.filterMap (verdictAt path)).getLast?

/-- The path and the tag of the leaf that begins. -/
def leaf (s : Sighting) : Option (List Nat × String) := s.event.started.map fun a => (s.path, a.kind)

/-- The action that is told of stands at the end of the path. Its position there is the index that is
told when a leaf begins, and what is told of the top sequence is how much of it the path has begun. -/
inductive Stands (actions : List Action) (verdict : List Nat → Option Bool) : Sighting → Prop where
  | leaf {path sequence index a reached} (leads : Action.Leads actions verdict path sequence)
    (here : sequence[index]? = some a) (runs : a.isControl = false)
    (begun : reached = (path ++ [index]).headD 0 + 1) :
    Stands actions verdict ⟨path ++ [index], .actionStart index a reached actions.length⟩
  | judged {path sequence index condition thenActions elseActions result}
    (leads : Action.Leads actions verdict path sequence)
    (here : sequence[index]? = some (.branch condition thenActions elseActions)) :
    Stands actions verdict ⟨path ++ [index], .conditionEvaluated .branch condition result⟩

/-- Everything that was seen stands at its path, with each `if` as it had been judged last. -/
inductive Itinerary (actions : List Action) : List Sighting → Prop where
  | nothing : Itinerary actions []
  | concat {seen sighting} (before : Itinerary actions seen)
    (stands : sighting.Stands actions (lastVerdict seen)) : Itinerary actions (seen ++ [sighting])

theorem lastVerdict_other {seen : List Sighting} {sighting : Sighting} {path : List Nat}
    (other : sighting.verdictAt path = none) :
    lastVerdict (seen ++ [sighting]) path = lastVerdict seen path := by
  simp [lastVerdict, other]

theorem lastVerdict_here {seen : List Sighting} {path : List Nat} {condition : Option Condition}
    {result : Bool} :
    lastVerdict (seen ++ [⟨path, .conditionEvaluated .branch condition result⟩]) path = some result := by
  simp [lastVerdict, verdictAt, Event.verdict]

end Sighting

open Sighting

/-- The open sequences are those to which their own paths lead. -/
def Stack.Follows (actions : List Action) (verdict : List Nat → Option Bool) : Stack → Prop
  | [] => True
  | q :: rest => Action.Leads actions verdict (Stack.path rest) q.actions ∧ Follows actions verdict rest

/-- What is told of an action inside all open sequences changes no path to them. -/
theorem Stack.Follows.later {actions : List Action} {seen : List Sighting} {stack : Stack}
    (follows : Follows actions (lastVerdict seen) stack) (sighting : Sighting)
    (inner : stack.length ≤ sighting.path.length) :
    Follows actions (lastVerdict (seen ++ [sighting])) stack := by
  induction stack with
  | nil => trivial
  | cons q rest ih =>
    rw [List.length_cons] at inner
    refine ⟨follows.1.congr fun along short => lastVerdict_other ?_, ih follows.2 (by omega)⟩
    rw [Stack.length_path] at short
    rw [verdictAt, if_neg]
    rintro rfl
    omega

/-! ### What a step is seen of -/

/-- The paths and the tags of the leaves that were recorded. -/
def Report.leaves (r : Report) : List (List Nat × String) :=
  r.outcomes.toList.map fun r => (r.path, r.action)

theorem Report.leaves_record (r : Report) (path : List Nat) (action : String) (status : ActionStatus)
    (error : Option String) :
    (r.record path action status error).leaves = r.leaves ++ [(path, action)] := by
  simp [leaves, outcomes_record]

namespace RunState

/-- What is told of the places of the run. -/
def sighted (s : RunState ω) : List Event := s.events.toList.filter Event.isSighting

variable {s s' : RunState ω}

theorem sighted_emit (e : Event) : (s.emit e).sighted = s.sighted ++ [e].filter Event.isSighting := by
  rw [sighted, emit, Array.toList_push, List.filter_append]
  rfl

theorem sighted_quiet {e : Event} (quiet : e.isSighting = false) : (s.emit e).sighted = s.sighted := by
  rw [sighted_emit, List.filter_cons_of_neg (by simp [quiet])]
  exact List.append_nil _

theorem sighted_hears {requests : List Event} (hears : s.Hears s' requests) :
    s'.sighted = s.sighted := by
  have nothing : requests.filter Event.isSighting = [] := by
    rw [List.filter_eq_nil_iff]
    intro e member
    have request := hears.requested e member
    cases e <;> simp_all [Event.isStopRequest, Event.isSighting]
  rw [sighted, hears.events, List.filter_append, nothing, List.append_nil]
  rfl

end RunState

namespace RunSetup

variable {p : RunSetup ω} {s s' : RunState ω}

/-- Requests that are heard concern no place, also when the run is abandoned. -/
theorem sighted_heard {α : Type} {reply : Reply ω α} {answer : Option α}
    (heard : p.heard s reply = (s', answer)) :
    s'.sighted = s.sighted ∧ s'.report = s.report := by
  obtain ⟨requests, hears⟩ := RunState.hears_hear s p.atPause reply.signals
  have same := RunState.sighted_hears hears
  have report := hears.report
  rw [RunSetup.heard] at heard
  split at heard <;> rename_i split <;> cases heard <;> rw [split] at same report <;>
    exact ⟨same, report⟩

/-- A judgement is told once. -/
theorem sighted_judged {owner : ControlKind} {condition : Option Condition} {result : Bool}
    (judged : p.judged s owner condition = (s', some result)) :
    s'.sighted =
        s.sighted ++ [Event.conditionEvaluated owner condition result].filter Event.isSighting ∧
      s'.report = s.report := by
  cases condition with
  | none =>
    cases judged
    exact ⟨RunState.sighted_emit _, rfl⟩
  | some c =>
    rw [RunSetup.judged] at judged
    split at judged
    next => cases judged
    next _ t result call =>
      cases judged
      obtain ⟨same, report⟩ := sighted_heard call
      rw [← same]
      exact ⟨RunState.sighted_emit _, report⟩

theorem sighted_judged_none {owner : ControlKind} {condition : Option Condition}
    (judged : p.judged s owner condition = (s', none)) : s'.sighted = s.sighted := by
  cases condition with
  | none => cases judged
  | some c =>
    rw [RunSetup.judged] at judged
    split at judged
    next call =>
      cases judged
      exact (sighted_heard call).1
    next => cases judged

end RunSetup

/-- A leaf is told when it begins, and it is recorded unless the run is let go. -/
theorem Evaluates.sighted {p : RunSetup ω} {path : List Nat} {index : Nat} {a : Action}
    {s s' : RunState ω} {x : Exit} (leaf : a.isControl = false)
    (evaluated : Evaluates p (.action path index a) s x s') :
    s'.sighted =
        s.sighted ++ [.actionStart index a ((path ++ [index]).headD 0 + 1) p.total] ∧
      (x ≠ .ends .abandoned →
        s'.report.leaves = s.report.leaves ++ [(path ++ [index], a.kind)]) := by
  have started : (p.started s (path ++ [index]) index a).sighted =
      s.sighted ++ [.actionStart index a ((path ++ [index]).headD 0 + 1) p.total] :=
    RunState.sighted_emit _
  -- what closes a leaf is not a sighting
  have closed {t : RunState ω} {own : Event} (closes : own.leafEnd.isSome) :
      (t.emit own).sighted = t.sighted := RunState.sighted_quiet (Event.unsighted_of_leafEnd closes)
  cases evaluated with
  | skip | test => exact ⟨(closed rfl).trans started, fun _ => Report.leaves_record ..⟩
  | fail =>
    exact ⟨(RunState.sighted_quiet rfl).trans ((closed rfl).trans started),
      fun _ => Report.leaves_record ..⟩
  | taskAbandoned call =>
    exact ⟨(RunSetup.sighted_heard call).1.trans started, fun kept => absurd rfl kept⟩
  | task call outcome =>
    obtain ⟨same, report⟩ := RunSetup.sighted_heard call
    have told := same.trans started
    have before : s.report = _ := report.symm
    rw [before]
    cases RunSetup.answered_settles outcome with
    | goesOn _ tells | breaksOff _ tells =>
      exact ⟨(closed (Option.isSome_of_eq_some tells)).trans told, fun _ => Report.leaves_record ..⟩
    | terminated _ tells =>
      exact ⟨(RunState.sighted_quiet rfl).trans ((closed (Option.isSome_of_eq_some tells)).trans told),
        fun _ => Report.leaves_record ..⟩
  | branchAbandoned | branchNone | branchTooDeep | branch => simp [Action.isControl] at leaf
  | whileTooDeep | whileLoop | loopTooDeep | loop => simp [Action.isControl] at leaf

/-! ### Whole runs -/

namespace RunState

/-- What was told of the places of the run, and every leaf of it that was recorded. -/
structure Located (s : RunState ω) (actions : List Action) (seen : List Sighting) : Prop where
  stands : Itinerary actions seen
  told : s.sighted = seen.map Sighting.event
  recorded : s.report.leaves = seen.filterMap Sighting.leaf

variable {s s' : RunState ω} {actions : List Action} {seen : List Sighting}

/-- Nothing was told of a place. -/
theorem Located.same (located : s.Located actions seen) (told : s'.sighted = s.sighted)
    (report : s'.report.leaves = s.report.leaves) : s'.Located actions seen :=
  ⟨located.stands, told.trans located.told, report.trans located.recorded⟩

/-- One more sighting. -/
theorem Located.concat {sighting : Sighting} (located : s.Located actions seen)
    (stands : sighting.Stands actions (lastVerdict seen))
    (told : s'.sighted = s.sighted ++ [sighting.event])
    (report : s'.report.leaves = s.report.leaves ++ sighting.leaf.toList) :
    s'.Located actions (seen ++ [sighting]) where
  stands := .concat located.stands stands
  told := by simp [told, located.told]
  recorded := by
    rw [report, located.recorded, List.filterMap_append]
    cases sighted : sighting.leaf <;> simp [sighted]

end RunState

/-- The walk is where its paths lead, and what was told of its places is right. -/
def RunState.OnCourse (s : RunState ω) (actions : List Action) (stack : Stack) : Prop :=
  ∃ seen, s.Located actions seen ∧ stack.Follows actions (lastVerdict seen)

/-- What was told of the places of a run that is over is right. The leaf during which the caller
abandoned it has no record. -/
def RunState.Arrived (s : RunState ω) (actions : List Action) (ending : Ending) : Prop :=
  ∃ seen, Itinerary actions seen ∧ s.sighted = seen.map Sighting.event ∧
    (ending ≠ .abandoned → s.report.leaves = seen.filterMap Sighting.leaf)

theorem RunState.Located.arrived {s : RunState ω} {actions : List Action} {seen : List Sighting}
    (located : s.Located actions seen) (ending : Ending) : s.Arrived actions ending :=
  ⟨seen, located.stands, located.told, fun _ => located.recorded⟩

namespace RunSetup

variable {p : RunSetup ω} {actions : List Action} {seen : List Sighting} {top : OpenSequence}
  {parents : Stack} {s s' : RunState ω}

/-- An `if` that was judged is known by its path from then on. -/
theorem located_judged {condition : Option Condition} {thenActions : List Action}
    {elseActions : Option (List Action)} {result : Bool} (located : s.Located actions seen)
    (follows : Stack.Follows actions (lastVerdict seen) (top :: parents))
    (here : top.actions[top.next]? = some (.branch condition thenActions elseActions))
    (judged : p.judged s .branch condition = (s', some result)) :
    ∃ seen', s'.Located actions seen' ∧
      Stack.Follows actions (lastVerdict seen') (top :: parents) ∧
      lastVerdict seen' (Stack.path parents ++ [top.next]) = some result := by
  obtain ⟨told, report⟩ := sighted_judged judged
  have stands : Stands actions (lastVerdict seen)
      ⟨Stack.path parents ++ [top.next], .conditionEvaluated .branch condition result⟩ :=
    .judged follows.1 here
  refine ⟨_, located.concat stands told (by rw [report]; exact (List.append_nil _).symm),
    follows.later _ ?_, lastVerdict_here⟩
  simp [Stack.length_path]

end RunSetup

/-- Where the innermost sequence stands and how often it is walked does not matter to its path. -/
theorem Stack.Follows.stand {actions : List Action} {verdict : List Nat → Option Bool}
    {q q' : OpenSequence} {rest : Stack} (follows : Follows actions verdict (q :: rest))
    (same : q'.actions = q.actions) : Follows actions verdict (q' :: rest) :=
  ⟨same ▸ follows.1, follows.2⟩

/-- The sequence inside the action that comes next. -/
theorem Stack.Follows.enter {actions : List Action} {verdict : List Nat → Option Bool}
    {top inner : OpenSequence} {parents : Stack} {a : Action}
    (follows : Follows actions verdict (top :: parents)) (here : top.actions[top.next]? = some a)
    (inside : a.inside (verdict (Stack.path parents ++ [top.next])) = some inner.actions) :
    Follows actions verdict (inner :: { top with next := top.next + 1 } :: parents) := by
  refine ⟨?_, follows.stand rfl⟩
  rw [Stack.path_behind rfl]
  exact .into follows.1 here inside

/-- Every step keeps the walk on its course. -/
theorem Moves.locates {p : RunSetup ω} {actions : List Action} {top : OpenSequence} {parents : Stack}
    {s : RunState ω} {after : Progress ω} (whole : p.total = actions.length)
    (course : s.OnCourse actions (top :: parents)) (moves : Moves p top parents s after) :
    after.Leaves (fun stack s => s.OnCourse actions stack) fun ending s => s.Arrived actions ending := by
  obtain ⟨seen, located, follows⟩ := course
  -- that an action is reached is not told
  have reached : (s.reaching top.next).Located actions seen := located.same rfl rfl
  have quiet {t : RunState ω} {e : Event} (located : t.Located actions seen)
      (silent : e.isSighting = false) : (t.emit e).Located actions seen :=
    located.same (RunState.sighted_quiet silent) rfl
  have abandoned {t u : RunState ω} {owner : ControlKind} {condition : Option Condition}
      (located : t.Located actions seen) (judged : p.judged t owner condition = (u, none)) :
      u.Arrived actions .abandoned :=
    ⟨seen, located.stands, (RunSetup.sighted_judged_none judged).trans located.told,
      fun kept => absurd rfl kept⟩
  -- the condition of a loop concerns no place
  have passed {t : RunState ω} {condition : Option Condition} {result : Bool}
      (judged : p.judged s .repeatWhile condition = (t, some result)) : t.Located actions seen := by
    obtain ⟨told, report⟩ := RunSetup.sighted_judged judged
    exact located.same (told.trans (List.append_nil _)) (by rw [report])
  cases moves with
  | stoppedBetween | stopped => exact (quiet (located.same rfl rfl) rfl).arrived _
  | once | countedEnough | whileEnough => exact ⟨seen, located, follows.2⟩
  | countedPass => exact ⟨seen, quiet located rfl, follows.stand rfl⟩
  | whileAbandoned _ _ _ _ judged => exact abandoned located judged
  | whileFalse _ _ _ _ judged => exact ⟨seen, passed judged, follows.2⟩
  | whilePass _ _ _ _ judged => exact ⟨seen, quiet (passed judged) rfl, follows.stand rfl⟩
  | branchAbandoned _ _ judged => exact abandoned reached judged
  | branchNone here _ judged =>
    obtain ⟨seen', located', follows', _⟩ := RunSetup.located_judged reached follows here judged
    exact ⟨seen', located', follows'.stand rfl⟩
  | branchTooDeep here _ judged =>
    obtain ⟨seen', located', _⟩ := RunSetup.located_judged reached follows here judged
    exact located'.arrived _
  | branch here _ judged taken =>
    obtain ⟨seen', located', follows', last⟩ := RunSetup.located_judged reached follows here judged
    exact ⟨seen', located', follows'.enter here (by rw [last]; exact taken)⟩
  | whileTooDeep | loopTooDeep => exact reached.arrived _
  | whileLoop here | loop here => exact ⟨seen, reached, follows.enter here rfl⟩
  | @leaf a x t here running leaf evaluated =>
    obtain ⟨told, report⟩ := evaluated.sighted leaf
    have stands : Stands actions (lastVerdict seen) ⟨Stack.path parents ++ [top.next],
        .actionStart top.next a ((Stack.path parents ++ [top.next]).headD 0 + 1) p.total⟩ := by
      rw [whole]
      exact .leaf follows.1 here leaf rfl
    have later := follows.later ⟨Stack.path parents ++ [top.next],
        .actionStart top.next a ((Stack.path parents ++ [top.next]).headD 0 + 1) p.total⟩
      (by simp [Stack.length_path])
    cases x with
    | done | jump => exact ⟨_, reached.concat stands told (report nofun), later.stand rfl⟩
    | ends ending =>
      refine ⟨_, .concat reached.stands stands, ?_, fun kept => ?_⟩
      · simp [told, reached.told]
      · exact (reached.concat stands told (report (by simpa using kept))).recorded

theorem RunSetup.keeps_course (p : RunSetup ω) {actions : List Action}
    (whole : p.total = actions.length) :
    p.Keeps (fun stack s => s.OnCourse actions stack) fun ending s => s.Arrived actions ending where
  step := fun _ _ _ _ course moves => moves.locates whole course
  finish := fun _ ⟨_, located, _⟩ => located.arrived _

/-- What a run tells and records of its leaves is right about where they stand. -/
structure RunRecord.Locates (record : RunRecord ω) (actions : List Action) (seen : List Sighting) :
    Prop where
  /-- Every path leads to the action that is told of, at each `if` into the list that was taken. -/
  stands : Itinerary actions seen
  /-- Every leaf that begins and every `if` that is judged is seen, in order. -/
  told : record.events.toList.filter Event.isSighting = seen.map Sighting.event
  /-- What is recorded of the leaves is their paths and their tags, in order. -/
  recorded : ∀ result, record.result = some result →
    result.report.outcomes.toList.map (fun r => (r.path, r.action)) = seen.filterMap Sighting.leaf
  /-- A recorded path ends with the index at which the end of its leaf is told. -/
  ended : ∀ result, record.result = some result →
    result.report.outcomes.toList.map ActionRecord.leafEnd = record.events.toList.filterMap Event.leafEnd
  /-- What has been begun of the top sequence is more than nothing and at most all of it. This is true
  of the double that is told as well, as long as a length is a double. -/
  progress : ∀ index a reached total, .actionStart index a reached total ∈ record.events.toList →
    1 ≤ reached ∧ reached ≤ total ∧ total = actions.length ∧
      (0 < (reached : ℚ) / total ∧ (reached : ℚ) / total ≤ 1) ∧
      (total < 2 ^ 53 → 0.0 < Event.progress reached total ∧ Event.progress reached total ≤ 1.0)

/-- A leaf that begins lies in the part of the top sequence that has been begun. -/
theorem Sighting.Itinerary.progress {actions : List Action} {seen : List Sighting}
    (itinerary : Itinerary actions seen) {path : List Nat} {index reached total : Nat} {a : Action}
    (member : ⟨path, .actionStart index a reached total⟩ ∈ seen) :
    1 ≤ reached ∧ reached ≤ total ∧ total = actions.length := by
  induction itinerary with
  | nothing => cases member
  | concat before stands ih =>
    rcases List.mem_append.mp member with early | late
    · exact ih early
    · cases List.mem_singleton.mp late
      cases stands with
      | leaf leads here runs begun =>
        have inside := leads.head_lt here
        omega

namespace Engine

theorem close_sighted (e : Engine) (ending : Ending) (s : RunState ω) :
    (e.close (ending, s)).events.toList.filter Event.isSighting = s.sighted := by
  cases ending with
  | abandoned => rfl
  | fault | finished | stopped | terminated => exact RunState.sighted_quiet (s := s) rfl

/-- Every leaf of a run stands where its path says, whatever was run and wherever leaves jumped. -/
theorem execute_locates {e : Engine} {performer : Performer ω} {actions : List Action} {world : ω}
    {atPause : AtPause} {fuel : Nat} {record : RunRecord ω}
    (ran : e.execute performer actions world atPause fuel = .ran record) :
    ∃ seen, record.Locates actions seen := by
  obtain ⟨run, control, ⟨ending, s⟩, accepted, walked, rfl⟩ := ran_iff.mp ran
  have begun := Stack.begun_once actions
  have opening : (Engine.opening actions world control).OnCourse actions [.once actions] :=
    ⟨[], ⟨.nothing, rfl, rfl⟩, .top, trivial⟩
  obtain ⟨seen, stands, told, recorded⟩ :=
    ((e.setup performer actions run atPause).keeps_course rfl).walked walked begun opening
  have accounts :=
    (RunSetup.keeps_accounts _).walked walked begun (accounts_opening actions world control)
  have kept {result : RunResult} (given : (e.close (ending, s)).result = some result) :
      ending ≠ .abandoned := by
    rintro rfl
    cases given
  have sighted := close_sighted e ending s
  refine ⟨seen, stands, sighted.trans told, fun result given => ?_, fun result given => ?_, ?_⟩
  · rw [close_report given]
    exact recorded (kept given)
  · exact (close_adds_up (accounts (kept given)) given).outcomes
  · intro index a reached total member
    have seenStart : Event.actionStart index a reached total ∈ seen.map Sighting.event := by
      rw [← told, ← sighted]
      exact List.mem_filter.mpr ⟨member, rfl⟩
    obtain ⟨⟨path, event⟩, inside, rfl⟩ := List.mem_map.mp seenStart
    obtain ⟨some, within, whole⟩ := stands.progress inside
    have begun : (0 : ℚ) < reached := by exact_mod_cast some
    have some' : (0 : ℚ) < total := by exact_mod_cast Nat.lt_of_lt_of_le some within
    have within' : (reached : ℚ) ≤ total := by exact_mod_cast within
    exact ⟨some, within, whole, ⟨div_pos begun some', (div_le_one some').mpr within'⟩,
      Binary64.progress_atMostOne some within⟩

/-- A leaf in the list that is taken in the first pass jumps over the next one; the second pass takes
the other list. -/
theorem execute_locates_jumping :
    let actions : List Action := [.skip none, .loop 2
      [.branch (some ⟨.system .cursorX, none, none⟩) [.task (.key "a"), .fail none, .test none]
        (some [.task (.input "b")])]]
    ∃ (record : RunRecord Nat) (result : RunResult) (seen : List Sighting),
      execute {} { perform := fun task calls =>
                      ⟨.ok { success := true, jumpTo := if task = .key "a" then some 2 else none }, calls, []⟩
                   judge := fun _ calls => ⟨calls = 0, calls + 1, []⟩ } actions 0 .goOn 14 = .ran record ∧
      record.result = some result ∧
      result.report.outcomes.toList.map ActionRecord.path = [[0], [1, 0, 0], [1, 0, 2], [1, 0, 0]] ∧
      record.Locates actions seen := by
  intro actions
  obtain ⟨record, result, ran, ended, paths⟩ : ∃ (record : RunRecord Nat) (result : RunResult),
      execute {} { perform := fun task calls =>
                      ⟨.ok { success := true, jumpTo := if task = .key "a" then some 2 else none }, calls, []⟩
                   judge := fun _ calls => ⟨calls = 0, calls + 1, []⟩ } actions 0 .goOn 14 = .ran record ∧
      record.result = some result ∧
      result.report.outcomes.toList.map ActionRecord.path = [[0], [1, 0, 0], [1, 0, 2], [1, 0, 0]] :=
    ⟨_, _, rfl, rfl, by decide⟩
  obtain ⟨seen, locates⟩ := execute_locates ran
  exact ⟨record, result, seen, ran, ended, paths, locates⟩

end Engine

end Screenplay
