import Screenplay.Matching.Search
import Screenplay.Proofs.Offsets

/-!
What a search keeps from step to step. It scores only offsets inside the bounds, so whatever looking
at the clock and scoring such an offset keep holds at the end of the search. While there is time,
the search has a best candidate at its end; without time it ends before it has scored anything. A
search that starts with a count goes the same way as one that starts without (`Ahead.run`).
-/
namespace Screenplay

variable {σ : Type}

/-- The best candidate lies inside the bounds. -/
def SearchState.Inside (b : Bounds) (s : SearchState σ) : Prop :=
  ∀ c, s.best = some c → b.Contains c.offset

theorem SearchState.rest_best (s : SearchState σ) : s.rest.best = s.best := by
  unfold rest
  split <;> rfl

theorem SearchState.rest_evaluations (s : SearchState σ) : s.rest.evaluations = s.evaluations := by
  unfold rest
  split <;> rfl

theorem SearchTask.check_best (t : SearchTask σ) (s : SearchState σ) :
    (t.check s).best = s.best := s.rest_best

variable [LT σ] [DecidableLT σ]

/-- Looking at the clock and scoring one of these offsets keep a property of the state. -/
structure SearchTask.Keeps (t : SearchTask σ) (offsets : Offset → Prop)
    (P : SearchState σ → Prop) : Prop where
  check : ∀ s, P s → P (t.check s)
  offer : ∀ o, offsets o → ∀ s, P s → P (s.offer ⟨o, t.score o⟩)

namespace SearchState

/-- The best candidate after an offer is the one that was offered or the one before. -/
theorem offer_best (s : SearchState σ) (c : Candidate σ) :
    (s.offer c).best = some c ∨ (s.best.isSome ∧ (s.offer c).best = s.best) := by
  rcases best : s.best with _ | d
  · simp [offer, best]
  · by_cases better : d.score < c.score
    · simp [offer, best, better]
    · simp [offer, best, better]

theorem offer_best_isSome (s : SearchState σ) (c : Candidate σ) : (s.offer c).best.isSome := by
  rcases s.offer_best c with new | ⟨old, same⟩
  · rw [new]
    rfl
  · rw [same]
    exact old

end SearchState

namespace SearchTask

variable {t : SearchTask σ} {b : Bounds} {P : SearchState σ → Prop} {s : SearchState σ}

/-- A search that scores offsets inside the bounds keeps its best candidate inside. -/
theorem keeps_inside (t : SearchTask σ) (b : Bounds) :
    t.Keeps b.Contains (SearchState.Inside b) where
  check s inside c best := inside c (by rw [← check_best t s, best])
  offer o within s inside c best := by
    rcases s.offer_best ⟨o, t.score o⟩ with new | ⟨_, same⟩
    · rw [new] at best
      cases best
      exact within
    · rw [same] at best
      exact inside c best

/-- With enough time a search that has a candidate keeps one. -/
theorem keeps_intime (never : ∀ check, t.expired check = false) (offsets : Offset → Prop) :
    t.Keeps offsets fun s => s.timedOut = false ∧ s.best.isSome where
  check s holds := ⟨never _, by rw [check_best]; exact holds.2⟩
  offer o _ s holds := ⟨holds.1, s.offer_best_isSome _⟩

variable [LE σ] [DecidableLE σ]

theorem Keeps.visit {offsets : Offset → Prop} (keeps : t.Keeps offsets P) {known : Offset → Bool}
    {order : List Offset} (allowed : ∀ o ∈ order, offsets o) (holds : P s) :
    P (t.visit known order s).1 := by
  induction order generalizing s with
  | nil => exact holds
  | cons o rest ih =>
    have later : ∀ o ∈ rest, offsets o := fun o member => allowed o (List.mem_cons_of_mem _ member)
    have checked := keeps.check s holds
    have offered := keeps.offer o (allowed o List.mem_cons_self) _ checked
    simp only [SearchTask.visit]
    split
    · exact checked
    split
    · exact ih later checked
    split
    · exact offered
    · exact ih later offered

theorem Keeps.refine (keeps : t.Keeps b.Contains P) (holds : P s) : P (t.refine b s) := by
  unfold SearchTask.refine
  split
  · exact holds
  · exact keeps.visit (fun _ => Bounds.contains_of_mem_surroundings) holds

theorem Keeps.overGrid (keeps : t.Keeps b.Contains P)
    (holds : P (t.visit (fun _ => false) b.grid s).1) : P (t.overGrid b s).1 := by
  unfold SearchTask.overGrid
  split
  next ended => rwa [ended] at holds
  next goesOn =>
    rw [goesOn] at holds
    exact keeps.refine holds

theorem Keeps.around (keeps : t.Keeps b.Contains P) {hint : Offset} (inside : s.Inside b)
    (holds : P (t.visit (fun _ => false) (b.sweep hint) s).1) : P (t.around b hint s).1 := by
  have swept : (t.visit (fun _ => false) (b.sweep hint) s).1.Inside b :=
    (keeps_inside t b).visit (fun _ => Bounds.contains_of_mem_sweep) inside
  unfold SearchTask.around
  split
  next ended => rwa [ended] at holds
  next s' goesOn =>
    rw [goesOn] at holds swept
    split
    · exact holds
    next c best =>
      have scanned : P (t.visit (fun _ => false) (b.row c.offset) s').1 :=
        keeps.visit (fun _ => Bounds.contains_of_mem_row (swept c best)) holds
      split
      next ended => rwa [ended] at scanned
      next goesOn =>
        rw [goesOn] at scanned
        exact keeps.refine scanned

/-- What holds after the first order and is kept from there holds when the search ends. -/
theorem Keeps.run (keeps : t.Keeps b.Contains P) {hint : Option Offset} (inside : s.Inside b)
    (holds : P (t.visit (fun _ => false) (b.firstOrder hint) s).1) :
    ∃ s' phase, t.run b hint s = s'.finish t.threshold phase ∧ P s' := by
  cases hint with
  | none => exact ⟨_, _, rfl, keeps.overGrid holds⟩
  | some hint => exact ⟨_, _, rfl, keeps.around inside holds⟩

/-- The place that a search reports lies inside the bounds. -/
theorem run_inside (hint : Option Offset) (inside : s.Inside b) :
    ∃ (s' : SearchState σ) (phase : SearchPhase),
      t.run b hint s = s'.finish t.threshold phase ∧ s'.Inside b := by
  have keeps := keeps_inside t b
  exact keeps.run inside (keeps.visit (fun _ => Bounds.contains_of_mem_firstOrder) inside)

/-! ### Searches that are given all the time they need -/

/-- A candidate is there as soon as one offset was visited. -/
theorem visit_intime (never : ∀ check, t.expired check = false) {order : List Offset}
    (some : order ≠ []) (s : SearchState σ) :
    (t.visit (fun _ => false) order s).1.timedOut = false ∧
      (t.visit (fun _ => false) order s).1.best.isSome := by
  cases order with
  | nil => exact absurd rfl some
  | cons o rest =>
    have checked : (t.check s).timedOut = false := never _
    have offered : ((t.check s).offer ⟨o, t.score o⟩).timedOut = false ∧
        ((t.check s).offer ⟨o, t.score o⟩).best.isSome :=
      ⟨checked, SearchState.offer_best_isSome _ _⟩
    simp only [SearchTask.visit, checked, Bool.false_eq_true, if_false]
    split
    · exact offered
    · exact (keeps_intime never fun _ => True).visit (fun _ _ => trivial) offered

/-- A search with enough time reports a place, and has found it if its score reaches the
threshold. -/
theorem run_intime (never : ∀ check, t.expired check = false) (wide : 0 ≤ b.maxX)
    (high : 0 ≤ b.maxY) (hint : Option Offset) (inside : s.Inside b) :
    ∃ c, (t.run b hint s).best = some c ∧
      (t.run b hint s).found = decide (t.threshold ≤ c.score) := by
  obtain ⟨s', phase, run, time, best⟩ := (keeps_intime never b.Contains).run inside
    (visit_intime never (Bounds.firstOrder_ne_nil wide high hint) s)
  obtain ⟨c, best⟩ := Option.isSome_iff_exists.mp best
  refine ⟨c, ?_, ?_⟩
  · rw [run]
    exact best
  · rw [run]
    simp [SearchState.finish, SearchState.sufficient, time, best]

/-! ### Searches that are given no time -/

/-- The clock is looked at before the first offset is scored. -/
theorem visit_spent (spent : ∀ check, t.expired check = true) {known : Offset → Bool}
    {order : List Offset} (some : order ≠ []) (s : SearchState σ) :
    t.visit known order s = (t.check s, true) := by
  cases order with
  | nil => exact absurd rfl some
  | cons o rest =>
    have late : (t.check s).timedOut = true := spent _
    simp only [SearchTask.visit, late, if_true]

/-- A search without time ends in its first order, without a candidate of its own. -/
theorem run_spent (spent : ∀ check, t.expired check = true) (wide : 0 ≤ b.maxX)
    (high : 0 ≤ b.maxY) (hint : Option Offset) (s : SearchState σ) :
    (t.run b hint s).found = false ∧ (t.run b hint s).best = s.best := by
  have late : (t.check s).timedOut = true := spent _
  have visited : t.visit (fun _ => false) (b.firstOrder hint) s = (t.check s, true) :=
    visit_spent spent (Bounds.firstOrder_ne_nil wide high hint) s
  cases hint with
  | none =>
    have grid : t.visit (fun _ => false) b.grid s = (t.check s, true) := visited
    simp [run, overGrid, grid, SearchState.finish, late, check_best]
  | some hint =>
    have sweep : t.visit (fun _ => false) (b.sweep hint) s = (t.check s, true) := visited
    simp [run, around, sweep, SearchState.finish, late, check_best]

end SearchTask

/-! ### Searches that start with a count -/

/-- The first state is the second one with some more offsets counted as scored. When they paused
does not matter. -/
structure SearchState.Ahead (more : Nat) (s s' : SearchState σ) : Prop where
  best : s.best = s'.best
  evaluations : s.evaluations = s'.evaluations + more
  checks : s.checks = s'.checks
  timedOut : s.timedOut = s'.timedOut

namespace SearchState.Ahead

variable {more : Nat} {s s' : SearchState σ}

omit [LT σ] [DecidableLT σ] in
theorem check (ahead : Ahead more s s') (t : SearchTask σ) :
    Ahead more (t.check s) (t.check s') where
  best := by rw [SearchTask.check_best, SearchTask.check_best, ahead.best]
  evaluations := by
    change s.rest.evaluations = s'.rest.evaluations + more
    rw [rest_evaluations, rest_evaluations, ahead.evaluations]
  checks := congrArg (· + 1) ahead.checks
  timedOut := congrArg t.expired ahead.checks

theorem offer (ahead : Ahead more s s') (c : Candidate σ) :
    Ahead more (s.offer c) (s'.offer c) where
  best := by simp only [SearchState.offer, ahead.best]
  evaluations := by simp only [SearchState.offer, ahead.evaluations, Nat.add_right_comm]
  checks := ahead.checks
  timedOut := ahead.timedOut

variable [LE σ] [DecidableLE σ]

omit [LT σ] [DecidableLT σ] in
theorem finish (ahead : Ahead more s s') (threshold : σ) (phase : SearchPhase) :
    s.finish threshold phase = { s'.finish threshold phase with
      evaluations := s'.evaluations + more, pauses := s.pauses } := by
  have enough : s.sufficient threshold = s'.sufficient threshold := by
    simp only [sufficient, ahead.best]
  simp only [SearchState.finish, enough, ahead.best, ahead.evaluations, ahead.timedOut]

theorem visit (ahead : Ahead more s s') (t : SearchTask σ) (known : Offset → Bool)
    (order : List Offset) :
    ∃ u u' ended, t.visit known order s = (u, ended) ∧ t.visit known order s' = (u', ended) ∧
      Ahead more u u' := by
  induction order generalizing s s' with
  | nil => exact ⟨s, s', false, rfl, rfl, ahead⟩
  | cons o rest ih =>
    have checked := ahead.check t
    have offered := checked.offer ⟨o, t.score o⟩
    simp only [SearchTask.visit, checked.timedOut]
    split
    · exact ⟨_, _, _, rfl, rfl, checked⟩
    split
    · exact ih checked
    split
    · exact ⟨_, _, _, rfl, rfl, offered⟩
    · exact ih offered

theorem refine (ahead : Ahead more s s') (t : SearchTask σ) (b : Bounds) :
    Ahead more (t.refine b s) (t.refine b s') := by
  simp only [SearchTask.refine, ahead.best]
  split
  · exact ahead
  next c _ =>
    obtain ⟨u, u', ended, here, there, further⟩ :=
      ahead.visit t (· = c.offset) (b.surroundings c.offset)
    rw [here, there]
    exact further

theorem overGrid (ahead : Ahead more s s') (t : SearchTask σ) (b : Bounds) :
    ∃ u u' phase, t.overGrid b s = (u, phase) ∧ t.overGrid b s' = (u', phase) ∧ Ahead more u u' := by
  obtain ⟨u, u', ended, here, there, visited⟩ := ahead.visit t (fun _ => false) b.grid
  simp only [SearchTask.overGrid, here, there]
  cases ended with
  | true => exact ⟨_, _, _, rfl, rfl, visited⟩
  | false => exact ⟨_, _, _, rfl, rfl, visited.refine t b⟩

theorem around (ahead : Ahead more s s') (t : SearchTask σ) (b : Bounds) (hint : Offset) :
    ∃ u u' phase, t.around b hint s = (u, phase) ∧ t.around b hint s' = (u', phase) ∧
      Ahead more u u' := by
  obtain ⟨u, u', ended, here, there, swept⟩ := ahead.visit t (fun _ => false) (b.sweep hint)
  simp only [SearchTask.around, here, there]
  cases ended with
  | true => exact ⟨_, _, _, rfl, rfl, swept⟩
  | false =>
    simp only [swept.best]
    split
    · exact ⟨_, _, _, rfl, rfl, swept⟩
    next c _ =>
      obtain ⟨v, v', ended, here, there, scanned⟩ :=
        swept.visit t (fun _ => false) (b.row c.offset)
      simp only [here, there]
      cases ended with
      | true => exact ⟨_, _, _, rfl, rfl, scanned⟩
      | false => exact ⟨_, _, _, rfl, rfl, scanned.refine t b⟩

/-- The search comes to the same, with as many more offsets counted. -/
theorem run (ahead : Ahead more s s') (t : SearchTask σ) (b : Bounds) (hint : Option Offset) :
    ∃ pauses, t.run b hint s =
      { t.run b hint s' with evaluations := (t.run b hint s').evaluations + more, pauses } := by
  cases hint with
  | none =>
    obtain ⟨u, u', phase, here, there, further⟩ := ahead.overGrid t b
    simp only [SearchTask.run, here, there]
    exact ⟨_, further.finish t.threshold phase⟩
  | some hint =>
    obtain ⟨u, u', phase, here, there, further⟩ := ahead.around t b hint
    simp only [SearchTask.run, here, there]
    exact ⟨_, further.finish t.threshold phase⟩

end SearchState.Ahead

end Screenplay
