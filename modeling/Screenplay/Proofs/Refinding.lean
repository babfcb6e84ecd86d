import Screenplay.Proofs.Retaining
import Screenplay.Proofs.Timeless

/-!
A template that was found is found again at the same place, with one look. The candidate that a search
ends with carries the score of its own place (`SearchState.Scored`), so the place that is remembered is
one whose score reaches the threshold, and the next call looks there first (`Quest.finding_again`).
-/
namespace Screenplay

/-- The score of the best candidate is the score of its place. -/
def SearchState.Scored {σ : Type} (t : SearchTask σ) (s : SearchState σ) : Prop :=
  ∀ c, s.best = some c → c.score = t.score c.offset

section
variable {σ : Type} [LT σ] [DecidableLT σ]

theorem SearchTask.keeps_scored (t : SearchTask σ) (offsets : Offset → Prop) :
    t.Keeps offsets (SearchState.Scored t) where
  check s scored c best := by
    rw [check_best] at best
    exact scored c best
  offer o _ s scored c best := by
    rcases s.offer_best ⟨o, t.score o⟩ with new | ⟨_, same⟩
    · rw [new] at best
      cases best
      rfl
    · rw [same] at best
      exact scored c best

variable [LE σ] [DecidableLE σ]

/-- What a search has found is a place whose score reaches the threshold. -/
theorem SearchTask.run_found {t : SearchTask σ} {b : Bounds} {hint : Option Offset}
    {s : SearchState σ} (unscored : s.best = none) (found : (t.run b hint s).found = true) :
    ∃ o, (t.run b hint s).best = some ⟨o, t.score o⟩ ∧ t.threshold ≤ t.score o ∧
      (t.run b hint s).timedOut = false := by
  have inside : s.Inside b := by
    intro c best
    rw [unscored] at best
    cases best
  have scored : s.Scored t := by
    intro c best
    rw [unscored] at best
    cases best
  have keeps := t.keeps_scored b.Contains
  obtain ⟨s', phase, run, scored'⟩ :=
    keeps.run inside (keeps.visit (fun _ => Bounds.contains_of_mem_firstOrder) scored)
  rw [run] at found ⊢
  simp only [SearchState.finish, Bool.and_eq_true, Bool.not_eq_true'] at found ⊢
  obtain ⟨intime, enough⟩ := found
  rcases best : s'.best with _ | ⟨o, score⟩
  · simp [SearchState.sufficient, best] at enough
  · have own : score = t.score o := scored' _ best
    subst own
    simp only [SearchState.sufficient, best, decide_eq_true_eq] at enough
    exact ⟨o, rfl, enough, intime⟩

end

namespace Quest

variable {q : Quest} {c : LocationCache}

/-- The result of a call that finds the template at a place with so many looks. -/
def hit (q : Quest) (o : Offset) (phase : SearchPhase) (evaluations : Nat) : MatchResult :=
  { found := true, x := o.x, y := o.y, width := q.template.width, height := q.template.height
    score := q.score o, phase, evaluations, timedOut := false }

/-- What is found is a place whose score reaches the threshold. -/
theorem result_found (found : (q.finding c).result.found = true) :
    q.template.Fits q.source ∧ ∃ o phase evaluations,
      (q.finding c).result = q.hit o phase evaluations ∧ q.options.threshold ≤ q.score o := by
  have comes := finding_comes q c
  generalize q.finding c = finding at comes found
  cases comes with
  | tooLarge => simp [MatchResult.ofOutcome, SearchState.finish, SearchState.sufficient] at found
  | revisited fits opened =>
    obtain ⟨_, entry, _, enough, rfl⟩ := reopened_hit opened
    refine ⟨fits, ⟨entry.x, entry.y⟩, .cache, 1, ?_, enough⟩
    simp [hit, MatchResult.ofOutcome, SearchState.finish, SearchState.offer, SearchState.sufficient,
      enough]
  | @searched during start _ fits opened same =>
    subst same
    obtain ⟨o, best, enough, intime⟩ := SearchTask.run_found (reopened_start opened) found
    let ending := q.task.run q.bounds q.hint start
    refine ⟨fits, o, ending.phase, ending.evaluations, ?_, enough⟩
    change ending.found = true at found
    change ending.best = _ at best
    change ending.timedOut = false at intime
    simp only [MatchResult.ofOutcome, hit, ending, found, best, intime, Option.getD_some]
    rfl

/-- The same call with the memory, at another time and with any hint. -/
def again (q : Quest) (clock : Stopwatch) (hint : Option Point) : Quest :=
  { q with clock, options := { q.options with useCache := true, cropLocation := hint } }

/-- Where the template was found is what is remembered of it; how long places are remembered stays the
same. -/
theorem found_remembered (q : Quest) {c : LocationCache} (arises : c.Arises)
    (found : (q.finding c).result.found = true) :
    (q.finding c).cache.ttlMs = c.ttlMs ∧ ∃ time, (q.finding c).cache.find? q.key =
      some { x := (q.finding c).result.x, y := (q.finding c).result.y, time } := by
  obtain ⟨l, lists, room⟩ := arises.lists
  obtain ⟨l', lists', changes⟩ := q.finding_changes lists room
  obtain ⟨time, listed⟩ := changes.stored lists.bounded room found
  refine ⟨by rw [lists'.ttlMs, changes.limits.2, lists.ttlMs], time, ?_⟩
  rw [lists'.find?_eq, lookup_eq_some_iff_mem lists'.distinct, listed]
  exact List.mem_concat_self

/-- Whatever found the template, and in whichever memory, the next call remembers the place: as of the
end of the search that found it, or as it was remembered before. As long as the place is not too old the
call reports it from the memory with one look, whatever its hint. -/
theorem finding_again (q : Quest) {c : LocationCache} (arises : c.Arises)
    (found : (q.finding c).result.found = true) :
    ∃ entry, (q.finding c).cache.find? q.key = some entry ∧
      (entry.time = q.clock.ended ∨ (q.key, entry) ∈ c.entries) ∧
      ∀ (clock : Stopwatch) (hint : Option Point), clock.now - entry.time ≤ c.ttlMs →
        ((q.again clock hint).finding (q.finding c).cache).result =
          { (q.finding c).result with phase := .cache, evaluations := 1 } := by
  obtain ⟨ttlMs, time, known⟩ := q.found_remembered arises found
  obtain ⟨fits, o, phase, evaluations, result, enough⟩ := result_found found
  have renewed := LocationCache.Renewed.finding q c
  refine ⟨_, known, (renewed.entries _ (LocationCache.mem_of_find? known)).symm, ?_⟩
  intro clock hint young
  rw [result] at known ⊢
  have live : (q.finding c).cache.expired ⟨o.x, o.y, time⟩ clock.now = false := by
    rw [LocationCache.expired, ttlMs]
    exact decide_eq_false (Nat.not_lt.mpr young)
  have recalls : (q.again clock hint).Recalls (q.finding c).cache ⟨o.x, o.y, time⟩ := by
    refine ⟨fits, rfl, ?_, enough⟩
    change ((q.finding c).cache.find? q.key).filter _ = _
    rw [known]
    simp [hit, again, live]
  exact result_recalled recalls

/-- A dot is found after a search of 60 ms. It is found again 120 ms after the search was begun, with a
hint that leads away, although places are remembered for only 100 ms. -/
theorem finding_again_dot :
    let c := LocationCache.empty 32 100
    let q : Quest :=
      ⟨⟨0, fun tick => min (10 * tick) 60, 60⟩, ⟨2, 1, .gray, #[10, 200]⟩, ⟨1, 1, .gray, #[200]⟩, {}⟩
    c.Arises ∧ (q.finding c).result.found = true ∧
      ((q.again (.still 120) (some ⟨0, 0⟩)).finding (q.finding c).cache).result =
        { (q.finding c).result with phase := .cache, evaluations := 1 } := by
  intro c q
  have arises : c.Arises := .empty 32 100
  have found : (q.finding c).result.found = true := by decide +kernel
  obtain ⟨entry, known, stamp, next⟩ := finding_again q arises found
  have ended : entry.time = 60 := stamp.resolve_right List.not_mem_nil
  refine ⟨arises, found, next (.still 120) (some ⟨0, 0⟩) ?_⟩
  rw [ended]
  decide

end Quest

end Screenplay
