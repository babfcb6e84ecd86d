import Screenplay.Proofs.Finding

/-!
What a remembered place changes. If it still does, it is the answer, after one look and whatever the
clock says. If it does not, the search that follows comes to what it would have come to without a
memory, and the look at the place is counted.
-/
namespace Screenplay

/-- The same result after some more offsets were scored. -/
def MatchResult.counting (r : MatchResult) (more : Nat) : MatchResult :=
  { r with evaluations := r.evaluations + more }

instance (template source : Frame) : Decidable (template.Fits source) :=
  inferInstanceAs (Decidable (_ ∧ _))

namespace Quest

/-- The place that is remembered for the template, unless it is too old. -/
def remembered (q : Quest) (c : LocationCache) : Option CachedLocation :=
  (c.find? q.key).filter fun entry => !c.expired entry q.clock.now

/-- The call answers with this remembered place: the template fits, the memory is asked, and the
score at the place still reaches the threshold. -/
structure Recalls (q : Quest) (c : LocationCache) (entry : CachedLocation) : Prop where
  fits : q.template.Fits q.source
  useCache : q.options.useCache = true
  known : q.remembered c = some entry
  enough : q.options.threshold ≤ q.score ⟨entry.x, entry.y⟩

/-- How often a remembered place is looked at: once if there is one and the template fits. -/
def looks (q : Quest) (c : LocationCache) : Nat :=
  if q.options.useCache ∧ q.template.Fits q.source ∧ (q.remembered c).isSome then 1 else 0

variable {q : Quest} {c : LocationCache}

theorem get_fst (q : Quest) (c : LocationCache) :
    (c.get q.key q.clock.now).1 = q.remembered c := by
  rw [LocationCache.get, remembered]
  split
  next unknown => simp [unknown]
  next entry known =>
    rw [known, Option.filter]
    split
    next old => simp [old]
    next live => simp [live]

theorem reopened_recalls {entry : CachedLocation} (recalls : q.Recalls c entry) :
    ∃ during, q.reopened c = (during,
      .inl (SearchState.offer {} ⟨⟨entry.x, entry.y⟩, q.score ⟨entry.x, entry.y⟩⟩)) := by
  have known : c.get q.key q.clock.now = (some entry, (c.get q.key q.clock.now).2) :=
    Prod.ext ((get_fst q c).trans recalls.known) rfl
  rw [reopened, if_pos recalls.useCache, LocationCache.revisit, known]
  exact ⟨_, if_pos recalls.enough⟩

/-- A search begins with nothing but the count of the look at a remembered place. -/
theorem reopened_searches (fits : q.template.Fits q.source) (fresh : ∀ entry, ¬ q.Recalls c entry) :
    ∃ during, q.reopened c = (during, .inr { evaluations := q.looks c }) := by
  rw [reopened]
  split
  next useCache =>
    rcases known : q.remembered c with _ | entry
    · have unknown : c.get q.key q.clock.now = (none, (c.get q.key q.clock.now).2) :=
        Prod.ext ((get_fst q c).trans known) rfl
      rw [LocationCache.revisit, unknown]
      simp [looks, known]
    · have live : c.get q.key q.clock.now = (some entry, (c.get q.key q.clock.now).2) :=
        Prod.ext ((get_fst q c).trans known) rfl
      have low : ¬ q.options.threshold ≤ q.score ⟨entry.x, entry.y⟩ :=
        fun enough => fresh entry ⟨fits, useCache, known, enough⟩
      have once : q.looks c = 1 := by simp [looks, useCache, fits, known]
      rw [LocationCache.revisit, live, once]
      exact ⟨_, if_neg low⟩
  next useCache => exact ⟨c, by simp [looks, useCache]⟩

/-! ### The three ways in which a call ends, told by the memory -/

theorem result_tooLarge (large : ¬ q.template.Fits q.source) :
    (q.finding c).result =
      .ofOutcome q.template (SearchState.finish {} q.options.threshold .outOfBounds) := by
  have outside := mt fits_iff.mpr large
  rw [finding_eq, if_pos (by omega)]

theorem result_recalled {entry : CachedLocation} (recalls : q.Recalls c entry) :
    (q.finding c).result =
      { found := true, x := entry.x, y := entry.y, width := q.template.width
        height := q.template.height, score := q.score ⟨entry.x, entry.y⟩, phase := .cache
        evaluations := 1, timedOut := false } := by
  have inside := fits_iff.mp recalls.fits
  obtain ⟨during, opened⟩ := reopened_recalls recalls
  rw [finding_eq, if_neg (by omega), opened]
  simp [MatchResult.ofOutcome, SearchState.finish, SearchState.offer, SearchState.sufficient,
    recalls.enough]

theorem result_searched (fits : q.template.Fits q.source) (fresh : ∀ entry, ¬ q.Recalls c entry) :
    (q.finding c).result =
      .ofOutcome q.template (q.task.run q.bounds q.hint { evaluations := q.looks c }) := by
  have inside := fits_iff.mp fits
  obtain ⟨during, opened⟩ := reopened_searches fits fresh
  rw [finding_eq, if_neg (by omega), opened]

/-! ### The call without a memory -/

/-- The same call that does not ask the memory, at another time. -/
def forgetful (q : Quest) (clock : Stopwatch) : Quest :=
  { q with clock, options := { q.options with useCache := false } }

theorem forgetful_fresh (clock : Stopwatch) (entry : CachedLocation) :
    ¬ (q.forgetful clock).Recalls c entry := fun recalls => by cases recalls.useCache

theorem task_never (intime : ∀ check, q.clock.elapsed check < q.options.timeoutMs.toNat)
    (check : Nat) : q.task.expired check = false :=
  decide_eq_false (Nat.not_le_of_lt (intime check))

/-- Two searches that never run out of time have the same task. -/
theorem task_forgetful {clock : Stopwatch}
    (intime : ∀ check, q.clock.elapsed check < q.options.timeoutMs.toNat)
    (intime' : ∀ check, clock.elapsed check < q.options.timeoutMs.toNat) :
    (q.forgetful clock).task = q.task := by
  have same : (q.forgetful clock).task.expired = q.task.expired := by
    funext check
    rw [task_never intime, task_never (q := q.forgetful clock) intime']
  change (⟨q.score, q.options.threshold, (q.forgetful clock).task.expired⟩ : SearchTask Float) =
    q.task
  rw [same]
  rfl

/-- With enough time a call that asks the memory answers with the remembered place, after one look,
or it answers as a call that does not ask the memory; then a look at a remembered place that does not
do any more is counted, and nothing else is different. -/
theorem memory_transparent (q : Quest) (c : LocationCache) (clock : Stopwatch)
    (useCache : q.options.useCache = true)
    (intime : ∀ check, q.clock.elapsed check < q.options.timeoutMs.toNat)
    (intime' : ∀ check, clock.elapsed check < q.options.timeoutMs.toNat) :
    (∃ entry, q.Recalls c entry ∧ (q.finding c).result =
      { found := true, x := entry.x, y := entry.y, width := q.template.width
        height := q.template.height, score := q.score ⟨entry.x, entry.y⟩, phase := .cache
        evaluations := 1, timedOut := false }) ∨
    ((∀ entry, ¬ q.Recalls c entry) ∧ (q.finding c).result =
      ((q.forgetful clock).finding c).result.counting
        (if q.template.Fits q.source ∧ (q.remembered c).isSome then 1 else 0)) := by
  by_cases recalled : ∃ entry, q.Recalls c entry
  · obtain ⟨entry, recalls⟩ := recalled
    exact .inl ⟨entry, recalls, result_recalled recalls⟩
  have fresh : ∀ entry, ¬ q.Recalls c entry := fun entry recalls => recalled ⟨entry, recalls⟩
  have counted : q.looks c =
      if q.template.Fits q.source ∧ (q.remembered c).isSome then 1 else 0 := by
    simp [looks, useCache]
  rw [← counted]
  refine .inr ⟨fresh, ?_⟩
  by_cases fits : q.template.Fits q.source
  · have ahead : SearchState.Ahead (q.looks c) { evaluations := q.looks c }
        ({ evaluations := (q.forgetful clock).looks c } : SearchState Float) :=
      ⟨rfl, (Nat.zero_add _).symm, rfl, rfl⟩
    obtain ⟨pauses, same⟩ := ahead.run q.task q.bounds q.hint
    have plain : ((q.forgetful clock).finding c).result = .ofOutcome q.template
        (q.task.run q.bounds q.hint { evaluations := (q.forgetful clock).looks c }) := by
      rw [← task_forgetful intime intime']
      exact result_searched fits (forgetful_fresh clock)
    rw [result_searched fits fresh, same, plain]
    rfl
  · have none : q.looks c = 0 := by simp [looks, fits]
    rw [none, result_tooLarge fits, result_tooLarge (q := q.forgetful clock) fits]
    rfl

/-- A dot was found at the right of a row and has moved to the left. -/
theorem memory_transparent_moved :
    let dot : Frame := ⟨1, 1, .gray, #[200]⟩
    let c := ((LocationCache.empty 32 300000).findTemplate (.still 0) ⟨2, 1, .gray, #[10, 200]⟩ dot
      { cropLocation := some ⟨1, 0⟩ }).cache
    let q : Quest := ⟨.still 0, ⟨2, 1, .gray, #[200, 10]⟩, dot, {}⟩
    q.options.useCache = true ∧ (∀ check, q.clock.elapsed check < q.options.timeoutMs.toNat) ∧
      (q.finding c).result = ((q.forgetful (.still 0)).finding c).result.counting 1 := by
  intro dot c q
  have time : 0 < (10000 : UInt64).toNat := by decide
  have intime : ∀ check, q.clock.elapsed check < q.options.timeoutMs.toNat := fun _ => time
  refine ⟨rfl, intime, ?_⟩
  rcases memory_transparent q c (.still 0) rfl intime intime with ⟨entry, _, recalled⟩ | ⟨_, same⟩
  · have other : (q.finding c).result.phase ≠ .cache := by decide +kernel
    exact absurd (congrArg MatchResult.phase recalled) other
  · have looked : q.template.Fits q.source ∧ (q.remembered c).isSome := by decide +kernel
    rwa [if_pos looked] at same

/-! ### The call without time -/

theorem task_spent (spent : q.options.timeoutMs = 0) (check : Nat) : q.task.expired check = true := by
  simp [task, spent]

/-- The clock does not end the search: the call has no time at all, or enough of it. -/
def Untimed (q : Quest) : Prop :=
  q.options.timeoutMs = 0 ∨ ∀ check, q.clock.elapsed check < q.options.timeoutMs.toNat

theorem Untimed.expired {q' : Quest} (untimed : q.Untimed) (untimed' : q'.Untimed)
    (options : q'.options = q.options) : q'.task.expired = q.task.expired := by
  funext check
  rcases untimed with spent | intime
  · rw [task_spent spent, task_spent (by rw [options, spent])]
  rcases untimed' with spent | intime'
  · have none := intime check
    rw [← options, spent] at none
    exact absurd none (Nat.not_lt_zero _)
  · rw [task_never intime, task_never intime']

/-- A search without time finds nothing and reports no score. -/
theorem searched_spent (spent : q.options.timeoutMs = 0) (fits : q.template.Fits q.source)
    (fresh : ∀ entry, ¬ q.Recalls c entry) :
    (q.finding c).result.found = false ∧ (q.finding c).result.score = 0.0 := by
  obtain ⟨wide, high⟩ := fits_iff.mp fits
  obtain ⟨found, best⟩ := SearchTask.run_spent (task_spent spent) wide high q.hint
    ({ evaluations := q.looks c } : SearchState Float)
  rw [result_searched fits fresh]
  refine ⟨found, ?_⟩
  rw [MatchResult.ofOutcome, best]
  rfl

theorem tooLarge_missed (large : ¬ q.template.Fits q.source) :
    (q.finding c).result.found = false ∧ (q.finding c).result.score = 0.0 := by
  rw [result_tooLarge large]
  exact ⟨rfl, rfl⟩

/-- Without time the matcher finds a template exactly if it remembers a place that still does: the
clock is not looked at before the remembered place is. -/
theorem found_spent_iff (q : Quest) (c : LocationCache) (spent : q.options.timeoutMs = 0) :
    ((q.finding c).result.found = true ↔ ∃ entry, q.Recalls c entry) ∧
      ((q.finding c).result.found = true → (q.finding c).result.phase = .cache) := by
  by_cases recalled : ∃ entry, q.Recalls c entry
  · obtain ⟨entry, recalls⟩ := recalled
    rw [result_recalled recalls]
    exact ⟨⟨fun _ => ⟨entry, recalls⟩, fun _ => rfl⟩, fun _ => rfl⟩
  have fresh : ∀ entry, ¬ q.Recalls c entry := fun entry recalls => recalled ⟨entry, recalls⟩
  have missed : (q.finding c).result.found = false := by
    by_cases fits : q.template.Fits q.source
    · exact (searched_spent spent fits fresh).1
    · exact (tooLarge_missed fits).1
  rw [missed]
  exact ⟨⟨fun found => absurd found Bool.false_ne_true, fun recalls => absurd recalls recalled⟩,
    fun found => absurd found Bool.false_ne_true⟩

/-- A dot that was found is found again without time. -/
theorem found_spent_iff_again :
    let row : Frame := ⟨2, 1, .gray, #[10, 200]⟩
    let dot : Frame := ⟨1, 1, .gray, #[200]⟩
    let c := ((LocationCache.empty 32 300000).findTemplate (.still 0) row dot {}).cache
    let q : Quest := ⟨.still 0, row, dot, { timeoutMs := 0 }⟩
    q.options.timeoutMs = 0 ∧ ∃ entry, q.Recalls c entry := by
  intro row dot c q
  have found : (q.finding c).result.found = true := by decide +kernel
  exact ⟨rfl, (found_spent_iff q c rfl).1.mp found⟩

/-- The same dot as the matcher answers it: found, although no time was given. -/
theorem found_without_time :
    let row : Frame := ⟨2, 1, .gray, #[10, 200]⟩
    let dot : Frame := ⟨1, 1, .gray, #[200]⟩
    let c := ((LocationCache.empty 32 300000).findTemplate (.still 0) row dot {}).cache
    (c.findTemplate (.still 0) row dot { timeoutMs := 0 }).result.found = true := by
  decide +kernel

end Quest

end Screenplay
