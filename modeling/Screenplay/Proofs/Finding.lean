import Screenplay.Matching.Matcher
import Screenplay.Proofs.Search

/-!
What finding a template comes to: it is too large for the source, it is where it was found before,
or it is searched for. A search reports only places inside the source. A place that is remembered
was found in another source and may lie outside of this one; there its score is 0.
-/
namespace Screenplay

/-- The template is not larger than the source. -/
def Frame.Fits (template source : Frame) : Prop :=
  template.width.toNat ≤ source.width.toNat ∧ template.height.toNat ≤ source.height.toNat

/-- The template placed here lies inside the source. -/
def Frame.InsideAt (template source : Frame) (x y : Int) : Prop :=
  0 ≤ x ∧ 0 ≤ y ∧ x + template.width.toNat ≤ source.width.toNat ∧
    y + template.height.toNat ≤ source.height.toNat

instance (template source : Frame) (x y : Int) : Decidable (template.InsideAt source x y) :=
  inferInstanceAs (Decidable (_ ∧ _ ∧ _ ∧ _))

theorem comparable_width (frame : Frame) (colorInvariant : Bool) :
    (comparable frame colorInvariant).width = frame.width.toNat := by
  cases colorInvariant <;> rfl

theorem comparable_height (frame : Frame) (colorInvariant : Bool) :
    (comparable frame colorInvariant).height = frame.height.toNat := by
  cases colorInvariant <;> rfl

namespace PreparedTemplate

theorem ofGray_gray (gray : GrayBuffer) : (ofGray gray).gray = gray := rfl

theorem scoreAt_outside {t : PreparedTemplate} {source : GrayBuffer} {x y : Int}
    (outside : t.fitsAt source x y = false) : t.scoreAt source x y = 0.0 := by
  rw [scoreAt, outside]
  rfl

end PreparedTemplate

/-- What one call of the matcher looks for. -/
structure Quest where
  clock : Stopwatch
  source : Frame
  template : Frame
  options : SearchOptions

namespace Quest

/-- The source as it is compared. -/
def compared (q : Quest) : GrayBuffer := comparable q.source q.options.colorInvariant

/-- The template as it is compared. -/
def prepared (q : Quest) : PreparedTemplate :=
  .ofGray (comparable q.template q.options.colorInvariant)

/-- The key under which the template is remembered. -/
def key (q : Quest) : UInt64 := q.prepared.gray.contentHash

/-- The score of the template at a place. -/
def score (q : Quest) (o : Offset) : Float :=
  q.prepared.scoreAt (comparable q.source q.options.colorInvariant) o.x o.y

def bounds (q : Quest) : Bounds :=
  ⟨(q.source.width.toNat : Int) - q.template.width.toNat,
    (q.source.height.toNat : Int) - q.template.height.toNat⟩

def task (q : Quest) : SearchTask Float where
  score := q.score
  threshold := q.options.threshold
  expired check := decide (q.options.timeoutMs.toNat ≤ q.clock.elapsed check)

def hint (q : Quest) : Option Offset :=
  q.options.cropLocation.map fun p => ⟨p.x.toInt, p.y.toInt⟩

/-- The look at the remembered place, if it is asked for. -/
def reopened (q : Quest) (c : LocationCache) :
    LocationCache × (SearchState Float ⊕ SearchState Float) :=
  if q.options.useCache then c.revisit q.key q.task q.clock.now else (c, .inr {})

def finding (q : Quest) (c : LocationCache) : Finding :=
  c.findTemplate q.clock q.source q.template q.options

variable {q : Quest} {c : LocationCache}

theorem fits_iff : q.template.Fits q.source ↔ 0 ≤ q.bounds.maxX ∧ 0 ≤ q.bounds.maxY := by
  simp only [Frame.Fits, bounds]
  omega

theorem contains_iff {o : Offset} :
    q.bounds.Contains o ↔ q.template.InsideAt q.source o.x o.y := by
  simp only [Bounds.Contains, bounds, Frame.InsideAt]
  omega

/-- The template fits at a place if it lies inside the source there. -/
theorem fitsAt_iff {o : Offset} :
    q.prepared.fitsAt q.compared o.x o.y = true ↔ q.template.InsideAt q.source o.x o.y := by
  simp [PreparedTemplate.fitsAt, PreparedTemplate.width, PreparedTemplate.height, prepared, compared,
    PreparedTemplate.ofGray_gray, comparable_width, comparable_height, and_assoc, Frame.InsideAt]

/-- Where the template would leave the source its score is 0. -/
theorem score_outside {o : Offset} (outside : ¬ q.template.InsideAt q.source o.x o.y) :
    q.score o = 0.0 := by
  apply PreparedTemplate.scoreAt_outside
  rw [← Bool.not_eq_true]
  exact mt fitsAt_iff.mp outside

end Quest

/-- The three ways in which a call of the matcher ends. -/
inductive Quest.Comes (q : Quest) (c : LocationCache) : Finding → Prop where
  | tooLarge (large : ¬ q.template.Fits q.source) :
    Comes q c
      { result := .ofOutcome q.template (SearchState.finish {} q.options.threshold .outOfBounds)
        pauses := 0, during := c, cache := c }
  | revisited {during hit} (fits : q.template.Fits q.source)
    (opened : q.reopened c = (during, .inl hit)) :
    Comes q c
      { result := .ofOutcome q.template (hit.finish q.options.threshold .cache)
        pauses := hit.pauses, during, cache := during }
  | searched {during start result} (fits : q.template.Fits q.source)
    (opened : q.reopened c = (during, .inr start))
    (same : result = .ofOutcome q.template (q.task.run q.bounds q.hint start)) :
    Comes q c
      { result, pauses := (q.task.run q.bounds q.hint start).pauses, during
        cache :=
          if result.found then during.insert q.key result.x result.y q.clock.ended else during }

namespace Quest

variable {q : Quest} {c : LocationCache}

/-- A call of the matcher in its parts. -/
theorem finding_eq (q : Quest) (c : LocationCache) :
    q.finding c =
      if q.bounds.maxX < 0 ∨ q.bounds.maxY < 0 then
        { result := .ofOutcome q.template (SearchState.finish {} q.options.threshold .outOfBounds)
          pauses := 0, during := c, cache := c }
      else
        match q.reopened c with
        | (during, .inl hit) =>
          { result := .ofOutcome q.template (hit.finish q.options.threshold .cache)
            pauses := hit.pauses, during, cache := during }
        | (during, .inr start) =>
          let result := .ofOutcome q.template (q.task.run q.bounds q.hint start)
          { result, pauses := (q.task.run q.bounds q.hint start).pauses, during
            cache :=
              if result.found then during.insert q.key result.x result.y q.clock.ended
              else during } := by
  rcases q with ⟨clock, source, template, ⟨threshold, timeoutMs, useCache, cropLocation, colour⟩⟩
  cases colour <;> rfl

theorem finding_comes (q : Quest) (c : LocationCache) : q.Comes c (q.finding c) := by
  rw [finding_eq]
  by_cases fits : q.template.Fits q.source
  · have inside := fits_iff.mp fits
    rw [if_neg (by omega)]
    rcases opened : q.reopened c with ⟨during, hit | start⟩
    · exact .revisited fits opened
    · exact .searched fits opened rfl
  · have outside := mt fits_iff.mpr fits
    rw [if_pos (by omega)]
    exact .tooLarge fits

/-- A remembered place that does is one whose score reaches the threshold. -/
theorem reopened_hit {during : LocationCache} {hit : SearchState Float}
    (opened : q.reopened c = (during, .inl hit)) :
    q.options.useCache = true ∧ ∃ entry, c.get q.key q.clock.now = (some entry, during) ∧
      q.options.threshold ≤ q.score ⟨entry.x, entry.y⟩ ∧
      hit = SearchState.offer {} ⟨⟨entry.x, entry.y⟩, q.score ⟨entry.x, entry.y⟩⟩ := by
  rw [reopened] at opened
  split at opened
  next useCache =>
    refine ⟨useCache, ?_⟩
    rw [LocationCache.revisit] at opened
    split at opened
    next => cases opened
    next entry touched known =>
      simp only at opened
      split at opened
      next enough =>
        cases opened
        exact ⟨entry, known, enough, rfl⟩
      next => cases opened
  next => cases opened

/-- A search starts without a candidate. -/
theorem reopened_start {during : LocationCache} {start : SearchState Float}
    (opened : q.reopened c = (during, .inr start)) : start.best = none := by
  rw [reopened] at opened
  split at opened
  · rw [LocationCache.revisit] at opened
    split at opened
    · cases opened
      rfl
    · simp only at opened
      split at opened
      · cases opened
      · cases opened
        rfl
  · cases opened
    rfl

theorem start_inside {during : LocationCache} {start : SearchState Float}
    (opened : q.reopened c = (during, .inr start)) : start.Inside q.bounds := by
  intro candidate best
  rw [reopened_start opened] at best
  cases best

/-- A place that is remembered and does is what the call reports. -/
theorem revisited_eq {entry : CachedLocation} {during : LocationCache}
    (fits : q.template.Fits q.source) (useCache : q.options.useCache = true)
    (known : c.get q.key q.clock.now = (some entry, during))
    (enough : q.options.threshold ≤ q.score ⟨entry.x, entry.y⟩) :
    (q.finding c).result.found = true ∧ (q.finding c).result.x = entry.x ∧
      (q.finding c).result.y = entry.y := by
  have opened : q.reopened c = (during,
      .inl (SearchState.offer {} ⟨⟨entry.x, entry.y⟩, q.score ⟨entry.x, entry.y⟩⟩)) := by
    simp only [reopened, useCache, if_true, LocationCache.revisit, known]
    exact if_pos enough
  have inside := fits_iff.mp fits
  rw [finding_eq, if_neg (by omega), opened]
  refine ⟨?_, rfl, rfl⟩
  simpa [MatchResult.ofOutcome, SearchState.finish, SearchState.offer, SearchState.sufficient]
    using enough

/-- What a search finds lies inside the source. -/
theorem searched_inside {during : LocationCache} {start : SearchState Float}
    (opened : q.reopened c = (during, .inr start))
    (found : (q.task.run q.bounds q.hint start).found = true) :
    q.template.InsideAt q.source
      (MatchResult.ofOutcome q.template (q.task.run q.bounds q.hint start)).x
      (MatchResult.ofOutcome q.template (q.task.run q.bounds q.hint start)).y := by
  obtain ⟨s, phase, run, inside⟩ := SearchTask.run_inside q.hint (start_inside opened)
  rw [run] at found ⊢
  rcases best : s.best with _ | candidate
  · simp [SearchState.finish, SearchState.sufficient, best] at found
  · have contained := contains_iff.mp (inside candidate best)
    simpa [MatchResult.ofOutcome, SearchState.finish, best] using contained

/-- The matcher reports a place outside the source exactly if it remembers one there and a score of
0, which such a place has, reaches the threshold. -/
theorem found_outside_iff (q : Quest) (c : LocationCache) :
    ((c.findTemplate q.clock q.source q.template q.options).result.found = true ∧
      ¬ q.template.InsideAt q.source
        (c.findTemplate q.clock q.source q.template q.options).result.x
        (c.findTemplate q.clock q.source q.template q.options).result.y) ↔
    q.template.Fits q.source ∧ q.options.useCache = true ∧ q.options.threshold ≤ 0.0 ∧
      ∃ entry, (c.get q.key q.clock.now).1 = some entry ∧
        ¬ q.template.InsideAt q.source entry.x entry.y := by
  change ((q.finding c).result.found = true ∧
    ¬ q.template.InsideAt q.source (q.finding c).result.x (q.finding c).result.y) ↔ _
  constructor
  · rintro ⟨found, outside⟩
    have comes := finding_comes q c
    generalize q.finding c = finding at comes found outside
    cases comes with
    | tooLarge => simp [MatchResult.ofOutcome, SearchState.finish, SearchState.sufficient] at found
    | revisited fits opened =>
      obtain ⟨useCache, entry, known, enough, rfl⟩ := reopened_hit opened
      change ¬ q.template.InsideAt q.source entry.x entry.y at outside
      rw [score_outside outside] at enough
      exact ⟨fits, useCache, enough, entry, by rw [known], outside⟩
    | searched fits opened same =>
      subst same
      exact absurd (searched_inside opened found) outside
  · rintro ⟨fits, useCache, low, entry, known, outside⟩
    have enough : q.options.threshold ≤ q.score ⟨entry.x, entry.y⟩ := by
      rw [score_outside outside]
      exact low
    obtain ⟨found, x, y⟩ := revisited_eq fits useCache (Prod.ext known rfl) enough
    rw [x, y]
    exact ⟨found, outside⟩

/-- A dot is found at the right of a row, and again in a source that is too narrow for the place. -/
theorem found_outside_remembered :
    let row : Frame := ⟨2, 1, .gray, #[10, 200]⟩
    let dot : Frame := ⟨1, 1, .gray, #[200]⟩
    let narrow : Frame := ⟨1, 1, .gray, #[10]⟩
    let c := ((LocationCache.empty 32 300000).findTemplate (.still 0) row dot
      { cropLocation := some ⟨1, 0⟩ }).cache
    let r := (c.findTemplate (.still 0) narrow dot { threshold := 0.0 }).result
    r.found = true ∧ ¬ dot.InsideAt narrow r.x r.y := by
  decide +kernel

/-- With enough time a template that fits is found exactly if the score that is reported reaches the
threshold. One that is too large is never found, and its score is 0. -/
theorem found_iff_enough (q : Quest) (c : LocationCache)
    (intime : ∀ check, q.clock.elapsed check < q.options.timeoutMs.toNat) :
    (q.template.Fits q.source →
      ((c.findTemplate q.clock q.source q.template q.options).result.found = true ↔
        q.options.threshold ≤ (c.findTemplate q.clock q.source q.template q.options).result.score)) ∧
    (¬ q.template.Fits q.source →
      (c.findTemplate q.clock q.source q.template q.options).result.found = false ∧
        (c.findTemplate q.clock q.source q.template q.options).result.score = 0.0) := by
  have never : ∀ check, q.task.expired check = false :=
    fun check => decide_eq_false (Nat.not_le_of_lt (intime check))
  change (_ → ((q.finding c).result.found = true ↔ _ ≤ (q.finding c).result.score)) ∧
    (_ → (q.finding c).result.found = false ∧ (q.finding c).result.score = 0.0)
  have comes := finding_comes q c
  generalize q.finding c = finding at comes
  cases comes with
  | tooLarge large =>
    refine ⟨fun fits => absurd fits large, fun _ => ⟨?_, rfl⟩⟩
    simp [MatchResult.ofOutcome, SearchState.finish, SearchState.sufficient]
  | revisited fits opened =>
    refine ⟨fun _ => ?_, absurd fits⟩
    obtain ⟨_, entry, _, _, rfl⟩ := reopened_hit opened
    simp [MatchResult.ofOutcome, SearchState.finish, SearchState.offer, SearchState.sufficient]
  | searched fits opened same =>
    refine ⟨fun _ => ?_, absurd fits⟩
    obtain ⟨wide, high⟩ := fits_iff.mp fits
    obtain ⟨candidate, best, found⟩ :=
      SearchTask.run_intime never wide high q.hint (start_inside opened)
    subst same
    simp only [MatchResult.ofOutcome, found, best, decide_eq_true_eq]
    exact Iff.rfl

/-- A dot that lies in a row. -/
theorem found_iff_enough_dot :
    let q : Quest := ⟨.still 0, ⟨2, 1, .gray, #[10, 200]⟩, ⟨1, 1, .gray, #[200]⟩, {}⟩
    let r := (q.finding (.empty 32 300000)).result
    (∀ check, q.clock.elapsed check < q.options.timeoutMs.toNat) ∧ q.template.Fits q.source ∧
      (r.found = true ↔ q.options.threshold ≤ r.score) := by
  intro q r
  have time : 0 < (10000 : UInt64).toNat := by decide
  have intime : ∀ check, q.clock.elapsed check < q.options.timeoutMs.toNat := fun _ => time
  have fits : q.template.Fits q.source := ⟨by decide, by decide⟩
  exact ⟨intime, fits, (found_iff_enough q (.empty 32 300000) intime).1 fits⟩

/-- A row is not found in a dot, although the score of 0 that is reported would do. -/
theorem not_found_tooLarge :
    let q : Quest :=
      ⟨.still 0, ⟨1, 1, .gray, #[10]⟩, ⟨2, 1, .gray, #[10, 200]⟩, { threshold := 0.0 }⟩
    let r := (q.finding (.empty 32 300000)).result
    (∀ check, q.clock.elapsed check < q.options.timeoutMs.toNat) ∧
      ¬ (r.found = true ↔ q.options.threshold ≤ r.score) := by
  intro q r
  have time : 0 < (10000 : UInt64).toNat := by decide
  exact ⟨fun _ => time, by decide +kernel⟩

end Quest

end Screenplay
