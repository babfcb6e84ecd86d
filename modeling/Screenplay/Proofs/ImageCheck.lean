import Screenplay.Device.Desktop
import Screenplay.Proofs.Remembering
import Screenplay.Stage.Judgement

/-!
One image check in two uses. As a task it succeeds if the template was found; as a condition it holds
if the score reaches the threshold. The two agree unless the call of the matcher ends without a place
that its score belongs to: the score is 0 then, and a threshold of 0 is reached by it.
-/
namespace Screenplay

namespace Quest

/-- The call ends without a place: the template is too large for the source, or there is no time to
look for it and no remembered place that still does. -/
def Blank (q : Quest) (c : LocationCache) : Prop :=
  ¬ q.template.Fits q.source ∨ (q.options.timeoutMs = 0 ∧ ∀ entry, ¬ q.Recalls c entry)

variable {q : Quest} {c : LocationCache}

theorem blank_missed (blank : q.Blank c) :
    (q.finding c).result.found = false ∧ (q.finding c).result.score = 0.0 := by
  by_cases fits : q.template.Fits q.source
  · rcases blank with large | ⟨spent, fresh⟩
    · exact absurd fits large
    · exact searched_spent spent fits fresh
  · exact tooLarge_missed fits

/-- A search with enough time has found the template if the score reaches the threshold. -/
theorem searched_found (intime : ∀ check, q.clock.elapsed check < q.options.timeoutMs.toNat)
    (fits : q.template.Fits q.source) (fresh : ∀ entry, ¬ q.Recalls c entry) :
    (q.finding c).result.found = decide (q.options.threshold ≤ (q.finding c).result.score) := by
  have never : ∀ check, q.task.expired check = false :=
    fun check => decide_eq_false (Nat.not_le_of_lt (intime check))
  have inside : SearchState.Inside q.bounds ({ evaluations := q.looks c } : SearchState Float) :=
    fun candidate best => by cases best
  obtain ⟨wide, high⟩ := fits_iff.mp fits
  obtain ⟨candidate, best, found⟩ := SearchTask.run_intime never wide high q.hint inside
  rw [result_searched fits fresh]
  simp only [MatchResult.ofOutcome, found, best]
  rfl

/-- A call that ends with a place has found the template if the score there reaches the
threshold. -/
theorem found_eq (untimed : q.Untimed) (seen : ¬ q.Blank c) :
    (q.finding c).result.found = decide (q.options.threshold ≤ (q.finding c).result.score) := by
  by_cases recalled : ∃ entry, q.Recalls c entry
  · obtain ⟨entry, recalls⟩ := recalled
    rw [result_recalled recalls]
    exact (decide_eq_true recalls.enough).symm
  have fresh : ∀ entry, ¬ q.Recalls c entry := fun entry recalls => recalled ⟨entry, recalls⟩
  have fits : q.template.Fits q.source := Decidable.not_not.mp fun large => seen (.inl large)
  rcases untimed with spent | intime
  · exact absurd (.inr ⟨spent, fresh⟩) seen
  · exact searched_found intime fits fresh

end Quest

namespace ImageCheck

/-- The least score that counts as found. -/
def leastScore (check : ImageCheck) : Float :=
  check.threshold.getD ({} : SearchOptions).threshold

/-- How long the check looks for its template. -/
def budgetMs (check : ImageCheck) : UInt64 :=
  check.timeoutMs.getD ({} : SearchOptions).timeoutMs

end ImageCheck

namespace Scene

/-- The call of the matcher for a check. -/
def quest (s : Scene) (check : ImageCheck) (frame : Frame) (template : Template) : Quest :=
  ⟨s.clock s.searches, frame, template.frame, searchOptions check template⟩

/-- What the look at the screen comes to, if it shows something and the template is known. -/
def reading (s : Scene) (check : ImageCheck) : Option ImageReading :=
  match s.capture with
  | (.error _, _) => none
  | (.ok frame, s) => (s.matchImage check frame).result.toOption

/-- The clock does not end the search for the check: it has no time at all, or enough of it. -/
def Untimed (s : Scene) (check : ImageCheck) : Prop :=
  check.budgetMs = 0 ∨ ∀ tick, (s.clock s.searches).elapsed tick < check.budgetMs.toNat

/-- The look at the screen ends without a place. -/
def Blank (s : Scene) (check : ImageCheck) : Prop :=
  ∃ frame template, s.capture.1 = .ok frame ∧ s.templates.lookup check.template = some template ∧
    (s.quest check frame template).Blank s.cache

variable {s : Scene} {check : ImageCheck} {frame : Frame} {template : Template}

theorem blank_iff (captured : s.capture.1 = .ok frame)
    (known : s.templates.lookup check.template = some template) :
    s.Blank check ↔ (s.quest check frame template).Blank s.cache := by
  constructor
  · rintro ⟨frame', template', captured', known', blank⟩
    cases captured.symm.trans captured'
    cases known.symm.trans known'
    exact blank
  · exact fun blank => ⟨frame, template, captured, known, blank⟩

theorem reading_known (captured : s.capture.1 = .ok frame)
    (known : s.templates.lookup check.template = some template) :
    s.reading check = some
      { success := ((s.quest check frame template).finding s.cache).result.found
        score := ((s.quest check frame template).finding s.cache).result.score
        threshold := check.leastScore
        result := ((s.quest check frame template).finding s.cache).result } := by
  have shown : s.capture = (.ok frame, { s with screen := s.capture.2.screen }) :=
    Prod.ext captured rfl
  rw [reading, shown]
  simp only [matchImage, known]
  rfl

/-- Nothing is read from a screen that shows nothing, and nothing of a template that is not
known. -/
theorem reading_cases (s : Scene) (check : ImageCheck) :
    (s.reading check = none ∧ ¬ s.Blank check) ∨
      ∃ frame template, s.capture.1 = .ok frame ∧
        s.templates.lookup check.template = some template := by
  rcases captured : s.capture.1 with error | frame
  · have shown : s.capture = (.error error, s.capture.2) := Prod.ext captured rfl
    refine .inl ⟨by rw [reading, shown], ?_⟩
    rintro ⟨frame, template, captured', _⟩
    cases captured.symm.trans captured'
  rcases known : s.templates.lookup check.template with _ | template
  · have shown : s.capture = (.ok frame, { s with screen := s.capture.2.screen }) :=
      Prod.ext captured rfl
    refine .inl ⟨?_, ?_⟩
    · rw [reading, shown]
      simp only [matchImage, known]
      rfl
    · rintro ⟨frame', template, _, known', _⟩
      cases known.symm.trans known'
  · exact .inr ⟨frame, template, rfl, rfl⟩

end Scene

/-- A task succeeded: it could be run, and its outcome says so. -/
def succeeded : Except String Outcome → Bool
  | .ok outcome => outcome.success
  | .error _ => false

/-- The condition that an image is there, without a comparison of its own. -/
def ImageCheck.condition (check : ImageCheck) : Condition := ⟨.image check, none, none⟩

section
variable {ε : Type} {e : Executor ε} {actor : ε} {desktop : Desktop} {s : Scene}
  {check : ImageCheck}

theorem Executor.judge_image (ordinary : e.matchImage = Executor.matchInScene) :
    (e.judge check.condition ⟨actor, s⟩).result =
      (s.reading check).any fun r => decide (r.threshold ≤ r.score) := by
  simp only [judge, assess, ImageCheck.condition, ordinary, Scene.reading]
  rcases s.capture with ⟨error | frame, s⟩
  · rfl
  · simp only [matchInScene, Reply.mapWorld]
    rcases (s.matchImage check frame).result with message | reading <;> rfl

theorem Desktop.imageMatch_succeeded :
    succeeded (perform (.imageMatch check) ⟨desktop, s⟩).result =
      (s.reading check).any fun r => r.success := by
  simp only [perform, matchOnScreen, Scene.reading]
  rcases s.capture with ⟨error | frame, s⟩
  · rfl
  · simp only [Executor.matchInScene, Reply.mapWorld]
    rcases (s.matchImage check frame).result with message | reading
    · rfl
    · cases found : reading.success <;>
        simp [found, succeeded, Outcome.ok, Outcome.failed, Except.toOption]

/-- Both uses leave the same scene behind. -/
theorem Executor.judge_image_scene (ordinary : e.matchImage = Executor.matchInScene) :
    (e.judge check.condition ⟨actor, s⟩).world.scene =
      (Desktop.perform (.imageMatch check) ⟨desktop, s⟩).world.scene := by
  simp only [judge, assess, ImageCheck.condition, ordinary, Desktop.perform, Desktop.matchOnScreen]
  rcases s.capture with ⟨error | frame, s⟩ <;> rfl

end

namespace Executor

/-- Unless the clock ends the search, a condition on an image holds exactly if the task that looks for
the same image succeeds, except where the look ends without a place and the threshold is not above the
score of 0 that is reported then: the condition holds and the task fails. Both leave the same scene
behind. -/
theorem judge_image_iff {ε : Type} (e : Executor ε)
    (ordinary : e.matchImage = Executor.matchInScene) (actor : ε) (desktop : Desktop) {s : Scene}
    {check : ImageCheck} (untimed : s.Untimed check) :
    (¬ (s.Blank check ∧ check.leastScore ≤ 0.0) →
      ((e.judge check.condition ⟨actor, s⟩).result = true ↔
        succeeded (Desktop.perform (.imageMatch check) ⟨desktop, s⟩).result = true)) ∧
    (s.Blank check ∧ check.leastScore ≤ 0.0 →
      (e.judge check.condition ⟨actor, s⟩).result = true ∧
        succeeded (Desktop.perform (.imageMatch check) ⟨desktop, s⟩).result = false) ∧
    (e.judge check.condition ⟨actor, s⟩).world.scene =
      (Desktop.perform (.imageMatch check) ⟨desktop, s⟩).world.scene := by
  rw [judge_image ordinary, Desktop.imageMatch_succeeded]
  refine ⟨fun regular => ?_, fun ⟨blank, low⟩ => ?_, judge_image_scene ordinary⟩
  · rcases s.reading_cases check with ⟨unread, _⟩ | ⟨frame, template, captured, known⟩
    · simp [unread]
    rw [Scene.reading_known captured known]
    by_cases blank : (s.quest check frame template).Blank s.cache
    · have high : ¬ check.leastScore ≤ 0.0 :=
        fun low => regular ⟨(Scene.blank_iff captured known).mpr blank, low⟩
      obtain ⟨missed, score⟩ := Quest.blank_missed blank
      simp [missed, score, high]
    · have found := Quest.found_eq (q := s.quest check frame template) untimed blank
      rw [Option.any_some, Option.any_some, found]
      rfl
  · obtain ⟨frame, template, captured, known, blank⟩ := blank
    obtain ⟨missed, score⟩ := Quest.blank_missed blank
    rw [Scene.reading_known captured known]
    simp [missed, score, low]

/-- A row is looked for where only a dot is, for at most nine of ten seconds. -/
theorem judge_image_iff_row :
    let check : ImageCheck := ⟨"row", some 0.5, none, false, none, none⟩
    let s : Scene :=
      { screen := .still ⟨1, 1, .gray, #[10]⟩
        templates := [("row", ⟨⟨2, 1, .gray, #[10, 200]⟩, none⟩)]
        clock := fun _ => ⟨0, fun tick => min (tick * 1000) 9000, 9000⟩ }
    Desktop.executor.matchImage = Executor.matchInScene ∧ s.Untimed check ∧
      ((Desktop.executor.judge check.condition ⟨{ dryRun := true }, s⟩).result = true ↔
        succeeded (Desktop.perform (.imageMatch check) ⟨{ dryRun := true }, s⟩).result =
          true) := by
  intro check s
  have high : ¬ check.leastScore ≤ 0.0 := by decide +kernel
  have untimed : s.Untimed check :=
    .inr fun tick => Nat.lt_of_le_of_lt (Nat.min_le_right _ _) (by decide)
  exact ⟨rfl, untimed, (judge_image_iff Desktop.executor rfl _ _ untimed).1 fun ⟨_, low⟩ => high low⟩

/-- With a threshold of 0 the condition holds there, and the task fails. -/
theorem judge_image_tooLarge :
    let check : ImageCheck := ⟨"row", some 0.0, none, false, none, none⟩
    let s : Scene :=
      { screen := .still ⟨1, 1, .gray, #[10]⟩
        templates := [("row", ⟨⟨2, 1, .gray, #[10, 200]⟩, none⟩)] }
    Desktop.executor.matchImage = Executor.matchInScene ∧ s.Untimed check ∧
      ¬ ((Desktop.executor.judge check.condition ⟨{ dryRun := true }, s⟩).result = true ↔
        succeeded (Desktop.perform (.imageMatch check) ⟨{ dryRun := true }, s⟩).result =
          true) :=
  ⟨rfl, .inr fun _ => (by decide : 0 < (10000 : UInt64).toNat), by decide +kernel⟩

end Executor

end Screenplay
