import Screenplay.Proofs.Comparing
import Screenplay.Proofs.Remembering

/-!
What a lower threshold changes. A search with a lower threshold goes the same way as one with a higher
threshold until it stops, and what it has found by then stays good enough, so it finds at least as much
with at most as many looks. A best candidate whose score is no number is never replaced; such a search
finds nothing with either threshold.
-/
namespace Screenplay

/-- The same search with another threshold. -/
def SearchTask.withThreshold {σ : Type} (t : SearchTask σ) (threshold : σ) : SearchTask σ :=
  { t with threshold }

/-- The score of the best candidate is no number. -/
def SearchState.Stuck {σ : Type} (number : σ → Prop) (s : SearchState σ) : Prop :=
  ∃ c, s.best = some c ∧ ¬ number c.score

/-- What going on does not undo. -/
structure SearchState.Before {σ : Type} (number : σ → Prop) (s s' : SearchState σ) : Prop where
  evaluations : s.evaluations ≤ s'.evaluations
  stuck : s.Stuck number → s'.Stuck number

/-- A search has stopped in time, because of a good score, and another one has gone on from there. -/
structure SearchState.Settled {σ : Type} [LE σ] [DecidableLE σ] (number : σ → Prop) (threshold : σ)
    (s s' : SearchState σ) : Prop where
  intime : s.timedOut = false
  stopped : s.sufficient threshold = true ∨ s.Stuck number
  before : s.Before number s'

/-- A search ends as another one does, or has stopped on the way there. -/
def SearchState.Coupled {σ : Type} [LE σ] [DecidableLE σ] (number : σ → Prop) (threshold : σ)
    (s s' : SearchState σ) : Prop :=
  s = s' ∨ s.Settled number threshold s'

variable {σ : Type} [LE σ] [LT σ] [DecidableLE σ] [DecidableLT σ] {number : σ → Prop}

namespace SearchState

variable {s s' : SearchState σ} {threshold higher : σ}

/-- The candidate that ends a search is the best one then, unless the best one is no number. -/
theorem offer_stopped (orders : OrdersNumbers number) (s : SearchState σ) {c : Candidate σ}
    (enough : threshold ≤ c.score) :
    (s.offer c).sufficient threshold = true ∨ (s.offer c).Stuck number := by
  rcases known : s.best with _ | d
  · simp [offer, sufficient, known, enough]
  by_cases better : d.score < c.score
  · simp [offer, sufficient, known, better, enough]
  by_cases isNumber : number d.score
  · have atLeast := orders.le_of_not_lt isNumber (orders.numbers enough).2 better
    have stays : threshold ≤ d.score := orders.trans enough atLeast
    simp [offer, sufficient, known, better, stays]
  · exact .inr ⟨d, by simp [offer, known, better], isNumber⟩

omit [DecidableLE σ] in
theorem Stuck.offer (orders : OrdersNumbers number) (stuck : s.Stuck number) (c : Candidate σ) :
    (s.offer c).Stuck number := by
  obtain ⟨d, known, noNumber⟩ := stuck
  have notLess : ¬ d.score < c.score :=
    fun less => noNumber (orders.numbers (orders.lt_iff.mp less).1).1
  exact ⟨d, by simp [SearchState.offer, known, notLess], noNumber⟩

omit [DecidableLT σ] in
theorem Stuck.insufficient (orders : OrdersNumbers number) (stuck : s.Stuck number) (threshold : σ) :
    s.sufficient threshold = false := by
  obtain ⟨c, known, noNumber⟩ := stuck
  have low : ¬ threshold ≤ c.score := fun le => noNumber (orders.numbers le).2
  simp [sufficient, known, low]

omit [DecidableLT σ] in
/-- What is good enough for the higher threshold is good enough for the lower one. -/
theorem sufficient_lowered (orders : OrdersNumbers number) (le : threshold ≤ higher)
    (enough : s.sufficient higher = true) : s.sufficient threshold = true := by
  unfold sufficient at *
  split at enough
  · cases enough
  · simp only [decide_eq_true_eq] at *
    exact orders.trans le enough

omit [DecidableLT σ] in
/-- A search that is coupled with another one has found what that one finds for a higher threshold. -/
theorem Coupled.finish (orders : OrdersNumbers number) (coupled : s.Coupled number threshold s')
    (le : threshold ≤ higher) {phase phase' : SearchPhase}
    (found : (s'.finish higher phase').found = true) :
    (s.finish threshold phase).found = true ∧
      (s.finish threshold phase).evaluations ≤ (s'.finish higher phase').evaluations := by
  simp only [SearchState.finish, Bool.and_eq_true] at found ⊢
  rcases coupled with rfl | settled
  · exact ⟨⟨found.1, sufficient_lowered orders le found.2⟩, Nat.le_refl _⟩
  refine ⟨⟨by rw [settled.intime]; rfl, ?_⟩, settled.before.evaluations⟩
  rcases settled.stopped with enough | stuck
  · exact enough
  · have insufficient := (settled.before.stuck stuck).insufficient orders higher
    rw [insufficient] at found
    cases found.2

end SearchState

namespace SearchTask

open SearchState (Before Settled)

variable {t : SearchTask σ} {higher : σ} {b : Bounds} {s : SearchState σ}

omit [DecidableLE σ] in
theorem keeps_before (orders : OrdersNumbers number) (t : SearchTask σ) (offsets : Offset → Prop)
    (s : SearchState σ) : t.Keeps offsets (s.Before number) where
  check s' before := by
    refine ⟨?_, fun stuck => ?_⟩
    · exact before.evaluations.trans_eq s'.rest_evaluations.symm
    · obtain ⟨c, known, noNumber⟩ := before.stuck stuck
      exact ⟨c, by rw [check_best, known], noNumber⟩
  offer o _ s' before :=
    ⟨Nat.le_succ_of_le before.evaluations, fun stuck => (before.stuck stuck).offer orders _⟩

/-- Goes through a list and, if that does not end the search, through the surroundings of the best
place. -/
def through (t : SearchTask σ) (b : Bounds) (order : List Offset) (s : SearchState σ) :
    SearchState σ :=
  match t.visit (fun _ => false) order s with
  | (s, true) => s
  | (s, false) => t.refine b s

theorem overGrid_fst (t : SearchTask σ) (b : Bounds) (s : SearchState σ) :
    (t.overGrid b s).1 = t.through b b.grid s := by
  unfold overGrid through
  rcases t.visit (fun _ => false) b.grid s with ⟨s', _ | _⟩ <;> rfl

theorem around_fst (t : SearchTask σ) (b : Bounds) (hint : Offset) (s : SearchState σ) :
    (t.around b hint s).1 =
      match t.visit (fun _ => false) (b.sweep hint) s with
      | (s, true) => s
      | (s, false) =>
        match s.best with
        | none => s
        | some c => t.through b (b.row c.offset) s := by
  unfold around through
  rcases t.visit (fun _ => false) (b.sweep hint) s with ⟨s', _ | _⟩
  · dsimp only
    rcases s'.best with _ | c
    · rfl
    · dsimp only
      rcases t.visit (fun _ => false) (b.row c.offset) s' with ⟨s'', _ | _⟩ <;> rfl
  · rfl

theorem Keeps.through {P : SearchState σ → Prop} (keeps : t.Keeps b.Contains P)
    {order : List Offset} (holds : P (t.visit (fun _ => false) order s).1) :
    P (t.through b order s) := by
  unfold SearchTask.through
  split
  next ended => rwa [ended] at holds
  next goesOn =>
    rw [goesOn] at holds
    exact keeps.refine holds

section
variable (orders : OrdersNumbers number) (never : ∀ check, t.expired check = false)
  (le : t.threshold ≤ higher)
include orders never le

/-- The two searches visit a list in the same way, or the one with the lower threshold stops. -/
theorem visit_lowered (known : Offset → Bool) (order : List Offset) (s : SearchState σ) :
    t.visit known order s = (t.withThreshold higher).visit known order s ∨
      ∃ stopped, t.visit known order s = (stopped, true) ∧
        stopped.Settled number t.threshold ((t.withThreshold higher).visit known order s).1 := by
  induction order generalizing s with
  | nil => exact .inl rfl
  | cons o rest ih =>
    have intime : (t.check s).timedOut = false := never _
    have same : (t.withThreshold higher).check s = t.check s := rfl
    have score : (t.withThreshold higher).score o = t.score o := rfl
    have threshold : (t.withThreshold higher).threshold = higher := rfl
    simp only [visit, same, score, threshold, intime, Bool.false_eq_true, if_false]
    split
    · exact ih _
    split
    next enough =>
      split
      · exact .inl rfl
      · refine .inr ⟨_, rfl, intime, SearchState.offer_stopped orders _ enough, ?_⟩
        exact (keeps_before orders _ (fun _ => True) _).visit (fun _ _ => trivial)
          ⟨Nat.le_refl _, fun stuck => stuck⟩
    next low =>
      rw [if_neg fun enough => low (orders.trans le enough)]
      exact ih _

theorem refine_lowered (b : Bounds) (s : SearchState σ) :
    (t.refine b s).Coupled number t.threshold ((t.withThreshold higher).refine b s) := by
  unfold refine
  split
  · exact .inl rfl
  next c _ =>
    rcases visit_lowered orders never le (· = c.offset) (b.surroundings c.offset) s with
      same | ⟨stopped, visited, settled⟩
    · exact .inl (congrArg Prod.fst same)
    · rw [visited]
      exact .inr settled

theorem through_lowered (b : Bounds) (order : List Offset) (s : SearchState σ) :
    (t.through b order s).Coupled number t.threshold
      ((t.withThreshold higher).through b order s) := by
  rcases visit_lowered orders never le (fun _ => false) order s with
    same | ⟨stopped, visited, settled⟩
  · unfold through
    rw [same]
    split
    · exact .inl rfl
    · exact refine_lowered orders never le b _
  · have stops : t.through b order s = stopped := by rw [through, visited]
    rw [stops]
    have before := (keeps_before orders _ b.Contains _).through settled.before
    exact .inr ⟨settled.intime, settled.stopped, before⟩

theorem around_lowered (hint : Offset) (inside : s.Inside b) :
    (t.around b hint s).1.Coupled number t.threshold
      ((t.withThreshold higher).around b hint s).1 := by
  rcases visit_lowered orders never le (fun _ => false) (b.sweep hint) s with
    same | ⟨stopped, visited, settled⟩
  · rw [around_fst, around_fst, same]
    split
    · exact .inl rfl
    split
    · exact .inl rfl
    · exact through_lowered orders never le b _ _
  · have stops : (t.around b hint s).1 = stopped := by rw [around_fst, visited]
    rw [stops]
    have before := (keeps_before orders _ b.Contains _).around inside settled.before
    exact .inr ⟨settled.intime, settled.stopped, before⟩

/-- A search finds with a lower threshold what it finds with a higher one, with at most as many
looks. -/
theorem run_lowered (hint : Option Offset) (inside : s.Inside b)
    (found : ((t.withThreshold higher).run b hint s).found = true) :
    (t.run b hint s).found = true ∧
      (t.run b hint s).evaluations ≤ ((t.withThreshold higher).run b hint s).evaluations := by
  cases hint with
  | none =>
    have coupled := through_lowered orders never le b b.grid s
    rw [← overGrid_fst, ← overGrid_fst] at coupled
    exact coupled.finish orders le found
  | some hint => exact (around_lowered orders never le hint inside).finish orders le found

end

theorem run_evaluations (orders : OrdersNumbers number) (t : SearchTask σ) (hint : Option Offset)
    (inside : s.Inside b) : s.evaluations ≤ (t.run b hint s).evaluations := by
  have keeps := keeps_before orders t b.Contains s
  have visited : s.Before number (t.visit (fun _ => false) (b.firstOrder hint) s).1 :=
    keeps.visit (fun _ => Bounds.contains_of_mem_firstOrder) ⟨Nat.le_refl _, fun stuck => stuck⟩
  obtain ⟨s', phase, run, before⟩ := keeps.run inside visited
  rw [run]
  exact before.evaluations

end SearchTask

namespace Quest

/-- The same call at the same time with another threshold. The clock may run differently meanwhile. -/
def demanding (q : Quest) (threshold : Float) (elapsed : Nat → Nat) : Quest :=
  { q with clock := { q.clock with elapsed }, options := { q.options with threshold } }

variable {q : Quest} {c : LocationCache} {higher : Float} {elapsed : Nat → Nat}

/-- A remembered place that does for the higher threshold does for the lower one. -/
theorem Recalls.lowered {entry : CachedLocation} (le : q.options.threshold ≤ higher)
    (recalls : (q.demanding higher elapsed).Recalls c entry) : q.Recalls c entry where
  fits := recalls.fits
  useCache := recalls.useCache
  known := recalls.known
  enough := float_orders.trans le recalls.enough

theorem task_demanding (intime : ∀ check, q.clock.elapsed check < q.options.timeoutMs.toNat)
    (intime' : ∀ check, elapsed check < q.options.timeoutMs.toNat) :
    (q.demanding higher elapsed).task = q.task.withThreshold higher := by
  have same : (q.demanding higher elapsed).task.expired = q.task.expired := by
    funext check
    rw [task_never intime, task_never (q := q.demanding higher elapsed) intime']
  change (⟨q.score, higher, (q.demanding higher elapsed).task.expired⟩ : SearchTask Float) = _
  rw [same]
  rfl

theorem start_empty_inside (b : Bounds) (evaluations : Nat) :
    ({ evaluations } : SearchState Float).Inside b := fun _ none => nomatch none

/-- What a call finds with one threshold, the same call from the same memory finds with a lower one,
with at most as many looks: without time, where only the memory can answer, and with enough of it. -/
theorem finding_lowered (q : Quest) (c : LocationCache) (higher : Float) (elapsed : Nat → Nat)
    (le : q.options.threshold ≤ higher)
    (time : q.options.timeoutMs = 0 ∨ ∀ check,
      q.clock.elapsed check < q.options.timeoutMs.toNat ∧
        elapsed check < q.options.timeoutMs.toNat)
    (found : ((q.demanding higher elapsed).finding c).result.found = true) :
    (q.finding c).result.found = true ∧
      (q.finding c).result.evaluations ≤
        ((q.demanding higher elapsed).finding c).result.evaluations := by
  by_cases recalled : ∃ entry, (q.demanding higher elapsed).Recalls c entry
  · obtain ⟨entry, recalls⟩ := recalled
    rw [result_recalled recalls, result_recalled (recalls.lowered le)]
    exact ⟨rfl, Nat.le_refl _⟩
  have fresh : ∀ entry, ¬ (q.demanding higher elapsed).Recalls c entry :=
    fun entry recalls => recalled ⟨entry, recalls⟩
  by_cases fits : q.template.Fits q.source
  swap
  · rw [(tooLarge_missed (q := q.demanding higher elapsed) fits).1] at found
    cases found
  rcases time with spent | intime
  · rw [(searched_spent (q := q.demanding higher elapsed) spent fits fresh).1] at found
    cases found
  have task : (q.demanding higher elapsed).task = q.task.withThreshold higher :=
    task_demanding (fun check => (intime check).1) fun check => (intime check).2
  have run : ((q.demanding higher elapsed).finding c).result = .ofOutcome q.template
      ((q.task.withThreshold higher).run q.bounds q.hint { evaluations := q.looks c }) := by
    rw [← task]
    exact result_searched fits fresh
  rw [run] at found ⊢
  have inside := start_empty_inside q.bounds (q.looks c)
  by_cases recalled : ∃ entry, q.Recalls c entry
  · obtain ⟨entry, recalls⟩ := recalled
    have looked : q.looks c = 1 := by
      simp [looks, recalls.useCache, recalls.fits, recalls.known]
    rw [result_recalled recalls]
    have counted := SearchTask.run_evaluations float_orders (q.task.withThreshold higher) q.hint inside
    exact ⟨rfl, looked.ge.trans counted⟩
  · have fresh : ∀ entry, ¬ q.Recalls c entry := fun entry recalls => recalled ⟨entry, recalls⟩
    rw [result_searched fits fresh]
    exact SearchTask.run_lowered float_orders (task_never fun check => (intime check).1) le q.hint
      inside found

/-- A dot beside a place of almost the same brightness, which does for the lower threshold. -/
theorem finding_lowered_early :
    let q : Quest := ⟨.still 0, ⟨2, 1, .gray, #[180, 200]⟩, ⟨1, 1, .gray, #[200]⟩,
      { threshold := 0.5 }⟩
    let c : LocationCache := .empty 32 300000
    q.options.threshold ≤ 0.95 ∧
      ((q.demanding 0.95 fun _ => 5).finding c).result.found = true ∧
      (q.finding c).result.found = true ∧
      (q.finding c).result.evaluations ≤
        ((q.demanding 0.95 fun _ => 5).finding c).result.evaluations ∧
      (q.finding c).result.evaluations = 1 := by
  intro q c
  have le : q.options.threshold ≤ 0.95 := by decide +kernel
  have found : ((q.demanding 0.95 fun _ => 5).finding c).result.found = true := by decide +kernel
  have still : 0 < (10000 : UInt64).toNat := by decide
  have soon : 5 < (10000 : UInt64).toNat := by decide
  have lowered := finding_lowered q c 0.95 (fun _ => 5) le (.inr fun _ => ⟨still, soon⟩) found
  exact ⟨le, found, lowered.1, lowered.2, by decide +kernel⟩

end Quest

end Screenplay
