import Screenplay.Proofs.Comparing
import Screenplay.Proofs.Listing
import Screenplay.Proofs.Remembering

/-!
What a search with enough time comes to, said by lists. The offsets of a list are scored in order until
one is good enough; the search reports the first such one, or if there is none the earliest of the best.
The next list lies around the best offset of the lists before it. Without a hint the lists are the grid
and the surroundings (`SearchTask.OnGrid`), with one the sweep, a row and the surroundings
(`SearchTask.ByHint`).
-/
namespace Screenplay

namespace SearchTask

variable {σ : Type}

section
variable [LE σ]

/-- No offset of the list is good enough. -/
def Misses (t : SearchTask σ) (l : List Offset) : Prop := ∀ o ∈ l, ¬ t.threshold ≤ t.score o

/-- The first offset of a list that is good enough, with its position, counted from 1. -/
inductive First (t : SearchTask σ) : List Offset → Offset → Nat → Prop where
  | intro (before : List Offset) {after : List Offset} {o : Offset} (misses : t.Misses before)
    (enough : t.threshold ≤ t.score o) : First t (before ++ o :: after) o (before.length + 1)

/-- The earliest offset of a list with the greatest score. -/
inductive Best [LT σ] (t : SearchTask σ) : List Offset → Offset → Prop where
  | intro (before : List Offset) {after : List Offset} {o : Offset}
    (above : ∀ p ∈ before, t.score p < t.score o)
    (atLeast : ∀ p ∈ after, t.score p ≤ t.score o) : Best t (before ++ o :: after) o

end

/-- The outcome of a search that found a place in time. -/
def hit (t : SearchTask σ) (o : Offset) (phase : SearchPhase) (evaluations pauses : Nat) :
    SearchOutcome σ :=
  { found := true, best := some ⟨o, t.score o⟩, phase, evaluations, timedOut := false, pauses }

/-- The outcome of a search that found nothing although it was in time. -/
def miss (t : SearchTask σ) (o : Offset) (phase : SearchPhase) (evaluations pauses : Nat) :
    SearchOutcome σ :=
  { found := false, best := some ⟨o, t.score o⟩, phase, evaluations, timedOut := false, pauses }

section
variable [LE σ] [LT σ]

/-- What comes out of the surroundings of the best offset seen so far. -/
inductive Refined (t : SearchTask σ) (b : Bounds) (seen : List Offset) (phase : SearchPhase) :
    SearchOutcome σ → Prop where
  | found {near : List Offset} {center o : Offset} {position pauses : Nat}
    (best : t.Best seen center)
    (around : b.Lists (fun o => o.Within 3 center ∧ o ≠ center) Offset.RowByRow near)
    (first : t.First near o position) :
    Refined t b seen phase (t.hit o phase (seen.length + position) pauses)
  | missed {near : List Offset} {center o : Offset} {pauses : Nat}
    (best : t.Best seen center)
    (around : b.Lists (fun o => o.Within 3 center ∧ o ≠ center) Offset.RowByRow near)
    (misses : t.Misses near) (overall : t.Best (seen ++ near) o) :
    Refined t b seen phase (t.miss o phase (seen ++ near).length pauses)

/-- What comes out of a search without a hint. -/
inductive OnGrid (t : SearchTask σ) (b : Bounds) : SearchOutcome σ → Prop where
  | grid {grid : List Offset} {o : Offset} {position pauses : Nat}
    (listed : b.Lists Bounds.Aligned Offset.RowByRow grid) (first : t.First grid o position) :
    OnGrid t b (t.hit o .grid position pauses)
  | refined {grid : List Offset} {outcome : SearchOutcome σ}
    (listed : b.Lists Bounds.Aligned Offset.RowByRow grid) (misses : t.Misses grid)
    (refined : t.Refined b grid .gridRefine outcome) : OnGrid t b outcome

/-- What comes out of a search around a hint. -/
inductive ByHint (t : SearchTask σ) (b : Bounds) (hint : Offset) : SearchOutcome σ → Prop where
  | swept {sweep : List Offset} {o : Offset} {position pauses : Nat}
    (listed : b.Lists (Bounds.Swept (b.clamp hint)) (Offset.Outward (b.clamp hint)) sweep)
    (first : t.First sweep o position) : ByHint t b hint (t.hit o .cropVertical position pauses)
  | scanned {sweep row : List Offset} {peak o : Offset} {position pauses : Nat}
    (listed : b.Lists (Bounds.Swept (b.clamp hint)) (Offset.Outward (b.clamp hint)) sweep)
    (misses : t.Misses sweep) (best : t.Best sweep peak)
    (along : b.Lists (fun o => o.y = peak.y) (Offset.Outward peak) row)
    (first : t.First row o position) :
    ByHint t b hint (t.hit o .cropHorizontal (sweep.length + position) pauses)
  | refined {sweep row : List Offset} {peak : Offset} {outcome : SearchOutcome σ}
    (listed : b.Lists (Bounds.Swept (b.clamp hint)) (Offset.Outward (b.clamp hint)) sweep)
    (best : t.Best sweep peak)
    (along : b.Lists (fun o => o.y = peak.y) (Offset.Outward peak) row)
    (misses : t.Misses (sweep ++ row))
    (refined : t.Refined b (sweep ++ row) .cropRefine outcome) : ByHint t b hint outcome

/-- The threshold and every score are numbers. -/
structure Numeric (t : SearchTask σ) (number : σ → Prop) : Prop where
  threshold : number t.threshold
  score : ∀ o, number (t.score o)

variable {t : SearchTask σ} {number : σ → Prop} {l : List Offset} {o p : Offset}

omit [LT σ] in
theorem Misses.append {l' : List Offset} (misses : t.Misses l) (misses' : t.Misses l') :
    t.Misses (l ++ l') := by
  intro o member
  rcases List.mem_append.mp member with member | member
  · exact misses o member
  · exact misses' o member

omit [LT σ] in
theorem First.enough {position : Nat} (first : t.First l o position) : t.threshold ≤ t.score o := by
  cases first with
  | intro _ _ enough => exact enough

omit [LT σ] in
theorem First.cons {position : Nat} (low : ¬ t.threshold ≤ t.score p)
    (first : t.First l o position) : t.First (p :: l) o (position + 1) := by
  cases first with
  | intro before misses enough =>
    exact .intro (p :: before) (List.forall_mem_cons.mpr ⟨low, misses⟩) enough

theorem Best.mem (best : t.Best l o) : o ∈ l := by
  cases best with
  | intro => exact List.mem_append_right _ List.mem_cons_self

/-- An offset that is not better than the best one so far. -/
theorem Best.stays (best : t.Best l o) (atMost : t.score p ≤ t.score o) :
    t.Best (l ++ [p]) o := by
  cases best with
  | @intro before after _ above atLeast =>
    have atLeast' : ∀ q ∈ after ++ [p], t.score q ≤ t.score o := by
      intro q member
      rcases List.mem_append.mp member with member | last
      · exact atLeast q member
      · rwa [List.mem_singleton.mp last]
    rw [List.append_assoc]
    exact .intro before above atLeast'

/-- An offset that is better than the best one so far. -/
theorem Best.moves (orders : OrdersNumbers number) (best : t.Best l o)
    (better : t.score o < t.score p) : t.Best (l ++ [p]) p := by
  cases best with
  | @intro before after _ above atLeast =>
    refine .intro _ (fun q member => ?_) (List.forall_mem_nil _)
    rcases List.mem_append.mp member with member | member
    · exact orders.lt_of_lt_of_le (above q member) (orders.lt_iff.mp better).1
    rcases List.mem_cons.mp member with rfl | member
    · exact better
    · exact orders.lt_of_le_of_lt (atLeast q member) better

end

end SearchTask

/-- A search in time that has scored the offsets of a list, and none of them was good enough. -/
structure SearchState.Tried {σ : Type} [LE σ] [LT σ] (t : SearchTask σ) (l : List Offset)
    (s : SearchState σ) : Prop where
  misses : t.Misses l
  best : (l = [] ∧ s.best = none) ∨ ∃ o, t.Best l o ∧ s.best = some ⟨o, t.score o⟩
  evaluations : s.evaluations = l.length
  intime : s.timedOut = false

/-- What visiting some more offsets comes to after those of a list. -/
inductive SearchState.Visited {σ : Type} [LE σ] [LT σ] (t : SearchTask σ) (l fresh : List Offset) :
    SearchState σ × Bool → Prop where
  | found {s : SearchState σ} {o : Offset} {position : Nat} (first : t.First fresh o position)
    (best : s.best = some ⟨o, t.score o⟩) (evaluations : s.evaluations = l.length + position)
    (intime : s.timedOut = false) : Visited t l fresh (s, true)
  | missed {s : SearchState σ} (tried : s.Tried t (l ++ fresh)) : Visited t l fresh (s, false)

namespace SearchState

variable {σ : Type} [LE σ] [LT σ] {t : SearchTask σ} {number : σ → Prop} {l fresh : List Offset}
  {o : Offset} {s : SearchState σ}

/-- Before a search nothing was scored. -/
theorem Tried.start : ({} : SearchState σ).Tried t [] :=
  ⟨List.forall_mem_nil _, .inl ⟨rfl, rfl⟩, rfl, rfl⟩

theorem Tried.check (tried : s.Tried t l) (never : ∀ check, t.expired check = false) :
    (t.check s).Tried t l where
  misses := tried.misses
  best := by
    rw [SearchTask.check_best]
    exact tried.best
  evaluations := s.rest_evaluations.trans tried.evaluations
  intime := never _

/-- Once an offset was scored there is a best one. -/
theorem Tried.exists_best (tried : s.Tried t l) (nonempty : l ≠ []) :
    ∃ o, t.Best l o ∧ s.best = some ⟨o, t.score o⟩ :=
  tried.best.resolve_left fun none => nonempty none.1

/-- One more offset that was not good enough comes before those that are visited then. -/
theorem Visited.cons {visited : SearchState σ × Bool} (low : ¬ t.threshold ≤ t.score o)
    (later : Visited t (l ++ [o]) fresh visited) : Visited t l (o :: fresh) visited := by
  cases later with
  | found first best evaluations intime =>
    refine .found (first.cons low) best ?_ intime
    rw [evaluations, List.length_append, List.length_singleton]
    omega
  | missed tried =>
    rw [List.append_assoc] at tried
    exact .missed tried

section
variable [DecidableLT σ] (orders : OrdersNumbers number) (numeric : t.Numeric number)
include orders numeric

theorem Tried.offer (tried : s.Tried t l) (low : ¬ t.threshold ≤ t.score o) :
    (s.offer ⟨o, t.score o⟩).Tried t (l ++ [o]) where
  misses := tried.misses.append (List.forall_mem_singleton.mpr low)
  best := by
    right
    rcases tried.best with ⟨rfl, none⟩ | ⟨old, best, known⟩
    · refine ⟨o, ?_, by simp [SearchState.offer, none]⟩
      exact .intro [] (List.forall_mem_nil _) (List.forall_mem_nil _)
    by_cases better : t.score old < t.score o
    · exact ⟨o, best.moves orders better, by simp [SearchState.offer, known, better]⟩
    · have atMost := orders.le_of_not_lt (numeric.score _) (numeric.score _) better
      exact ⟨old, best.stays atMost, by simp [SearchState.offer, known, better]⟩
  evaluations := by simp [SearchState.offer, tried.evaluations]
  intime := tried.intime

/-- The first offset that is good enough is better than all those before it. -/
theorem Tried.offer_enough (tried : s.Tried t l) (enough : t.threshold ≤ t.score o) :
    (s.offer ⟨o, t.score o⟩).best = some ⟨o, t.score o⟩ := by
  rcases tried.best with ⟨-, none⟩ | ⟨old, best, known⟩
  · simp [SearchState.offer, none]
  · have below : t.score old < t.threshold :=
      orders.lt_of_not_le numeric.threshold (numeric.score old) (tried.misses old best.mem)
    have better : t.score old < t.score o := orders.lt_of_lt_of_le below enough
    simp [SearchState.offer, known, better]

variable [DecidableLE σ] (never : ∀ check, t.expired check = false)
include never

/-- Visiting a list adds those of its offsets that were not known to the ones scored before. -/
theorem Tried.visit (known : Offset → Bool) (order : List Offset) (tried : s.Tried t l) :
    Visited t l (order.filter fun o => !known o) (t.visit known order s) := by
  induction order generalizing l s with
  | nil =>
    rw [← List.append_nil l] at tried
    exact .missed tried
  | cons o rest ih =>
    have checked := tried.check never
    have fresh : (o :: rest).filter (fun o => !known o) =
        if known o then rest.filter fun o => !known o
        else o :: rest.filter fun o => !known o := by
      rw [List.filter_cons]
      cases known o <;> rfl
    rw [fresh]
    simp only [SearchTask.visit, checked.intime, Bool.false_eq_true, if_false]
    split
    · exact ih checked
    split
    next enough =>
      refine .found (.intro [] (List.forall_mem_nil _) enough)
        (checked.offer_enough orders numeric enough) ?_ checked.intime
      exact congrArg (· + 1) checked.evaluations
    next low => exact (ih (checked.offer orders numeric low)).cons low

/-- Nothing is known before a list is visited. -/
theorem Tried.visit_all (order : List Offset) (tried : s.Tried t l) :
    Visited t l order (t.visit (fun _ => false) order s) := by
  have all : order.filter (fun _ => !false) = order := List.filter_eq_self.mpr fun _ _ => rfl
  have visited := tried.visit orders numeric never (fun _ => false) order
  rwa [all] at visited

end

section
variable [DecidableLE σ]

omit [LT σ] in
theorem finish_found {position : Nat} (first : t.First fresh o position)
    (best : s.best = some ⟨o, t.score o⟩) (intime : s.timedOut = false) (phase : SearchPhase) :
    s.finish t.threshold phase = t.hit o phase s.evaluations s.pauses := by
  simp [finish, sufficient, SearchTask.hit, best, intime, first.enough]

theorem Tried.finish (tried : s.Tried t l) (nonempty : l ≠ []) (phase : SearchPhase) :
    ∃ o, t.Best l o ∧ s.finish t.threshold phase = t.miss o phase l.length s.pauses := by
  obtain ⟨o, best, known⟩ := tried.exists_best nonempty
  have low := tried.misses o best.mem
  refine ⟨o, best, ?_⟩
  simp [SearchState.finish, sufficient, SearchTask.miss, known, low, tried.evaluations,
    tried.intime]

end

end SearchState

namespace SearchTask

variable {σ : Type} [LE σ] [LT σ] [DecidableLE σ] [DecidableLT σ] {t : SearchTask σ}
  {number : σ → Prop} {b : Bounds} {l : List Offset} {s : SearchState σ}

omit [DecidableLE σ] [DecidableLT σ] in
/-- What is good enough on the grid is found there, or something before it is. -/
theorem OnGrid.found {outcome : SearchOutcome σ} {o : Offset} (onGrid : t.OnGrid b outcome)
    (inside : b.Contains o) (aligned : Bounds.Aligned o) (enough : t.threshold ≤ t.score o) :
    outcome.found = true := by
  cases onGrid with
  | grid => rfl
  | refined listed misses =>
    exact absurd enough (misses o ((listed.member o).mpr ⟨inside, aligned⟩))

section
variable (orders : OrdersNumbers number) (numeric : t.Numeric number)
  (never : ∀ check, t.expired check = false)
include orders numeric never

/-- The last look goes through the surroundings of the best offset seen before. -/
theorem refine_refined (tried : s.Tried t l) (nonempty : l ≠ []) (phase : SearchPhase) :
    t.Refined b l phase ((t.refine b s).finish t.threshold phase) := by
  obtain ⟨center, best, known⟩ := tried.exists_best nonempty
  have around := b.surroundings_lists center
  have visited := tried.visit orders numeric never (· = center) (b.surroundings center)
  have looked : t.refine b s = (t.visit (· = center) (b.surroundings center) s).1 := by
    rw [refine, known]
  rw [looked]
  generalize t.visit (· = center) (b.surroundings center) s = after at visited
  cases visited with
  | found first top evaluations intime =>
    rw [SearchState.finish_found first top intime, evaluations]
    exact .found best around first
  | missed further =>
    obtain ⟨o, overall, missed⟩ := further.finish (List.append_ne_nil_of_left_ne_nil nonempty _) phase
    rw [missed]
    have misses : t.Misses _ := fun o member => further.misses o (List.mem_append_right _ member)
    exact .missed best around misses overall

/-- A search without a hint, from a state in which nothing was scored. -/
theorem run_onGrid (wide : 0 ≤ b.maxX) (high : 0 ≤ b.maxY) (tried : s.Tried t []) :
    t.OnGrid b (t.run b none s) := by
  have listed := b.grid_lists
  have visited := tried.visit_all orders numeric never b.grid
  rw [run, overGrid]
  rcases after : t.visit (fun _ => false) b.grid s with ⟨s', ended⟩
  rw [after] at visited
  cases visited with
  | found first top evaluations intime =>
    rw [List.length_nil, Nat.zero_add] at evaluations
    simp only [SearchState.finish_found first top intime, evaluations]
    exact .grid listed first
  | missed further =>
    exact .refined listed further.misses
      (refine_refined orders numeric never further (Bounds.grid_ne_nil wide high) .gridRefine)

/-- A search around a hint, from a state in which nothing was scored. -/
theorem run_byHint (wide : 0 ≤ b.maxX) (high : 0 ≤ b.maxY) (hint : Offset)
    (tried : s.Tried t []) : t.ByHint b hint (t.run b (some hint) s) := by
  have listed := b.sweep_lists hint
  have visited := tried.visit_all orders numeric never (b.sweep hint)
  rw [run, around]
  rcases after : t.visit (fun _ => false) (b.sweep hint) s with ⟨s', ended⟩
  rw [after] at visited
  cases visited with
  | found first top evaluations intime =>
    rw [List.length_nil, Nat.zero_add] at evaluations
    simp only [SearchState.finish_found first top intime, evaluations]
    exact .swept listed first
  | missed swept =>
    obtain ⟨peak, best, known⟩ := swept.exists_best (Bounds.sweep_ne_nil wide high hint)
    have along := Bounds.row_lists ((listed.member peak).mp best.mem).1
    have visited := swept.visit_all orders numeric never (b.row peak)
    simp only [known]
    rcases after : t.visit (fun _ => false) (b.row peak) s' with ⟨s'', ended⟩
    rw [after] at visited
    cases visited with
    | found first top evaluations intime =>
      simp only [SearchState.finish_found first top intime, evaluations]
      exact .scanned listed swept.misses best along first
    | missed further =>
      have some : b.sweep hint ++ b.row peak ≠ [] :=
        List.append_ne_nil_of_left_ne_nil (Bounds.sweep_ne_nil wide high hint) _
      exact .refined listed best along further.misses
        (refine_refined orders numeric never further some .cropRefine)

end

end SearchTask

namespace Quest

/-- The search of a call for scores of another kind. -/
def taskOver (q : Quest) {σ : Type} (score : Offset → σ) (threshold : σ) : SearchTask σ :=
  { score, threshold, expired := q.task.expired }

/-- The threshold and the scores inside the source are numbers. -/
structure Numeric (q : Quest) : Prop where
  threshold : q.options.threshold.isNaN = false
  score : ∀ o, q.bounds.Contains o → (q.score o).isNaN = false

variable {q : Quest} {c : LocationCache}

theorem Numeric.task (numeric : q.Numeric) : q.task.Numeric fun v => v.isNaN = false where
  threshold := numeric.threshold
  score o := by
    by_cases inside : q.bounds.Contains o
    · exact numeric.score o inside
    · change (q.score o).isNaN = false
      rw [score_outside (mt contains_iff.mpr inside)]
      decide +kernel

theorem linear_numeric {σ : Type} (q : Quest) (score : Offset → σ) (threshold : σ) :
    (q.taskOver score threshold).Numeric fun _ => True := ⟨trivial, fun _ => trivial⟩

/-- A call that does not ask the memory comes to what a search from the start comes to. -/
theorem result_forgetful (fits : q.template.Fits q.source) (forgets : q.options.useCache = false) :
    (q.finding c).result = .ofOutcome q.template (q.task.run q.bounds q.hint {}) := by
  have fresh : ∀ entry, ¬ q.Recalls c entry := by
    intro entry recalls
    rw [recalls.useCache] at forgets
    cases forgets
  have unlooked : q.looks c = 0 := by simp [looks, forgets]
  rw [result_searched fits fresh, unlooked]

/-- A call without a memory, without a hint and with enough time goes through the grid and then through
the surroundings of its best place, whatever the scores are as long as they are ordered. In particular
it finds a template that is good enough on the grid. -/
theorem finding_onGrid (q : Quest) (c : LocationCache) (fits : q.template.Fits q.source)
    (forgets : q.options.useCache = false) (unhinted : q.options.cropLocation = none)
    (intime : ∀ check, q.clock.elapsed check < q.options.timeoutMs.toNat) :
    (∀ (σ : Type) [LinearOrder σ] (score : Offset → σ) (threshold : σ),
      (q.taskOver score threshold).OnGrid q.bounds
          ((q.taskOver score threshold).run q.bounds q.hint {}) ∧
        ∀ o, q.bounds.Contains o → Bounds.Aligned o → threshold ≤ score o →
          ((q.taskOver score threshold).run q.bounds q.hint {}).found = true) ∧
    (q.Numeric →
      (∃ outcome, q.task.OnGrid q.bounds outcome ∧
        (q.finding c).result = .ofOutcome q.template outcome) ∧
      ∀ o, q.bounds.Contains o → Bounds.Aligned o → q.options.threshold ≤ q.score o →
        (q.finding c).result.found = true) := by
  obtain ⟨wide, high⟩ := fits_iff.mp fits
  have grid : q.hint = none := by rw [hint, unhinted, Option.map_none]
  rw [result_forgetful fits forgets, grid]
  constructor
  · intro σ _ score threshold
    have onGrid : (q.taskOver score threshold).OnGrid q.bounds _ :=
      SearchTask.run_onGrid (linear_orders σ) (q.linear_numeric score threshold) (task_never intime)
        wide high .start
    exact ⟨onGrid, fun o inside aligned enough => onGrid.found inside aligned enough⟩
  · intro numeric
    have onGrid : q.task.OnGrid q.bounds _ :=
      SearchTask.run_onGrid float_orders numeric.task (task_never intime) wide high .start
    exact ⟨⟨_, onGrid, rfl⟩, fun o inside aligned enough => onGrid.found inside aligned enough⟩

/-- A row of two places for a dot. -/
theorem row_numeric :
    (⟨.still 0, ⟨2, 1, .gray, #[10, 200]⟩, ⟨1, 1, .gray, #[200]⟩, { useCache := false }⟩ :
      Quest).Numeric := by
  refine ⟨by decide +kernel, ?_⟩
  rintro ⟨x, y⟩ ⟨⟨left, right⟩, top, bottom⟩
  change 0 ≤ x at left
  change x ≤ 1 at right
  have first : y = 0 := Int.le_antisymm bottom top
  have either : x = 0 ∨ x = 1 := by omega
  subst first
  rcases either with rfl | rfl <;> decide +kernel

/-- A dot that lies next to the only place of the grid. -/
theorem finding_onGrid_beside :
    let q : Quest :=
      ⟨.still 0, ⟨2, 1, .gray, #[10, 200]⟩, ⟨1, 1, .gray, #[200]⟩, { useCache := false }⟩
    let c : LocationCache := .empty 32 300000
    q.template.Fits q.source ∧ (∀ check, q.clock.elapsed check < q.options.timeoutMs.toNat) ∧
      q.Numeric ∧
      (∃ outcome, q.task.OnGrid q.bounds outcome ∧
        (q.finding c).result = .ofOutcome q.template outcome) ∧
      (q.finding c).result.phase = .gridRefine ∧ (q.finding c).result.evaluations = 2 := by
  intro q c
  have time : 0 < (10000 : UInt64).toNat := by decide
  have fits : q.template.Fits q.source := ⟨by decide, by decide⟩
  have numeric : q.Numeric := row_numeric
  have searched := (finding_onGrid q c fits rfl rfl fun _ => time).2 numeric
  exact ⟨fits, fun _ => time, numeric, searched.1, by decide +kernel⟩

/-- A call without a memory, with a hint and with enough time goes through the sweep around the hint,
the row of its best place and the surroundings of the best place of both, whatever the scores are as
long as they are ordered. -/
theorem finding_byHint (q : Quest) (c : LocationCache) (p : Point)
    (fits : q.template.Fits q.source) (forgets : q.options.useCache = false)
    (hinted : q.options.cropLocation = some p)
    (intime : ∀ check, q.clock.elapsed check < q.options.timeoutMs.toNat) :
    (∀ (σ : Type) [LinearOrder σ] (score : Offset → σ) (threshold : σ),
      (q.taskOver score threshold).ByHint q.bounds ⟨p.x.toInt, p.y.toInt⟩
        ((q.taskOver score threshold).run q.bounds q.hint {})) ∧
    (q.Numeric → ∃ outcome, q.task.ByHint q.bounds ⟨p.x.toInt, p.y.toInt⟩ outcome ∧
      (q.finding c).result = .ofOutcome q.template outcome) := by
  obtain ⟨wide, high⟩ := fits_iff.mp fits
  have given : q.hint = some ⟨p.x.toInt, p.y.toInt⟩ := by rw [hint, hinted, Option.map_some]
  rw [result_forgetful fits forgets, given]
  constructor
  · intro σ _ score threshold
    exact SearchTask.run_byHint (linear_orders σ) (q.linear_numeric score threshold)
      (task_never intime) wide high _ .start
  · intro numeric
    exact ⟨_, SearchTask.run_byHint float_orders numeric.task (task_never intime) wide high _ .start,
      rfl⟩

/-- A dot that lies in the row of a hint, which the sweep leaves out. -/
theorem finding_byHint_along :
    let q : Quest :=
      ⟨.still 0, ⟨2, 1, .gray, #[10, 200]⟩, ⟨1, 1, .gray, #[200]⟩,
        { useCache := false, cropLocation := some ⟨-5, 7⟩ }⟩
    let c : LocationCache := .empty 32 300000
    q.template.Fits q.source ∧ (∀ check, q.clock.elapsed check < q.options.timeoutMs.toNat) ∧
      q.Numeric ∧
      (∃ outcome, q.task.ByHint q.bounds ⟨-5, 7⟩ outcome ∧
        (q.finding c).result = .ofOutcome q.template outcome) ∧
      (q.finding c).result.phase = .cropHorizontal ∧ (q.finding c).result.evaluations = 3 := by
  intro q c
  have time : 0 < (10000 : UInt64).toNat := by decide
  have fits : q.template.Fits q.source := ⟨by decide, by decide⟩
  have numeric : q.Numeric := ⟨row_numeric.threshold, row_numeric.score⟩
  have searched := (finding_byHint q c ⟨-5, 7⟩ fits rfl rfl fun _ => time).2 numeric
  exact ⟨fits, fun _ => time, numeric, searched, by decide +kernel⟩

end Quest

end Screenplay
