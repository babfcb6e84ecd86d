import Mathlib
import Screenplay.Proofs.Correlating
import Screenplay.Proofs.Cropping
import Screenplay.Proofs.Refinding
import Screenplay.Proofs.Scanning

/-!
A template that was cut out of the source is found where it was cut out. The sums over the area are the
sums of the template (`GrayBuffer.CutFrom.windowSums_eq`), so that both have the same statistics and the
score over real numbers is 1, with texture or without (`Statistics.score_self`). A search with that place
as its hint scores it before any other (`Bounds.sweep_inside`), so it ends there after one look whatever
the threshold is (`Quest.returns_of_crop`).
-/
namespace Screenplay

/-! ### The sums -/

/-- Over pairs of equal pixels the products are the squares. -/
theorem WindowSums.rt_eq_rr {pairs : List (UInt8 × UInt8)} (equal : ∀ p ∈ pairs, p.1 = p.2) :
    (ofPairs pairs).rt = (ofPairs pairs).rr := by
  have folds : ∀ s : WindowSums, s.rt = s.rr →
      (pairs.foldl (fun sums p => sums.add p.1 p.2) s).rt =
        (pairs.foldl (fun sums p => sums.add p.1 p.2) s).rr := by
    induction pairs with
    | nil => exact fun _ same => same
    | cons p pairs ih =>
      obtain ⟨first, later⟩ := List.forall_mem_cons.mp equal
      intro s same
      refine ih later _ ?_
      simp only [WindowSums.add, same, first]
  exact folds {} rfl

namespace GrayBuffer

variable {part whole : GrayBuffer} {x y : Nat}

/-- The pixels of a part lie on pixels of the same brightness. -/
theorem CutFrom.pairs_equal (cut : part.CutFrom whole x y) :
    ∀ p ∈ whole.pairs part x y, p.1 = p.2 := by
  intro p member
  simp only [pairs, List.mem_flatMap, List.mem_map, List.mem_range] at member
  obtain ⟨row, inRows, column, inColumns, rfl⟩ := member
  exact (cut.pixel column inColumns row inRows).symm

/-- The sums over the area from which a part was cut are those of the part. -/
theorem CutFrom.windowSums_eq (cut : part.CutFrom whole x y) (complete : part.Whole) :
    whole.windowSums part x y = ⟨part.sums.1, part.sums.2, part.sums.2⟩ := by
  have equal := cut.pairs_equal
  have same : (whole.pairs part x y).map (fun p => (p.2, p.2)) = whole.pairs part x y := by
    refine (List.map_congr_left fun p member => ?_).trans (List.map_id _)
    exact Prod.ext (equal p member).symm rfl
  rw [complete.sums_eq whole x y, same, GrayBuffer.windowSums_eq]
  exact congrArg (WindowSums.mk _ _) (WindowSums.rt_eq_rr equal)

end GrayBuffer

/-! ### The score -/

namespace Statistics

variable {n : Nat} {sum squares : UInt64}

/-- From a deviation that is positive nothing was cut off. -/
theorem deviation_of_pos (pos : 0 < (ofSums n sum squares : Statistics ℝ).deviation) :
    (ofSums n sum squares : Statistics ℝ).deviation =
      squares.toNat - sum.toNat * sum.toNat / n := by
  refine if_neg fun negative => ?_
  have cut : (ofSums n sum squares : Statistics ℝ).deviation = (0 : Nat) := if_pos negative
  rw [cut, Nat.cast_zero] at pos
  exact lt_irrefl _ pos

/-- What has texture correlates with itself without a loss. -/
theorem correlation_self (textured : (ofSums n sum squares : Statistics ℝ).isFlat n = false) :
    correlation (ofSums n sum squares : Statistics ℝ) (ofSums n sum squares)
      ⟨sum, squares, squares⟩ = 1 := by
  obtain ⟨-, pos⟩ := deviation_pos textured
  have covariance : squares.toNat - (ofSums n sum squares : Statistics ℝ).mean * sum.toNat =
      (ofSums n sum squares : Statistics ℝ).deviation := by
    rw [deviation_of_pos pos]
    change (squares.toNat : ℝ) - sum.toNat / n * sum.toNat = _
    ring
  change (squares.toNat - (ofSums n sum squares : Statistics ℝ).mean * sum.toNat) / √(_ * _) = 1
  rw [covariance, Real.sqrt_mul_self pos.le, div_self pos.ne']

/-- What lies on an equal area scores 1, whether it has texture or not. -/
theorem score_self (n : Nat) (sum squares : UInt64) :
    score n (ofSums n sum squares : Statistics ℝ) (ofSums n sum squares)
      ⟨sum, squares, squares⟩ = 1 := by
  rcases flat : (ofSums n sum squares : Statistics ℝ).isFlat n
  · have one := correlation_self flat
    rw [score_textured flat flat (by rw [one, abs_one]), one, max_eq_right zero_le_one]
  · rw [score_flat flat flat, sub_self, abs_zero, zero_div, sub_zero]

end Statistics

/-! ### The first offset -/

theorem outward_eq_cons {center lo hi : Int} (above : lo ≤ center) (below : center ≤ hi)
    (step : Nat) : ∃ later, outward center lo hi step = center :: later := by
  rw [outward, List.range_succ_eq_map, List.flatMap_cons]
  simp [above, below]

/-- The sweep around an offset inside the bounds starts there. -/
theorem Bounds.sweep_inside {b : Bounds} {o : Offset} (inside : b.Contains o) :
    ∃ later, b.sweep o = o :: later := by
  obtain ⟨⟨left, right⟩, top, bottom⟩ := inside
  have clamped : b.clamp o = o := by
    rw [clamp, min_eq_left right, min_eq_left bottom, max_eq_right left, max_eq_right top]
  have near : max (o.x - sweepReach) 0 ≤ o.x ∧ o.x ≤ min (o.x + sweepReach) b.maxX := by
    unfold sweepReach
    omega
  obtain ⟨rows, fromRow⟩ := outward_eq_cons top bottom sweepStep
  obtain ⟨columns, fromColumn⟩ := outward_eq_cons near.1 near.2 sweepStep
  rw [sweep, clamped, fromRow, fromColumn, List.flatMap_cons, List.map_cons]
  exact ⟨_, rfl⟩

/-- A search ends at the first offset of the sweep if that is good enough. -/
theorem SearchTask.run_first {σ : Type} [LE σ] [LT σ] [DecidableLE σ] [DecidableLT σ]
    {t : SearchTask σ} {b : Bounds} {hint o : Offset} {later : List Offset}
    (never : ∀ check, t.expired check = false) (sweep : b.sweep hint = o :: later)
    (enough : t.threshold ≤ t.score o) :
    t.run b (some hint) {} = t.hit o .cropVertical 1 0 := by
  have intime : (t.check {}).timedOut = false := never 0
  have visited : t.visit (fun _ => false) (b.sweep hint) {} =
      ((t.check {}).offer ⟨o, t.score o⟩, true) := by
    rw [sweep]
    simp only [visit, intime, Bool.false_eq_true, if_false, enough, if_true]
  rw [run, around, visited]
  simp [hit, SearchState.finish, SearchState.sufficient, SearchState.offer, SearchState.rest, check,
    pauseInterval, never, enough]

/-! ### The call -/

namespace Quest

variable {q : Quest} {c : LocationCache}

section
variable (q : Quest) (α : Type) [Sub α] [Mul α] [Div α] [LT α] [DecidableLT α] [Arithmetic α]

/-- The statistics of the area at a place. -/
def statisticsAt (o : Offset) : Statistics α :=
  q.compared.statisticsUnder α q.prepared.gray o.x.toNat o.y.toNat

/-- The score of the template at a place, computed in any arithmetic. -/
def scoreIn (o : Offset) : α :=
  if q.prepared.fitsAt q.compared o.x o.y then
    q.compared.scoreIn α q.prepared.gray o.x.toNat o.y.toNat
  else Arithmetic.ofNat 0

end

/-- The template was cut out of the source at this place, and a call with the place as its hint ends
there. -/
structure Returns (q : Quest) (c : LocationCache) (o : Offset) : Prop where
  /-- The place is the first one that is scored. -/
  first : q.hint = some o ∧ ∃ later, q.bounds.sweep o = o :: later
  pixels : ∀ p ∈ q.compared.pairs q.prepared.gray o.x.toNat o.y.toNat, p.1 = p.2
  sums : q.compared.windowSums q.prepared.gray o.x.toNat o.y.toNat =
    ⟨q.prepared.gray.sums.1, q.prepared.gray.sums.2, q.prepared.gray.sums.2⟩
  /-- In any arithmetic both are flat or both have texture. -/
  alike : ∀ (α : Type) [Sub α] [Mul α] [Div α] [LT α] [DecidableLT α] [Arithmetic α],
    q.statisticsAt α o = q.prepared.gray.statistics α ∧
      (q.statisticsAt α o).isFlat q.prepared.area =
        (q.prepared.gray.statistics α).isFlat q.prepared.area
  score : q.scoreIn ℝ o = 1
  /-- In exact arithmetic the search ends at the place with the first look. -/
  found : ∀ threshold ∈ Set.Icc (0 : ℝ) 1,
    (q.taskOver (q.scoreIn ℝ) threshold).run q.bounds q.hint {} =
      { found := true, best := some ⟨o, 1⟩, phase := .cropVertical, evaluations := 1,
        timedOut := false, pauses := 0 }
  /-- The call runs the same search in floating point. -/
  computed : (q.finding c).result = .ofOutcome q.template
    ((q.taskOver (q.scoreIn Float) q.options.threshold).run q.bounds q.hint {})
  hit : q.options.threshold ≤ q.score o → (q.finding c).result = q.hit o .cropVertical 1

/-- What is cut out of the source, as both are compared, is found at the place of the cut if that is the
hint. -/
theorem returns_of_cutFrom {o : Offset} (inside : q.template.InsideAt q.source o.x o.y)
    (cut : q.prepared.gray.CutFrom q.compared o.x.toNat o.y.toNat) (complete : q.prepared.gray.Whole)
    (hint : q.hint = some o) (forgets : q.options.useCache = false)
    (intime : ∀ check, q.clock.elapsed check < q.options.timeoutMs.toNat) : q.Returns c o := by
  have sums := cut.windowSums_eq complete
  have contained : q.bounds.Contains o := contains_iff.mpr inside
  have fits : q.template.Fits q.source := by
    rw [Frame.InsideAt] at inside
    rw [Frame.Fits]
    omega
  obtain ⟨later, sweep⟩ := Bounds.sweep_inside contained
  have never := task_never intime
  have statistics : ∀ (α : Type) [Sub α] [Mul α] [Div α] [LT α] [DecidableLT α] [Arithmetic α],
      q.statisticsAt α o = q.prepared.gray.statistics α := by
    intro α _ _ _ _ _ _
    rw [statisticsAt, GrayBuffer.statisticsUnder, sums]
    rfl
  have score : q.scoreIn ℝ o = 1 := by
    rw [scoreIn, if_pos (fitsAt_iff.mpr inside), GrayBuffer.scoreIn, GrayBuffer.statisticsUnder, sums]
    exact Statistics.score_self _ _ _
  refine ⟨⟨hint, later, sweep⟩, cut.pairs_equal, sums, ?_, score, ?_, ?_, ?_⟩
  · intro α _ _ _ _ _ _
    exact ⟨statistics α, congrArg _ (statistics α)⟩
  · intro threshold unit
    have enough : threshold ≤ q.scoreIn ℝ o := unit.2.trans_eq score.symm
    have ended := SearchTask.run_first (t := q.taskOver (q.scoreIn ℝ) threshold) never sweep enough
    rw [hint, ended, SearchTask.hit]
    simp only [taskOver, score]
  · rw [result_forgetful fits forgets]
    rfl
  · intro enough
    rw [result_forgetful fits forgets, hint, SearchTask.run_first (t := q.task) never sweep enough]
    rfl

/-- A template that was cut out of a frame, with all its bytes, is what a call finds with its first look
if the hint says where it was cut out: in exact arithmetic for every threshold, in floating point unless
rounding brings the score below the threshold. -/
theorem returns_of_crop (q : Quest) (c : LocationCache) {x y width height : UInt32} {p : Point}
    (made : q.source.crop x y width height = some q.template) (whole : q.template.Whole)
    (hinted : q.options.cropLocation = some p)
    (there : p.x.toInt = x.toNat ∧ p.y.toInt = y.toNat)
    (plain : q.options.colorInvariant = false) (forgets : q.options.useCache = false)
    (intime : ∀ check, q.clock.elapsed check < q.options.timeoutMs.toNat) :
    q.Returns c ⟨x.toNat, y.toNat⟩ := by
  have cut : q.prepared.gray.CutFrom q.compared x.toNat y.toNat := by
    have cut := Frame.toGray_cutFrom made whole
    rw [prepared, PreparedTemplate.ofGray_gray, compared, plain]
    exact cut
  have inside : q.template.InsideAt q.source x.toNat y.toNat := by
    obtain ⟨width', height', -, -, right, below⟩ := Frame.crop_inside made
    rw [Frame.InsideAt, width', height']
    omega
  have hint : q.hint = some ⟨x.toNat, y.toNat⟩ := by
    rw [Quest.hint, hinted, Option.map_some, there.1, there.2]
  exact returns_of_cutFrom inside cut (whole.comparable _) hint forgets intime

/-- The right part of a row. -/
theorem returns_of_crop_right :
    let f : Frame := ⟨3, 1, .gray, #[10, 20, 200]⟩
    let part : Frame := ⟨2, 1, .gray, #[20, 200]⟩
    let q : Quest := ⟨.still 0, f, part, { useCache := false, cropLocation := some ⟨1, 0⟩ }⟩
    let c : LocationCache := .empty 32 300000
    f.crop 1 0 2 1 = some part ∧ part.Whole ∧
      (∀ check, q.clock.elapsed check < q.options.timeoutMs.toNat) ∧
      q.Returns c ⟨1, 0⟩ ∧ (q.finding c).result = q.hit ⟨1, 0⟩ .cropVertical 1 := by
  intro f part q c
  have made : f.crop 1 0 2 1 = some part := by decide
  have time : 0 < (10000 : UInt64).toNat := by decide
  have returns := returns_of_crop q c (p := ⟨1, 0⟩) made rfl rfl ⟨by decide, by decide⟩ rfl rfl
    fun _ => time
  exact ⟨made, rfl, fun _ => time, returns, returns.hit (by decide +kernel)⟩

end Quest

end Screenplay
