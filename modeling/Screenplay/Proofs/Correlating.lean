import Mathlib
import Screenplay.Proofs.Finding
import Screenplay.Proofs.FrameSize

/-!
What a score is in exact arithmetic. The loops over an area and a template add up over the list of the
pixels that lie on each other (`windowSums_eq`), and no word overflows on the way
(`WindowSums.counts`). So the deviations are not negative and the covariance is bounded by them
(`Moments.covariance_sq_le`), which keeps every score between 0 and 1 (`GrayBuffer.Holds.sound`).
-/
namespace Screenplay

/-! ### The pixels that lie on each other -/

/-- The positions of `n` rows of `k` pixels, one row after the other. -/
theorem List.range_mul {α : Type} (n k : Nat) (f : Nat → α) :
    (List.range (n * k)).map f =
      (List.range n).flatMap fun i => (List.range k).map fun j => f (i * k + j) := by
  induction n with
  | zero => simp
  | succ n ih =>
    rw [Nat.succ_mul, List.range_add, List.map_append, ih, List.range_succ, List.flatMap_append]
    simp [Function.comp_def]

namespace WindowSums

/-- The sums over these pairs of pixels. -/
def ofPairs (pairs : List (UInt8 × UInt8)) : WindowSums :=
  pairs.foldl (fun sums p => sums.add p.1 p.2) {}

end WindowSums

namespace GrayBuffer

/-- There is one byte for every pixel. -/
def Whole (g : GrayBuffer) : Prop := g.data.size = g.width * g.height

/-- The template lies inside the source, with its top left corner at `(x, y)`. -/
structure Holds (source template : GrayBuffer) (x y : Nat) : Prop where
  wholeSource : source.Whole
  wholeTemplate : template.Whole
  right : x + template.width ≤ source.width
  below : y + template.height ≤ source.height

/-- The pixels of the area whose top left corner is `(x, y)`, each with the pixel of the template that
lies on it. -/
def pairs (source template : GrayBuffer) (x y : Nat) : List (UInt8 × UInt8) :=
  (List.range template.height).flatMap fun row => (List.range template.width).map fun column =>
    (source.get (x + column) (y + row), template.get column row)

variable {source template : GrayBuffer} {x y : Nat}

theorem length_pairs (source template : GrayBuffer) (x y : Nat) :
    (source.pairs template x y).length = template.width * template.height := by
  simp [pairs, List.length_flatMap, Nat.mul_comm]

theorem Whole.getElem?_data {g : GrayBuffer} (whole : g.Whole) {x y : Nat} (right : x < g.width)
    (below : y < g.height) : g.data[y * g.width + x]? = some (g.get x y) := by
  have inside : y * g.width + x < g.data.size :=
    calc y * g.width + x
      _ < y * g.width + g.width := Nat.add_lt_add_left right _
      _ = (y + 1) * g.width := by ring
      _ ≤ g.height * g.width := Nat.mul_le_mul_right _ below
      _ = g.data.size := by rw [whole, Nat.mul_comm]
  rw [Array.getElem?_eq_getElem inside, get, Array.getD_eq_getD_getElem?,
    Array.getElem?_eq_getElem inside, Option.getD_some]

/-- A row is gone through from left to right. -/
theorem rowSums_eq (source template : GrayBuffer) (x y row : Nat) {count : Nat}
    (short : count ≤ template.width) (sums : WindowSums) :
    rowSums source template x y row count sums =
      (List.range' (template.width - count) count).foldl (fun sums column =>
        sums.add (source.get (x + column) (y + row)) (template.get column row)) sums := by
  induction count generalizing sums with
  | zero => rfl
  | succ count ih =>
    have next : template.width - (count + 1) + 1 = template.width - count := by omega
    rw [rowSums, ih (by omega), List.range'_succ, List.foldl_cons, next]

/-- The sums over an area are those over its pixels, row by row. -/
theorem windowSums_eq (source template : GrayBuffer) (x y : Nat) :
    source.windowSums template x y = .ofPairs (source.pairs template x y) := by
  have rows : ∀ (row : Nat) (sums : WindowSums),
      rowSums source template x y row template.width sums =
        ((List.range template.width).map fun column =>
          (source.get (x + column) (y + row), template.get column row)).foldl
            (fun sums p => sums.add p.1 p.2) sums := by
    intro row sums
    rw [rowSums_eq _ _ _ _ _ (Nat.le_refl _), Nat.sub_self, ← List.range_eq_range', List.foldl_map]
  simp only [windowSums, rows, WindowSums.ofPairs, pairs, List.foldl_flatMap]

/-- The pixels of the template are its bytes. -/
theorem Whole.map_pairs (whole : template.Whole) (source : GrayBuffer) (x y : Nat) :
    (source.pairs template x y).map Prod.snd = template.data.toList := by
  have bytes : template.data.toList =
      (List.range (template.height * template.width)).map fun i => template.data.getD i 0 := by
    rw [Nat.mul_comm, ← whole]
    apply List.ext_getElem
    · simp
    · intro i _ inside
      simp at inside
      simp [inside]
  rw [bytes, List.range_mul, pairs, List.map_flatMap]
  simp [get, Function.comp_def]

/-- The template's own sums are those over its pixels. -/
theorem Whole.sums_eq (whole : template.Whole) (source : GrayBuffer) (x y : Nat) :
    let own := WindowSums.ofPairs ((source.pairs template x y).map fun p => (p.2, p.2))
    template.sums = (own.r, own.rr) := by
  have folds : ∀ (bytes : List UInt8) (s : WindowSums),
      bytes.foldl (fun (s : UInt64 × UInt64) v =>
          (s.1 + v.toUInt64, s.2 + v.toUInt64 * v.toUInt64)) (s.r, s.rr) =
        (((bytes.map fun v => (v, v)).foldl (fun sums p => sums.add p.1 p.2) s).r,
          ((bytes.map fun v => (v, v)).foldl (fun sums p => sums.add p.1 p.2) s).rr) := by
    intro bytes
    induction bytes with
    | nil => intro s; rfl
    | cons v bytes ih => intro s; exact ih (s.add v v)
  have squares : (source.pairs template x y).map (fun p => (p.2, p.2)) =
      template.data.toList.map fun v => (v, v) := by
    rw [← whole.map_pairs source x y, List.map_map]
    rfl
  intro own
  rw [sums, ← Array.foldl_toList]
  have folded := folds template.data.toList {}
  rw [← squares] at folded
  exact folded

end GrayBuffer

/-! ### The words hold the exact sums -/

/-- The five sums over pairs of pixels, as whole numbers. -/
structure Moments where
  r : Nat
  rr : Nat
  rt : Nat
  t : Nat
  tt : Nat
  deriving DecidableEq, Repr

def Moments.ofPairs (pairs : List (UInt8 × UInt8)) : Moments where
  r := (pairs.map fun p => p.1.toNat).sum
  rr := (pairs.map fun p => p.1.toNat * p.1.toNat).sum
  rt := (pairs.map fun p => p.1.toNat * p.2.toNat).sum
  t := (pairs.map fun p => p.2.toNat).sum
  tt := (pairs.map fun p => p.2.toNat * p.2.toNat).sum

theorem byte_le (v : UInt8) : v.toNat ≤ 255 := Nat.le_of_lt_succ v.toNat_lt

theorem byte_mul_le (v w : UInt8) : v.toNat * w.toNat ≤ 255 * 255 :=
  Nat.mul_le_mul (byte_le v) (byte_le w)

theorem toNat_byte_mul (v w : UInt8) :
    (v.toUInt64 * w.toUInt64).toNat = v.toNat * w.toNat := by
  have small := byte_mul_le v w
  rw [UInt64.toNat_mul, UInt8.toNat_toUInt64, UInt8.toNat_toUInt64, Nat.mod_eq_of_lt (by omega)]

theorem sum_map_le {α : Type} (l : List α) {f : α → Nat} {k : Nat} (each : ∀ a, f a ≤ k) :
    (l.map f).sum ≤ l.length * k := by
  have le := List.sum_le_card_nsmul (l.map f) k (by simp [each])
  simpa using le

namespace WindowSums

/-- The words are the sums over these pairs. -/
structure Counts (s : WindowSums) (pairs : List (UInt8 × UInt8)) : Prop where
  r : s.r.toNat = (Moments.ofPairs pairs).r
  rr : s.rr.toNat = (Moments.ofPairs pairs).rr
  rt : s.rt.toNat = (Moments.ofPairs pairs).rt

/-- A pair is added without an overflow as long as there are not too many. -/
theorem Counts.add {s : WindowSums} {pairs : List (UInt8 × UInt8)} (counts : s.Counts pairs)
    (short : pairs.length < 2 ^ 47) (p : UInt8 × UInt8) :
    (s.add p.1 p.2).Counts (pairs ++ [p]) := by
  have r : s.r.toNat ≤ pairs.length * 255 := by
    rw [counts.r]
    exact sum_map_le pairs fun p => byte_le p.1
  have rr : s.rr.toNat ≤ pairs.length * (255 * 255) := by
    rw [counts.rr]
    exact sum_map_le pairs fun p => byte_mul_le p.1 p.1
  have rt : s.rt.toNat ≤ pairs.length * (255 * 255) := by
    rw [counts.rt]
    exact sum_map_le pairs fun p => byte_mul_le p.1 p.2
  have byte := byte_le p.1
  have square := byte_mul_le p.1 p.1
  have product := byte_mul_le p.1 p.2
  constructor
  · change (s.r + p.1.toUInt64).toNat = _
    rw [UInt64.toNat_add, UInt8.toNat_toUInt64, Nat.mod_eq_of_lt (by omega), counts.r]
    simp [Moments.ofPairs]
  · change (s.rr + p.1.toUInt64 * p.1.toUInt64).toNat = _
    rw [UInt64.toNat_add, toNat_byte_mul, Nat.mod_eq_of_lt (by omega), counts.rr]
    simp [Moments.ofPairs]
  · change (s.rt + p.1.toUInt64 * p.2.toUInt64).toNat = _
    rw [UInt64.toNat_add, toNat_byte_mul, Nat.mod_eq_of_lt (by omega), counts.rt]
    simp [Moments.ofPairs]

/-- No sum over so many pairs overflows. -/
theorem counts (pairs : List (UInt8 × UInt8)) (short : pairs.length ≤ 2 ^ 47) :
    (ofPairs pairs).Counts pairs := by
  induction pairs using List.reverseRecOn with
  | nil => exact ⟨rfl, rfl, rfl⟩
  | append_singleton pairs p ih =>
    rw [List.length_append, List.length_singleton] at short
    have before := ih (by omega)
    rw [ofPairs, List.foldl_append]
    exact before.add (by omega) p

end WindowSums

namespace GrayBuffer

variable {source template : GrayBuffer} {x y : Nat}

theorem Whole.counts_sums (whole : template.Whole)
    (small : template.width * template.height ≤ 2 ^ 47) (source : GrayBuffer) (x y : Nat) :
    template.sums.1.toNat = (Moments.ofPairs (source.pairs template x y)).t ∧
      template.sums.2.toNat = (Moments.ofPairs (source.pairs template x y)).tt := by
  have short : ((source.pairs template x y).map fun p => (p.2, p.2)).length ≤ 2 ^ 47 := by
    rw [List.length_map, length_pairs]
    exact small
  obtain ⟨r, rr, -⟩ := WindowSums.counts _ short
  rw [whole.sums_eq source x y]
  refine ⟨r.trans ?_, rr.trans ?_⟩
  · simp [Moments.ofPairs, Function.comp_def]
  · simp [Moments.ofPairs, Function.comp_def]

end GrayBuffer

/-! ### Deviations and covariance -/

section
variable {ι : Type} (s : Finset ι) (r t : ι → ℤ)

/-- The sum of the products of the deviations from the means, each taken as often as there are
values. -/
theorem sum_centred (f g : ι → ℤ) :
    ∑ i ∈ s, (s.card * f i - ∑ j ∈ s, f j) * (s.card * g i - ∑ j ∈ s, g j) =
      s.card * (s.card * ∑ i ∈ s, f i * g i - (∑ i ∈ s, f i) * ∑ i ∈ s, g i) := by
  have expand : ∀ i, (s.card * f i - ∑ j ∈ s, f j) * (s.card * g i - ∑ j ∈ s, g j) =
      (s.card : ℤ) ^ 2 * (f i * g i) - (s.card * ∑ j ∈ s, g j) * f i -
        (s.card * ∑ j ∈ s, f j) * g i + (∑ j ∈ s, f j) * ∑ j ∈ s, g j := by
    intro i
    ring
  simp only [expand, Finset.sum_add_distrib, Finset.sum_sub_distrib, ← Finset.mul_sum,
    Finset.sum_const, nsmul_eq_mul]
  ring

/-- The covariance of values is at most what their deviations allow. -/
theorem sq_covariance_le :
    (s.card * ∑ i ∈ s, r i * t i - (∑ i ∈ s, r i) * ∑ i ∈ s, t i) ^ 2 ≤
      (s.card * ∑ i ∈ s, r i * r i - (∑ i ∈ s, r i) * ∑ i ∈ s, r i) *
        (s.card * ∑ i ∈ s, t i * t i - (∑ i ∈ s, t i) * ∑ i ∈ s, t i) := by
  rcases Nat.eq_zero_or_pos s.card with none | some
  · rw [Finset.card_eq_zero] at none
    simp [none]
  have bound := Finset.sum_mul_sq_le_sq_mul_sq s (fun i => s.card * r i - ∑ j ∈ s, r j)
    (fun i => s.card * t i - ∑ j ∈ s, t j)
  simp only [pow_two, sum_centred] at bound ⊢
  have many : (0 : ℤ) < s.card * s.card := by positivity
  refine le_of_mul_le_mul_left ?_ many
  calc _ = _ := by ring
    _ ≤ _ := bound
    _ = _ := by ring

end

namespace Moments

variable (pairs : List (UInt8 × UInt8))

/-- The square of a sum is at most the sum of the squares, taken as often as there are values. -/
theorem sq_sum_le {ι : Type} (l : List ι) (value : ι → Nat) :
    (l.map value).sum ^ 2 ≤ l.length * (l.map fun i => value i * value i).sum := by
  have bound := sq_sum_le_card_mul_sum_sq (s := Finset.univ)
    (f := fun i : Fin l.length => value l[i])
  simp only [← Fin.sum_univ_fun_getElem]
  simpa [pow_two] using bound

theorem spread : (ofPairs pairs).r ^ 2 ≤ pairs.length * (ofPairs pairs).rr ∧
    (ofPairs pairs).t ^ 2 ≤ pairs.length * (ofPairs pairs).tt :=
  ⟨sq_sum_le pairs fun p => p.1.toNat, sq_sum_le pairs fun p => p.2.toNat⟩

theorem covariance_sq_le :
    let m := ofPairs pairs
    ((pairs.length : ℤ) * m.rt - m.r * m.t) ^ 2 ≤
      ((pairs.length : ℤ) * m.rr - m.r ^ 2) * ((pairs.length : ℤ) * m.tt - m.t ^ 2) := by
  have bound := sq_covariance_le Finset.univ
    (fun i : Fin pairs.length => (pairs[i].1.toNat : ℤ)) fun i => (pairs[i].2.toNat : ℤ)
  simp only [ofPairs, ← Fin.sum_univ_fun_getElem]
  simpa [pow_two] using bound

end Moments

/-! ### Scores in exact arithmetic -/

noncomputable instance : Arithmetic ℝ := ⟨Nat.cast, abs, Real.sqrt⟩

/-- The covariance of pairs is at most what their deviations allow. -/
theorem Moments.covariance_le (pairs : List (UInt8 × UInt8)) :
    let m := ofPairs pairs
    let n : ℝ := pairs.length
    (m.rt - m.t / n * m.r : ℝ) ^ 2 ≤ (m.rr - m.r * m.r / n) * (m.tt - m.t * m.t / n) := by
  intro m n
  rcases Nat.eq_zero_or_pos pairs.length with none | some
  · rw [List.length_eq_zero_iff] at none
    simp [m, none, ofPairs]
  have pos : 0 < n := Nat.cast_pos.mpr some
  have whole := covariance_sq_le pairs
  have bound : (n * m.rt - m.r * m.t) ^ 2 ≤ (n * m.rr - m.r ^ 2) * (n * m.tt - m.t ^ 2) := by
    have cast := (Int.cast_le (R := ℝ)).mpr whole
    push_cast at cast
    exact cast
  calc (m.rt - m.t / n * m.r : ℝ) ^ 2
    _ = (n * m.rt - m.r * m.t) ^ 2 / n ^ 2 := by field_simp
    _ ≤ (n * m.rr - m.r ^ 2) * (n * m.tt - m.t ^ 2) / n ^ 2 := by gcongr
    _ = (m.rr - m.r * m.r / n) * (m.tt - m.t * m.t / n) := by field_simp

namespace Statistics

section
variable {α : Type} [Sub α] [Mul α] [Div α] [LT α] [DecidableLT α] [Arithmetic α]
open Arithmetic (ofNat)

/-- The statistics of `n` values by sums of any size. -/
def ofCounts (n sum squares : Nat) : Statistics α :=
  let total : α := ofNat sum
  let deviation := ofNat squares - total * total / ofNat n
  { mean := total / ofNat n
    deviation := if deviation < ofNat 0 then ofNat 0 else deviation }

theorem ofSums_eq (n : Nat) (sum squares : UInt64) :
    (ofSums n sum squares : Statistics α) = ofCounts n sum.toNat squares.toNat := rfl

end

variable {n : Nat} {template area : Statistics ℝ} {sums : WindowSums}

/-- A score as it should be: it lies between 0 and 1, and a template and an area that both have texture
are compared without a division by zero, by a correlation of which only negative ones are cut off. -/
structure Sound (n : Nat) (template area : Statistics ℝ) (sums : WindowSums) : Prop where
  nonneg : 0 ≤ score n template area sums
  le_one : score n template area sums ≤ 1
  divides : template.isFlat n = false → area.isFlat n = false →
    0 < n ∧ 0 < √(area.deviation * template.deviation)
  clamped : template.isFlat n = false → area.isFlat n = false →
    |correlation template area sums| ≤ 1 ∧
      score n template area sums = max 0 (correlation template area sums)

theorem mean_mem {sum squares : UInt64} (bytes : sum.toNat ≤ n * 255) :
    (ofSums n sum squares : Statistics ℝ).mean ∈ Set.Icc 0 255 := by
  change (sum.toNat / n : ℝ) ∈ Set.Icc 0 255
  have most : (sum.toNat : ℝ) ≤ 255 * n := by
    rw [mul_comm]
    exact_mod_cast bytes
  exact ⟨by positivity, div_le_of_le_mul₀ (by positivity) (by positivity) most⟩

/-- Nothing is cut off from the deviation of so many values. -/
theorem deviation_ofCounts {sum squares : Nat} (spread : sum ^ 2 ≤ n * squares) :
    (ofCounts n sum squares : Statistics ℝ).deviation = squares - sum * sum / n := by
  have nonneg : (sum * sum / n : ℝ) ≤ squares := by
    refine div_le_of_le_mul₀ (by positivity) (by positivity) ?_
    rw [← pow_two, mul_comm]
    exact_mod_cast spread
  have kept : ¬ (squares : ℝ) - sum * sum / n < (0 : Nat) := by
    push_cast
    linarith
  exact if_neg kept

theorem deviation_ofSums {sum squares : UInt64} (spread : sum.toNat ^ 2 ≤ n * squares.toNat) :
    (ofSums n sum squares : Statistics ℝ).deviation =
      squares.toNat - sum.toNat * sum.toNat / n := by
  rw [ofSums_eq, deviation_ofCounts spread]

/-- What has texture deviates by at least one squared level for each pixel. -/
theorem isFlat_eq_false_iff {s : Statistics ℝ} :
    s.isFlat n = false ↔ 0 < n ∧ (n : ℝ) ≤ s.deviation := by
  have test : s.isFlat n = false ↔ ¬ s.deviation / n < (1 : Nat) := decide_eq_false_iff_not
  rw [test, not_lt, Nat.cast_one]
  rcases Nat.eq_zero_or_pos n with rfl | some
  · simp
  · rw [le_div_iff₀ (by positivity), one_mul]
    exact (and_iff_right some).symm

theorem deviation_pos {s : Statistics ℝ} (textured : s.isFlat n = false) :
    0 < n ∧ 0 < s.deviation := by
  obtain ⟨some, least⟩ := isFlat_eq_false_iff.mp textured
  exact ⟨some, (Nat.cast_pos.mpr some).trans_le least⟩

theorem abs_correlation_le
    (bound : (sums.rt.toNat - template.mean * sums.r.toNat) ^ 2 ≤
      area.deviation * template.deviation) : |correlation template area sums| ≤ 1 := by
  change |(sums.rt.toNat - template.mean * sums.r.toNat) / √(area.deviation * template.deviation)| ≤ 1
  rw [abs_div, abs_of_nonneg (Real.sqrt_nonneg _)]
  exact div_le_one_of_le₀ (Real.abs_le_sqrt bound) (Real.sqrt_nonneg _)

/-- Below 1 only what is negative is cut off. -/
theorem score_textured (texturedT : template.isFlat n = false) (texturedR : area.isFlat n = false)
    (bound : |correlation template area sums| ≤ 1) :
    score n template area sums = max 0 (correlation template area sums) := by
  have within : ¬ (1 : Nat) < correlation template area sums := by
    rw [Nat.cast_one]
    exact not_lt.mpr (le_of_abs_le bound)
  rw [score, texturedT, texturedR]
  change (if correlation template area sums < (0 : Nat) then ((0 : Nat) : ℝ)
    else if (1 : Nat) < correlation template area sums then ((1 : Nat) : ℝ) else _) = _
  rw [if_neg within, Nat.cast_zero]
  split_ifs with negative
  · exact (max_eq_left negative.le).symm
  · exact (max_eq_right (not_lt.mp negative)).symm

theorem score_flat (flatT : template.isFlat n = true) (flatR : area.isFlat n = true) :
    score n template area sums = 1 - |template.mean - area.mean| / 255 := by
  rw [score, flatT, flatR]
  change ((1 : Nat) : ℝ) - |template.mean - area.mean| / (255 : Nat) = _
  norm_num

theorem score_mixed (mixed : template.isFlat n ≠ area.isFlat n) :
    score n template area sums = 0 := by
  rw [score]
  rcases flat : template.isFlat n <;> rcases other : area.isFlat n
  · exact absurd (flat.trans other.symm) mixed
  · exact Nat.cast_zero
  · exact Nat.cast_zero
  · exact absurd (flat.trans other.symm) mixed

/-- Means of bytes and a covariance within the deviations make a score as it should be. -/
theorem sound (meanT : template.mean ∈ Set.Icc 0 255) (meanR : area.mean ∈ Set.Icc 0 255)
    (bound : (sums.rt.toNat - template.mean * sums.r.toNat) ^ 2 ≤
      area.deviation * template.deviation) : Sound n template area sums := by
  have correlated := abs_correlation_le bound
  have unit : score n template area sums ∈ Set.Icc 0 1 := by
    by_cases mixed : template.isFlat n = area.isFlat n
    · rcases flat : area.isFlat n
      · rw [score_textured (mixed.trans flat) flat correlated]
        exact ⟨le_max_left _ _, max_le zero_le_one (le_of_abs_le correlated)⟩
      · rw [score_flat (mixed.trans flat) flat]
        have apart : |template.mean - area.mean| ≤ 255 :=
          abs_le.mpr ⟨by linarith [meanT.1, meanR.2], by linarith [meanT.2, meanR.1]⟩
        have away : 0 ≤ |template.mean - area.mean| := abs_nonneg _
        constructor <;> linarith
    · rw [score_mixed mixed]
      exact ⟨le_rfl, zero_le_one⟩
  refine ⟨unit.1, unit.2, ?_, ?_⟩
  · intro texturedT texturedR
    obtain ⟨some, deviationT⟩ := deviation_pos texturedT
    obtain ⟨-, deviationR⟩ := deviation_pos texturedR
    exact ⟨some, Real.sqrt_pos.mpr (mul_pos deviationR deviationT)⟩
  · intro texturedT texturedR
    exact ⟨correlated, score_textured texturedT texturedR correlated⟩

end Statistics

/-! ### The score at a place -/

namespace GrayBuffer

section
variable (α : Type) [Sub α] [Mul α] [Div α] [LT α] [DecidableLT α] [Arithmetic α]

/-- The statistics of a template. -/
def statistics (template : GrayBuffer) : Statistics α :=
  .ofSums (template.width * template.height) template.sums.1 template.sums.2

/-- The statistics of the area on which a template lies. -/
def statisticsUnder (source template : GrayBuffer) (x y : Nat) : Statistics α :=
  let sums := source.windowSums template x y
  .ofSums (template.width * template.height) sums.r sums.rr

/-- The score of a template at a place. -/
def scoreIn (source template : GrayBuffer) (x y : Nat) : α :=
  Statistics.score (template.width * template.height) (template.statistics α)
    (source.statisticsUnder α template x y) (source.windowSums template x y)

end

variable {source template : GrayBuffer} {x y : Nat}

/-- Inside the source the matcher computes the score in floating point. -/
theorem Holds.scoreAt_eq (holds : source.Holds template x y) :
    (PreparedTemplate.ofGray template).scoreAt source x y = source.scoreIn Float template x y := by
  have inside : (PreparedTemplate.ofGray template).fitsAt source x y = true := by
    have right := holds.right
    have below := holds.below
    have right' : (x : Int) + template.width ≤ source.width := by omega
    have below' : (y : Int) + template.height ≤ source.height := by omega
    simp [PreparedTemplate.fitsAt, PreparedTemplate.width, PreparedTemplate.height,
      PreparedTemplate.ofGray, right', below']
  rw [PreparedTemplate.scoreAt, if_pos inside]
  rfl

/-- What is added up at a place, and what comes of it in exact arithmetic. -/
structure ScoredExactly (source template : GrayBuffer) (x y : Nat) : Prop where
  /-- Only pixels that there are get read. -/
  read : ∀ row < template.height, ∀ column < template.width,
    source.data[(y + row) * source.width + (x + column)]? =
        some (source.get (x + column) (y + row)) ∧
      template.data[row * template.width + column]? = some (template.get column row)
  count : (source.pairs template x y).length = template.width * template.height
  area : source.windowSums template x y = .ofPairs (source.pairs template x y)
  own : template.sums =
    let own := WindowSums.ofPairs ((source.pairs template x y).map fun p => (p.2, p.2))
    (own.r, own.rr)
  /-- No word overflows, however many pixels are added already. -/
  exact : ∀ before, before <+: source.pairs template x y →
    (WindowSums.ofPairs before).Counts before ∧
      (WindowSums.ofPairs (before.map fun p => (p.2, p.2))).Counts (before.map fun p => (p.2, p.2))
  /-- The words at the end are the sums over all pairs. -/
  words : let m := Moments.ofPairs (source.pairs template x y)
    (source.windowSums template x y).Counts (source.pairs template x y) ∧
      template.sums.1.toNat = m.t ∧ template.sums.2.toNat = m.tt
  spread : let m := Moments.ofPairs (source.pairs template x y)
    let n := template.width * template.height
    m.r ^ 2 ≤ n * m.rr ∧ m.t ^ 2 ≤ n * m.tt
  covariance : let m := Moments.ofPairs (source.pairs template x y)
    let n : ℤ := (template.width * template.height : ℕ)
    (n * m.rt - m.r * m.t) ^ 2 ≤ (n * m.rr - m.r ^ 2) * (n * m.tt - m.t ^ 2)
  computed : (PreparedTemplate.ofGray template).scoreAt source x y =
    source.scoreIn Float template x y
  sound : Statistics.Sound (template.width * template.height) (template.statistics ℝ)
    (source.statisticsUnder ℝ template x y) (source.windowSums template x y)

theorem Holds.read (holds : source.Holds template x y) {row column : Nat}
    (below : row < template.height) (right : column < template.width) :
    source.data[(y + row) * source.width + (x + column)]? =
        some (source.get (x + column) (y + row)) ∧
      template.data[row * template.width + column]? = some (template.get column row) := by
  have outerRight := holds.right
  have outerBelow := holds.below
  exact ⟨holds.wholeSource.getElem?_data (by omega) (by omega),
    holds.wholeTemplate.getElem?_data right below⟩

theorem Holds.sound (holds : source.Holds template x y)
    (small : template.width * template.height ≤ 2 ^ 47) :
    Statistics.Sound (template.width * template.height) (template.statistics ℝ)
      (source.statisticsUnder ℝ template x y) (source.windowSums template x y) := by
  have count := length_pairs source template x y
  obtain ⟨t, tt⟩ := holds.wholeTemplate.counts_sums small source x y
  obtain ⟨r, rr, rt⟩ : (source.windowSums template x y).Counts (source.pairs template x y) := by
    rw [windowSums_eq]
    exact WindowSums.counts _ (count.trans_le small)
  obtain ⟨spreadR, spreadT⟩ := Moments.spread (source.pairs template x y)
  have covariance := Moments.covariance_le (source.pairs template x y)
  rw [count, ← r, ← rr] at spreadR
  rw [count, ← t, ← tt] at spreadT
  dsimp only at covariance
  rw [count, ← r, ← rr, ← rt, ← t, ← tt] at covariance
  refine Statistics.sound (Statistics.mean_mem ?_) (Statistics.mean_mem ?_) ?_
  · rw [t, ← count]
    exact sum_map_le _ fun p => byte_le p.2
  · rw [r, ← count]
    exact sum_map_le _ fun p => byte_le p.1
  · rw [statistics, statisticsUnder, Statistics.deviation_ofSums spreadR,
      Statistics.deviation_ofSums spreadT]
    exact covariance

/-- Wherever a template of at most `2 ^ 47` pixels lies inside a picture, the words of the loops are the
exact sums over the pixels that lie on each other. The sums satisfy the inequality of Cauchy and
Schwarz, so that in exact arithmetic the score lies between 0 and 1 whatever has texture, nothing is
divided by zero where both have, and nothing but a negative correlation is cut off. -/
theorem scored_exactly (holds : source.Holds template x y)
    (small : template.width * template.height ≤ 2 ^ 47) : source.ScoredExactly template x y where
  read row below column right := holds.read below right
  count := length_pairs source template x y
  area := windowSums_eq source template x y
  own := holds.wholeTemplate.sums_eq source x y
  exact before start := by
    have short : before.length ≤ 2 ^ 47 :=
      start.length_le.trans ((length_pairs source template x y).trans_le small)
    exact ⟨WindowSums.counts _ short, WindowSums.counts _ (by rwa [List.length_map])⟩
  words := by
    refine ⟨?_, holds.wholeTemplate.counts_sums small source x y⟩
    rw [windowSums_eq]
    exact WindowSums.counts _ ((length_pairs source template x y).trans_le small)
  spread := by
    rw [← length_pairs source template x y]
    exact Moments.spread _
  covariance := by
    rw [← length_pairs source template x y]
    exact Moments.covariance_sq_le _
  computed := holds.scoreAt_eq
  sound := holds.sound small

/-- A template with an edge on a place with an edge. -/
theorem scored_exactly_edge :
    let row : GrayBuffer := ⟨3, 1, #[10, 20, 200]⟩
    let edge : GrayBuffer := ⟨2, 1, #[0, 190]⟩
    row.Holds edge 1 0 ∧ edge.width * edge.height ≤ 2 ^ 47 ∧ row.ScoredExactly edge 1 0 ∧
      row.windowSums edge 1 0 = ⟨220, 40400, 38000⟩ ∧ edge.sums = (190, 36100) := by
  intro row edge
  have holds : row.Holds edge 1 0 := ⟨rfl, rfl, by decide, by decide⟩
  have small : edge.width * edge.height ≤ 2 ^ 47 := by decide
  exact ⟨holds, small, scored_exactly holds small, by decide, by decide⟩

end GrayBuffer

/-! ### What the matcher compares -/

/-- What is compared of a whole frame has one byte for every pixel. -/
theorem Frame.Whole.comparable {f : Frame} (whole : f.Whole) (colorInvariant : Bool) :
    (Screenplay.comparable f colorInvariant).Whole := by
  cases colorInvariant
  · exact f.size_toGray whole
  · have each : ∀ y < f.toGray.height,
        ((Array.range f.toGray.width).map fun x => f.toGray.edge x y).size = f.toGray.width := by
      simp
    exact (Array.size_flatMap_range _ _ _ each).trans (Nat.mul_comm _ _)

/-- The places of a search are such that the template lies inside the source. -/
theorem Quest.holds {q : Quest} (source : q.source.Whole) (template : q.template.Whole) {o : Offset}
    (inside : q.bounds.Contains o) :
    (comparable q.source q.options.colorInvariant).Holds q.prepared.gray o.x.toNat o.y.toNat where
  wholeSource := source.comparable _
  wholeTemplate := template.comparable _
  right := by
    have place := contains_iff.mp inside
    simp only [Frame.InsideAt] at place
    rw [Quest.prepared, PreparedTemplate.ofGray_gray, comparable_width, comparable_width]
    omega
  below := by
    have place := contains_iff.mp inside
    simp only [Frame.InsideAt] at place
    rw [Quest.prepared, PreparedTemplate.ofGray_gray, comparable_height, comparable_height]
    omega

end Screenplay
