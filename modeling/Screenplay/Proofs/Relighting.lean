import Mathlib
import Screenplay.Proofs.Correlating

/-!
What brightness and contrast do to a correlation. Scaling and shifting values scales their covariance
with others (`covariance_affine`), so it scales the deviations by the square of the factor and leaves
the correlation as it is. A template and the area on which it lies may each be lit in another way and
keep their texture and their correlation (`GrayBuffer.correlation_relit`).
-/
namespace Screenplay

variable {ι : Type} {l : List ι} {a b a' b' : ℤ}

/-! ### Covariance -/

section
variable {f f' g g' : ι → ℤ}

/-- The sum of the products less the product of the sums, the first one taken as often as there are
values. -/
def covariance (l : List ι) (f g : ι → ℤ) : ℤ :=
  l.length * (l.map fun i => f i * g i).sum - (l.map f).sum * (l.map g).sum

theorem covariance_comm (l : List ι) (f g : ι → ℤ) : covariance l f g = covariance l g f := by
  have products : (fun i => f i * g i) = fun i => g i * f i := funext fun i => mul_comm _ _
  rw [covariance, covariance, products, mul_comm (l.map f).sum]

theorem covariance_affine (lit : ∀ i ∈ l, f' i = a * f i + b) (g : ι → ℤ) :
    covariance l f' g = a * covariance l f g := by
  have sum : (l.map f').sum = a * (l.map f).sum + b * l.length := by
    rw [List.map_congr_left lit, List.sum_map_add, List.sum_map_mul_left]
    simp [mul_comm]
  have products : (l.map fun i => f' i * g i).sum =
      a * (l.map fun i => f i * g i).sum + b * (l.map g).sum := by
    have lit' : ∀ i ∈ l, f' i * g i = a * (f i * g i) + b * g i := by
      intro i member
      rw [lit i member]
      ring
    rw [List.map_congr_left lit', List.sum_map_add, List.sum_map_mul_left, List.sum_map_mul_left]
  rw [covariance, covariance, sum, products]
  ring

theorem covariance_affine_both (lit : ∀ i ∈ l, f' i = a * f i + b)
    (lit' : ∀ i ∈ l, g' i = a' * g i + b') :
    covariance l f' g' = a * a' * covariance l f g := by
  rw [covariance_affine lit, covariance_comm, covariance_affine lit', covariance_comm, mul_assoc]

end

/-! ### Statistics by exact sums -/

namespace Statistics

variable {v v' w w' : ι → ℕ}

/-- The statistics of levels of brightness by their exact sums. -/
noncomputable def ofLevels (l : List ι) (v : ι → ℕ) : Statistics ℝ :=
  ofCounts l.length (l.map v).sum (l.map fun i => v i * v i).sum

/-- The correlation of the levels `w` of a template with the levels `v` of an area by their exact
sums. -/
noncomputable def exactCorrelation (l : List ι) (v w : ι → ℕ) : ℝ :=
  ((l.map fun i => v i * w i).sum - (ofLevels l w).mean * (l.map v).sum) /
    √((ofLevels l v).deviation * (ofLevels l w).deviation)

/-- The covariance of levels by their exact sums. -/
theorem covariance_levels (l : List ι) (v w : ι → ℕ) :
    covariance l (fun i => v i) (fun i => w i) =
      l.length * (l.map fun i => v i * w i).sum - (l.map v).sum * (l.map w).sum := by
  simp only [covariance, Nat.cast_list_sum, List.map_map, Function.comp_def, Nat.cast_mul]

theorem deviation_ofLevels (some : 0 < l.length) (v : ι → ℕ) :
    (ofLevels l v).deviation = covariance l (fun i => v i) (fun i => v i) / l.length := by
  have pos : (0 : ℝ) < l.length := Nat.cast_pos.mpr some
  rw [ofLevels, deviation_ofCounts (Moments.sq_sum_le l v), covariance_levels]
  simp only [Int.cast_sub, Int.cast_mul, Int.cast_natCast]
  field_simp

theorem exactCorrelation_eq (some : 0 < l.length) (v w : ι → ℕ) : exactCorrelation l v w =
    covariance l (fun i => v i) (fun i => w i) / l.length /
      √(covariance l (fun i => v i) (fun i => v i) / l.length *
        (covariance l (fun i => w i) (fun i => w i) / l.length)) := by
  have pos : (0 : ℝ) < l.length := Nat.cast_pos.mpr some
  have mean : (ofLevels l w).mean = (l.map w).sum / l.length := rfl
  rw [exactCorrelation, deviation_ofLevels some, deviation_ofLevels some, mean,
    covariance_levels l v w]
  congr 1
  simp only [Int.cast_sub, Int.cast_mul, Int.cast_natCast]
  field_simp

/-- Levels have texture if their covariance with themselves is at least the square of their number. -/
theorem isFlat_ofLevels_iff : (ofLevels l v).isFlat l.length = false ↔
    0 < l.length ∧ (l.length : ℤ) ^ 2 ≤ covariance l (fun i => v i) fun i => v i := by
  rw [isFlat_eq_false_iff]
  refine and_congr_right fun some => ?_
  have pos : (0 : ℝ) < l.length := Nat.cast_pos.mpr some
  rw [deviation_ofLevels some, le_div_iff₀ pos, ← pow_two]
  exact_mod_cast Iff.rfl

/-- A factor of both covariances drops out of a correlation. -/
theorem correlation_scaled {u v c s t : ℝ} (pos : 0 < s) (pos' : 0 < t) :
    s * t * c / √(s * s * u * (t * t * v)) = c / √(u * v) := by
  have product : s * s * u * (t * t * v) = (s * t) ^ 2 * (u * v) := by ring
  have nonneg : 0 ≤ s * t := by positivity
  rw [product, Real.sqrt_mul (sq_nonneg _), Real.sqrt_sq nonneg,
    mul_div_mul_left _ _ (mul_pos pos pos').ne']

section
variable (lit : ∀ i ∈ l, (v' i : ℤ) = a * v i + b) (factor : 1 ≤ a)
include lit factor

/-- More contrast makes nothing flat. -/
theorem isFlat_relit (textured : (ofLevels l v).isFlat l.length = false) :
    (ofLevels l v').isFlat l.length = false := by
  rw [isFlat_ofLevels_iff] at textured ⊢
  obtain ⟨some, least⟩ := textured
  have nonneg : 0 ≤ covariance l (fun i => (v i : ℤ)) fun i => v i := (sq_nonneg _).trans least
  have one : 1 ≤ a * a := one_le_mul_of_one_le_of_one_le factor factor
  rw [covariance_affine_both lit lit]
  exact ⟨some, least.trans (le_mul_of_one_le_left nonneg one)⟩

/-- Lighting levels in another way leaves their correlation as it is. -/
theorem exactCorrelation_relit (lit' : ∀ i ∈ l, (w' i : ℤ) = a' * w i + b') (factor' : 1 ≤ a') :
    exactCorrelation l v' w' = exactCorrelation l v w := by
  rcases Nat.eq_zero_or_pos l.length with none | some
  · rw [List.eq_nil_of_length_eq_zero none]
    rfl
  have pos : (0 : ℝ) < a := by exact_mod_cast (by omega : 0 < a)
  have pos' : (0 : ℝ) < a' := by exact_mod_cast (by omega : 0 < a')
  rw [exactCorrelation_eq some, exactCorrelation_eq some, covariance_affine_both lit lit',
    covariance_affine_both lit lit, covariance_affine_both lit' lit']
  push_cast
  rw [mul_div_assoc ((a : ℝ) * a'), mul_div_assoc ((a : ℝ) * a), mul_div_assoc ((a' : ℝ) * a')]
  exact correlation_scaled pos pos'

end

end Statistics

/-! ### Pictures -/

/-- Over a rectangle every value `v` of the one picture is `a v + b` in the other. -/
def Relit (a b : ℤ) (before after : Nat → Nat → UInt8) (width height : Nat) : Prop :=
  ∀ column < width, ∀ row < height,
    ((after column row).toNat : ℤ) = a * (before column row).toNat + b

namespace GrayBuffer

/-- The positions of the pixels, row by row. -/
def positions (g : GrayBuffer) : List (Nat × Nat) :=
  (List.range g.height).flatMap fun row => (List.range g.width).map fun column => (column, row)

theorem length_positions (g : GrayBuffer) : g.positions.length = g.width * g.height := by
  simp [positions, List.length_flatMap, Nat.mul_comm]

theorem mem_positions {g : GrayBuffer} {p : Nat × Nat} :
    p ∈ g.positions ↔ p.1 < g.width ∧ p.2 < g.height := by
  simp only [positions, List.mem_flatMap, List.mem_map, List.mem_range]
  constructor
  · rintro ⟨row, below, column, right, rfl⟩
    exact ⟨right, below⟩
  · rintro ⟨right, below⟩
    exact ⟨p.2, below, p.1, right, rfl⟩

/-- The level of brightness at a position. -/
def level (g : GrayBuffer) (p : Nat × Nat) : Nat := (g.get p.1 p.2).toNat

/-- The level of brightness under a position of a template whose top left corner is at `(x, y)`. -/
def levelUnder (source : GrayBuffer) (x y : Nat) (p : Nat × Nat) : Nat :=
  (source.get (x + p.1) (y + p.2)).toNat

section
variable (source template : GrayBuffer) (x y : Nat)

theorem pairs_eq : source.pairs template x y = template.positions.map fun p =>
    (source.get (x + p.1) (y + p.2), template.get p.1 p.2) := by
  simp [pairs, positions, List.map_flatMap, Function.comp_def]

/-- The statistics of the area on which a template lies, by the exact sums over its pixels. -/
noncomputable def exactlyUnder : Statistics ℝ :=
  .ofLevels template.positions (source.levelUnder x y)

/-- The statistics of a template, by the exact sums over its pixels. -/
noncomputable def exactly : Statistics ℝ := .ofLevels template.positions template.level

/-- The correlation of a template with the area on which it lies, by the exact sums. -/
noncomputable def exactCorrelation : ℝ :=
  Statistics.exactCorrelation template.positions (source.levelUnder x y) template.level

/-- In exact arithmetic neither the template nor the area on which it lies is flat. -/
structure Textured : Prop where
  own : template.exactly.isFlat (template.width * template.height) = false
  area : (source.exactlyUnder template x y).isFlat (template.width * template.height) = false

/-- What the score makes of its words over real numbers is what comes of the exact sums. -/
structure CountsExactly : Prop where
  own : template.statistics ℝ = template.exactly
  area : source.statisticsUnder ℝ template x y = source.exactlyUnder template x y
  correlation : Statistics.correlation (template.statistics ℝ)
    (source.statisticsUnder ℝ template x y) (source.windowSums template x y) =
      source.exactCorrelation template x y

end

variable {source source' template template' : GrayBuffer} {x y : Nat}

/-- No sum over the pixels of a template of such a size overflows. -/
theorem Holds.countsExactly (holds : source.Holds template x y)
    (small : template.width * template.height ≤ 2 ^ 47) : source.CountsExactly template x y := by
  have count : (source.pairs template x y).length ≤ 2 ^ 47 :=
    (length_pairs source template x y).trans_le small
  obtain ⟨r, rr, rt⟩ := WindowSums.counts _ count
  obtain ⟨t, tt⟩ := holds.wholeTemplate.counts_sums small source x y
  rw [← windowSums_eq, pairs_eq] at r rr rt
  rw [pairs_eq] at t tt
  simp only [Moments.ofPairs, List.map_map, Function.comp_def] at r rr rt t tt
  have own : template.statistics ℝ = template.exactly := by
    rw [statistics, Statistics.ofSums_eq, t, tt, ← length_positions]
    rfl
  have area : source.statisticsUnder ℝ template x y = source.exactlyUnder template x y := by
    rw [statisticsUnder, Statistics.ofSums_eq, r, rr, ← length_positions]
    rfl
  refine ⟨own, area, ?_⟩
  rw [Statistics.correlation, own, area, r, rt]
  rfl

/-- Where both have texture the score is the correlation, and negative ones are cut off. -/
theorem Holds.score_eq (holds : source.Holds template x y)
    (small : template.width * template.height ≤ 2 ^ 47) (textured : source.Textured template x y) :
    source.scoreIn ℝ template x y = max 0 (source.exactCorrelation template x y) := by
  obtain ⟨own, area, correlation⟩ := holds.countsExactly small
  have clamped := (holds.sound small).clamped
  rw [correlation, own, area] at clamped
  have score := (clamped textured.own textured.area).2
  rwa [← own, ← area] at score

/-- A template with texture on an area with texture may each be lit in another way, with a factor of at
least 1: both keep their texture, and their correlation stays what it is. Up to `2 ^ 47` pixels that is
what the score is made of, and it stays the same as well. -/
theorem correlation_relit (holds : source.Holds template x y) (holds' : source'.Holds template' x y)
    (sameSize : template'.width = template.width ∧ template'.height = template.height)
    (textured : source.Textured template x y) {a b a' b' : ℤ} (factor : 1 ≤ a) (factor' : 1 ≤ a')
    (lit : Relit a b (fun column row => source.get (x + column) (y + row))
      (fun column row => source'.get (x + column) (y + row)) template.width template.height)
    (lit' : Relit a' b' template.get template'.get template.width template.height) :
    source'.Textured template' x y ∧
      source'.exactCorrelation template' x y = source.exactCorrelation template x y ∧
      (template.width * template.height ≤ 2 ^ 47 →
        source.CountsExactly template x y ∧ source'.CountsExactly template' x y ∧
          source'.scoreIn ℝ template' x y = source.scoreIn ℝ template x y) := by
  obtain ⟨width, height⟩ := sameSize
  have positions : template'.positions = template.positions := by
    rw [GrayBuffer.positions, width, height, GrayBuffer.positions]
  have area : ∀ p ∈ template.positions,
      (source'.levelUnder x y p : ℤ) = a * source.levelUnder x y p + b := by
    intro p member
    obtain ⟨right, below⟩ := mem_positions.mp member
    exact lit p.1 right p.2 below
  have own : ∀ p ∈ template.positions, (template'.level p : ℤ) = a' * template.level p + b' := by
    intro p member
    obtain ⟨right, below⟩ := mem_positions.mp member
    exact lit' p.1 right p.2 below
  have textured' : source'.Textured template' x y := by
    obtain ⟨texturedT, texturedR⟩ := textured
    rw [← length_positions] at texturedT texturedR
    constructor
    · rw [← length_positions, exactly, positions]
      exact Statistics.isFlat_relit own factor' texturedT
    · rw [← length_positions, exactlyUnder, positions]
      exact Statistics.isFlat_relit area factor texturedR
  have same : source'.exactCorrelation template' x y = source.exactCorrelation template x y := by
    rw [exactCorrelation, exactCorrelation, positions]
    exact Statistics.exactCorrelation_relit area factor own factor'
  refine ⟨textured', same, fun small => ?_⟩
  have small' : template'.width * template'.height ≤ 2 ^ 47 := by rwa [width, height]
  refine ⟨holds.countsExactly small, holds'.countsExactly small', ?_⟩
  rw [holds.score_eq small textured, holds'.score_eq small' textured', same]

/-- An edge on the right of a row; the row is made brighter there, the template richer in contrast. -/
theorem correlation_relit_edge :
    let row : GrayBuffer := ⟨3, 1, #[10, 20, 200]⟩
    let edge : GrayBuffer := ⟨2, 1, #[0, 100]⟩
    let row' : GrayBuffer := ⟨3, 1, #[10, 70, 250]⟩
    let edge' : GrayBuffer := ⟨2, 1, #[3, 203]⟩
    row.Holds edge 1 0 ∧ row'.Holds edge' 1 0 ∧ row.Textured edge 1 0 ∧
      Relit 1 50 (fun column y => row.get (1 + column) (0 + y))
        (fun column y => row'.get (1 + column) (0 + y)) 2 1 ∧
      Relit 2 3 edge.get edge'.get 2 1 ∧
      row'.Textured edge' 1 0 ∧ row'.scoreIn ℝ edge' 1 0 = row.scoreIn ℝ edge 1 0 := by
  intro row edge row' edge'
  have holds : row.Holds edge 1 0 := ⟨rfl, rfl, by decide, by decide⟩
  have holds' : row'.Holds edge' 1 0 := ⟨rfl, rfl, by decide, by decide⟩
  have textured : row.Textured edge 1 0 :=
    ⟨Statistics.isFlat_ofLevels_iff.mpr (by decide), Statistics.isFlat_ofLevels_iff.mpr (by decide)⟩
  have lit : Relit 1 50 (fun column y => row.get (1 + column) (0 + y))
      (fun column y => row'.get (1 + column) (0 + y)) 2 1 := by
    unfold Relit
    decide
  have lit' : Relit 2 3 edge.get edge'.get 2 1 := by
    unfold Relit
    decide
  obtain ⟨textured', -, scores⟩ :=
    correlation_relit holds holds' ⟨rfl, rfl⟩ textured (by decide) (by decide) lit lit'
  exact ⟨holds, holds', textured, lit, lit', textured', (scores (by decide)).2.2⟩

end GrayBuffer

end Screenplay
