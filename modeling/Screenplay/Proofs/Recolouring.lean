import Screenplay.Proofs.EdgeMaps
import Screenplay.Proofs.Relighting
import Screenplay.Proofs.Remembering
import Screenplay.Proofs.Timeless

/-!
What edge maps leave of brightness. A negative and a constant change of all levels turn every gradient
into itself or its opposite (`GrayBuffer.edge_relit`), so the edge map stays the same. A call of the
matcher looks at the pictures only as they are compared (`Quest.SameView.finding`). So a call that compares
edge maps comes to the same when its gray pictures are recoloured (`Quest.finding_recoloured`).
-/
namespace Screenplay

/-! ### Edge maps -/

namespace GrayBuffer

variable {g g' : GrayBuffer}

/-- The edge map is made of the edges at the pixels. -/
theorem sobel_congr (width : g'.width = g.width) (height : g'.height = g.height)
    (same : ∀ x < g.width, ∀ y < g.height, g'.edge x y = g.edge x y) : g'.sobel = g.sobel := by
  have rows : ∀ y ∈ Array.range g.height, (Array.range g.width).map (fun x => g'.edge x y) =
      (Array.range g.width).map fun x => g.edge x y := by
    intro y inRows
    refine Array.map_congr_left fun x inColumns => ?_
    exact same x (Array.mem_range.mp inColumns) y (Array.mem_range.mp inRows)
  rw [sobel, sobel, width, height, Array.flatMap_def, Array.flatMap_def, Array.map_congr_left rows]

section
variable {a b : ℤ} (lit : Relit a b g.get g'.get g.width g.height) (width : g'.width = g.width)
  (height : g'.height = g.height) (wide : 0 < g.width) (high : 0 < g.height)
include lit width height wide high

theorem sample_relit (u v : Int) : g'.sample u v = a * g.sample u v + b := by
  rw [sample, sample, width, height]
  exact lit _ (by omega) _ (by omega)

theorem gradientX_relit (u v : Int) : g'.gradientX u v = a * g.gradientX u v := by
  simp only [gradientX, sample_relit lit width height wide high]
  ring

theorem gradientY_relit (u v : Int) : g'.gradientY u v = a * g.gradientY u v := by
  simp only [gradientY, sample_relit lit width height wide high]
  ring

/-- A gradient and its opposite have the same length. -/
theorem edge_relit (unit : a * a = 1) (x y : Nat) : g'.edge x y = g.edge x y := by
  have length : a * g.gradientX x y * (a * g.gradientX x y) +
      a * g.gradientY x y * (a * g.gradientY x y) =
        a * a * (g.gradientX x y * g.gradientX x y + g.gradientY x y * g.gradientY x y) := by ring
  rw [edge, edge, gradientX_relit lit width height wide high,
    gradientY_relit lit width height wide high, length, unit, one_mul]

end

end GrayBuffer

/-! ### Recoloured frames -/

namespace Frame

variable {f f' : Frame}

/-- A gray frame in other levels of brightness: its negative, or all levels changed by the same amount,
none of them past the least or the greatest one. -/
inductive Recoloured (f : Frame) : Frame → Prop where
  | negative (gray : f.format = .gray) : Recoloured f (f.mapBytes fun v => 255 - v)
  | shifted (amount : ℤ) (gray : f.format = .gray)
    (within : ∀ v ∈ f.data, (v.toNat : ℤ) + amount ∈ Set.Icc 0 255) :
    Recoloured f (f.mapBytes fun v => .ofNat (v.toNat + amount).toNat)

theorem Recoloured.size (recoloured : f.Recoloured f') :
    f'.width = f.width ∧ f'.height = f.height := by
  cases recoloured <;> exact ⟨rfl, rfl⟩

/-- A pixel of a whole gray frame is one of its bytes, and it changes as they do. -/
theorem get_mapBytes (whole : f.Whole) (gray : f.format = .gray) {x y : Nat}
    (column : x < f.width.toNat) (row : y < f.height.toNat) :
    f.toGray.get x y ∈ f.data ∧
      ∀ m : UInt8 → UInt8, (f.mapBytes m).toGray.get x y = m (f.toGray.get x y) := by
  have inside := toGray_in_range whole column row
  simp only [toGray, gray] at inside
  constructor
  · simp [toGray, GrayBuffer.get, gray, inside]
  · intro m
    simp [toGray, GrayBuffer.get, mapBytes, gray, inside]

/-- The levels are the old ones or their opposites, up to a constant. -/
theorem Recoloured.relit (recoloured : f.Recoloured f') (whole : f.Whole) :
    ∃ a b : ℤ, a * a = 1 ∧
      Relit a b f.toGray.get f'.toGray.get f.width.toNat f.height.toNat := by
  cases recoloured with
  | negative gray =>
    refine ⟨-1, 255, rfl, fun column inColumns row inRows => ?_⟩
    obtain ⟨-, changed⟩ := get_mapBytes whole gray inColumns inRows
    have byte := byte_le (f.toGray.get column row)
    rw [changed, UInt8.toNat_sub_of_le _ _ byte]
    change ((255 - (f.toGray.get column row).toNat : ℕ) : ℤ) = _
    omega
  | shifted amount gray within =>
    refine ⟨1, amount, rfl, fun column inColumns row inRows => ?_⟩
    obtain ⟨level, changed⟩ := get_mapBytes whole gray inColumns inRows
    obtain ⟨least, greatest⟩ := within _ level
    have byte : ((f.toGray.get column row).toNat + amount).toNat < UInt8.size :=
      (Int.toNat_lt least).mpr (Int.lt_add_one_of_le greatest)
    rw [changed, UInt8.toNat_ofNat_of_lt' byte, Int.toNat_of_nonneg least, one_mul]

/-- The edge map of a frame is that of the recoloured one. -/
theorem Recoloured.comparable_eq (recoloured : f.Recoloured f') (whole : f.Whole) :
    comparable f' true = comparable f true := by
  obtain ⟨width, height⟩ := recoloured.size
  obtain ⟨a, b, unit, lit⟩ := recoloured.relit whole
  have width' : f'.toGray.width = f.toGray.width := congrArg UInt32.toNat width
  have height' : f'.toGray.height = f.toGray.height := congrArg UInt32.toNat height
  refine GrayBuffer.sobel_congr width' height' fun x column y row => ?_
  exact GrayBuffer.edge_relit lit width' height' (by omega) (by omega) unit x y

end Frame

/-! ### Calls -/

/-- A place is looked up in the same way at two times at which it is equally too old. -/
theorem LocationCache.get_congr {c : LocationCache} {key : UInt64} {now now' : Nat}
    (live : ∀ entry, c.find? key = some entry → c.expired entry now' = c.expired entry now) :
    c.get key now' = c.get key now := by
  rw [get, get]
  rcases known : c.find? key with _ | entry
  · rfl
  · simp only [live entry known]

namespace Quest

variable {q q' : Quest} {c : LocationCache}

/-- The second call compares the same pictures, with the same options and as much time. -/
structure SameView (q q' : Quest) : Prop where
  source : q'.compared = q.compared
  template : q'.prepared = q.prepared
  options : q'.options = q.options
  expired : q'.task.expired = q.task.expired

theorem SameView.task (same : q.SameView q') : q'.task = q.task := by
  have score : q'.score = q.score := by
    funext o
    change q'.prepared.scoreAt q'.compared o.x o.y = q.prepared.scoreAt q.compared o.x o.y
    rw [same.source, same.template]
  have threshold : q'.task.threshold = q.task.threshold :=
    congrArg SearchOptions.threshold same.options
  change (⟨q'.score, q'.task.threshold, q'.task.expired⟩ : SearchTask Float) = q.task
  rw [score, threshold, same.expired]
  rfl

/-- The dimensions of the template are those of what is compared of it. -/
theorem SameView.dimensions (same : q.SameView q') :
    q'.template.width = q.template.width ∧ q'.template.height = q.template.height := by
  have gray : comparable q'.template q'.options.colorInvariant =
      comparable q.template q.options.colorInvariant := congrArg PreparedTemplate.gray same.template
  constructor
  · rw [← UInt32.toNat_inj, ← comparable_width, gray, comparable_width]
  · rw [← UInt32.toNat_inj, ← comparable_height, gray, comparable_height]

theorem SameView.bounds (same : q.SameView q') : q'.bounds = q.bounds := by
  have source := same.source
  obtain ⟨width, height⟩ := same.dimensions
  have sourceWidth : q'.source.width.toNat = q.source.width.toNat := by
    rw [← comparable_width, ← comparable_width q.source]
    exact congrArg GrayBuffer.width source
  have sourceHeight : q'.source.height.toNat = q.source.height.toNat := by
    rw [← comparable_height, ← comparable_height q.source]
    exact congrArg GrayBuffer.height source
  rw [Quest.bounds, Quest.bounds, width, height, sourceWidth, sourceHeight]

theorem SameView.reopened (same : q.SameView q')
    (live : ∀ entry, c.find? q.key = some entry →
      c.expired entry q'.clock.now = c.expired entry q.clock.now) :
    q'.reopened c = q.reopened c := by
  have key : q'.key = q.key := congrArg (·.gray.contentHash) same.template
  rw [Quest.reopened, Quest.reopened, same.options, same.task, key, LocationCache.revisit,
    LocationCache.revisit, LocationCache.get_congr live]

/-- A call of the matcher looks at the pictures only as they are compared, and at the clock only for how
old the remembered place is and whether there is time. -/
theorem SameView.finding (same : q.SameView q')
    (live : ∀ entry, c.find? q.key = some entry →
      c.expired entry q'.clock.now = c.expired entry q.clock.now) :
    (q'.finding c).timeless = (q.finding c).timeless := by
  have key : q'.key = q.key := congrArg (·.gray.contentHash) same.template
  have hint : q'.hint = q.hint := by rw [Quest.hint, same.options, Quest.hint]
  obtain ⟨width, height⟩ := same.dimensions
  have reported : MatchResult.ofOutcome q'.template = MatchResult.ofOutcome q.template := by
    funext outcome
    rw [MatchResult.ofOutcome, width, height, MatchResult.ofOutcome]
  rw [finding_eq, finding_eq, same.bounds, same.options, same.task, same.reopened live, key, hint,
    reported]
  by_cases large : q.bounds.maxX < 0 ∨ q.bounds.maxY < 0
  · rw [if_pos large, if_pos large]
  rw [if_neg large, if_neg large]
  rcases q.reopened c with ⟨during, hit | start⟩
  · rfl
  dsimp only
  split
  · simp only [Finding.timeless, ← LocationCache.insert_timeless]
  · rfl

/-- The same call with other pictures, at another time. -/
def showing (q : Quest) (clock : Stopwatch) (source template : Frame) : Quest :=
  ⟨clock, source, template, q.options⟩

/-- A call that compares edge maps, and has no time or enough of it, comes to the same when its source
and its template are recoloured, each in its own way: the result is the same, and so is what is
remembered, but for the times. The second call may be made at another time unless the remembered place
is too old at only one of the two. -/
theorem finding_recoloured (q : Quest) (c : LocationCache) {clock : Stopwatch}
    {source template : Frame} (wholeSource : q.source.Whole) (wholeTemplate : q.template.Whole)
    (recoloured : q.source.Recoloured source) (recoloured' : q.template.Recoloured template)
    (edges : q.options.colorInvariant = true) (untimed : q.Untimed)
    (untimed' : (q.showing clock source template).Untimed)
    (live : ∀ entry, c.find? q.key = some entry →
      c.expired entry clock.now = c.expired entry q.clock.now) :
    ((q.showing clock source template).finding c).timeless = (q.finding c).timeless := by
  have source' := recoloured.comparable_eq wholeSource
  have template' := recoloured'.comparable_eq wholeTemplate
  refine SameView.finding ⟨?_, ?_, rfl, untimed.expired untimed' rfl⟩ live
  · rwa [← edges] at source'
  · rw [← edges] at template'
    exact congrArg PreparedTemplate.ofGray template'

/-- A row that is found in its negative by a brighter picture of it. -/
theorem finding_recoloured_negative :
    let row : Frame := ⟨3, 1, .gray, #[10, 20, 200]⟩
    let negative : Frame := ⟨3, 1, .gray, #[245, 235, 55]⟩
    let brighter : Frame := ⟨3, 1, .gray, #[15, 25, 205]⟩
    let q : Quest := ⟨.still 0, row, row, { colorInvariant := true }⟩
    let c : LocationCache := .empty 32 300000
    row.Whole ∧ row.Recoloured negative ∧ row.Recoloured brighter ∧ q.Untimed ∧
      ((q.showing (.still 9) negative brighter).finding c).timeless = (q.finding c).timeless ∧
      (q.finding c).result.found = true := by
  intro row negative brighter q c
  have inverse : row.mapBytes (fun v => 255 - v) = negative := by decide +kernel
  have sum : row.mapBytes (fun v => .ofNat (v.toNat + 5 : ℤ).toNat) = brighter := by
    decide +kernel
  have recoloured : row.Recoloured negative := inverse ▸ .negative rfl
  have recoloured' : row.Recoloured brighter := sum ▸ .shifted 5 rfl (by simp [row])
  have time : 0 < (10000 : UInt64).toNat := by decide
  have untimed : q.Untimed := .inr fun _ => time
  have same : ((q.showing (.still 9) negative brighter).finding c).timeless = (q.finding c).timeless :=
    finding_recoloured q c rfl rfl recoloured recoloured' rfl untimed (.inr fun _ => time) nofun
  exact ⟨rfl, recoloured, recoloured', untimed, same, by decide +kernel⟩

end Quest

end Screenplay
