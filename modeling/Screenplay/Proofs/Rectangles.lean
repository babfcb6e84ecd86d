import Mathlib.Tactic.Push
import Mathlib.Tactic.Ring
import Screenplay.Proofs.Cropping

/-!
Rectangles of a frame. A rectangle can be cut out exactly if it has pixels and lies inside the frame, and
the part is well formed again. It has every channel of each of its pixels from the frame, so that its
brightness is the same rectangle of the brightness of the frame (`Frame.toGray_crop`), and to cut a
rectangle out of a part is to cut it out of the frame (`Frame.crop_crop`).
-/
namespace Screenplay

/-! ### Brightness -/

namespace GrayBuffer

/-- The values inside a rectangle. -/
def window (g : GrayBuffer) (x y width height : Nat) : GrayBuffer :=
  { width, height
    data := (Array.range height).flatMap fun row =>
      (Array.range width).map fun column => g.get (x + column) (y + row) }

variable {g g' : GrayBuffer} {x y width height : Nat}

theorem size_window (g : GrayBuffer) (x y width height : Nat) :
    (g.window x y width height).data.size = width * height := by
  have each : ∀ row < height,
      ((Array.range width).map fun column => g.get (x + column) (y + row)).size = width := by simp
  rw [window, Array.size_flatMap_range height width _ each, Nat.mul_comm]

theorem window_get {column row : Nat} (right : column < width) (below : row < height) :
    (g.window x y width height).get column row = g.get (x + column) (y + row) := by
  have each : ∀ row < height,
      ((Array.range width).map fun column => g.get (x + column) (y + row)).size = width := by simp
  change (g.window x y width height).data.getD (row * width + column) 0 = _
  rw [Array.getD_eq_getD_getElem?, window, Array.getElem?_flatMap_range each below right]
  simp [right]

/-- Two pictures of the same size with a value for each pixel are told apart by a pixel. -/
theorem eq_of_get (wide : g.width = g'.width) (high : g.height = g'.height)
    (full : g.data.size = g.width * g.height) (full' : g'.data.size = g'.width * g'.height)
    (same : ∀ column < g.width, ∀ row < g.height, g.get column row = g'.get column row) : g = g' := by
  obtain ⟨w, h, data⟩ := g
  obtain ⟨w', h', data'⟩ := g'
  dsimp only at wide high full full' same
  subst wide high
  have sizes : data.size = data'.size := full.trans full'.symm
  suffices data = data' by rw [this]
  refine Array.ext sizes fun i inside inside' => ?_
  have some : 0 < w := Nat.pos_of_ne_zero fun none => by simp [full, none] at inside
  have row : i / w < h := Nat.div_lt_of_lt_mul (full ▸ inside)
  have place : i / w * w + i % w = i := Nat.div_add_mod' i w
  have pixel := same (i % w) (Nat.mod_lt i some) (i / w) row
  change data.getD (i / w * w + i % w) 0 = data'.getD (i / w * w + i % w) 0 at pixel
  rw [place, Array.getD_eq_getD_getElem?, Array.getD_eq_getD_getElem?,
    Array.getElem?_eq_getElem inside, Array.getElem?_eq_getElem inside'] at pixel
  exact pixel

end GrayBuffer

namespace Frame

variable {f part : Frame} {x y width height : UInt32}

/-- A frame as its makers promise it: it has pixels, and a byte for each channel of each of them. -/
structure WellFormed (f : Frame) : Prop where
  wide : f.width ≠ 0
  high : f.height ≠ 0
  whole : f.Whole

theorem crop_isSome_iff : (f.crop x y width height).isSome ↔
    width ≠ 0 ∧ height ≠ 0 ∧ x.toNat + width.toNat ≤ f.width.toNat ∧
      y.toNat + height.toNat ≤ f.height.toNat := by
  rw [crop_eq]
  split_ifs with outside
  · constructor
    · intro there
      cases there
    · rintro ⟨wide, high, right, below⟩
      rcases outside with none | none | past | past
      · exact absurd none wide
      · exact absurd none high
      · exact absurd right (Nat.not_le.mpr past)
      · exact absurd below (Nat.not_le.mpr past)
  · push Not at outside
    exact ⟨fun _ => outside, fun _ => rfl⟩

theorem WellFormed.crop (sound : f.WellFormed) (made : f.crop x y width height = some part) :
    part.WellFormed := by
  obtain ⟨wide, high, -⟩ := crop_isSome_iff.mp (Option.isSome_of_eq_some made)
  obtain ⟨rfl, rfl, -⟩ := crop_inside made
  exact ⟨wide, high, whole_of_crop sound.whole made⟩

/-! ### Pixels -/

/-- The byte of a channel of the pixel at a position. -/
def channelAt? (f : Frame) (x y channel : Nat) : Option UInt8 :=
  f.data[y * f.stride + x * f.format.channels + channel]?

theorem Whole.channelAt?_isSome (whole : f.Whole) {x y channel : Nat} (column : x < f.width.toNat)
    (row : y < f.height.toNat) (among : channel < f.format.channels) :
    (f.channelAt? x y channel).isSome := by
  have inside : y * f.stride + x * f.format.channels + channel < f.data.size :=
    calc y * f.stride + x * f.format.channels + channel
      _ = y * f.stride + (x * f.format.channels + channel) := Nat.add_assoc _ _ _
      _ < y * f.stride + f.stride := Nat.add_lt_add_left (f.channel_inRow column among) _
      _ = (y + 1) * f.stride := by ring
      _ ≤ f.height.toNat * f.stride := Nat.mul_le_mul_right _ row
      _ = f.data.size := by rw [stride_mul_height, whole]
  rw [channelAt?, Array.getElem?_eq_getElem inside]
  rfl

/-- A pixel of the part has each channel from the pixel of the frame. -/
theorem channelAt?_crop (made : f.crop x y width height = some part) (whole : part.Whole)
    {column row channel : Nat} (right : column < width.toNat) (below : row < height.toNat)
    (among : channel < f.format.channels) :
    part.channelAt? column row channel =
      f.channelAt? (x.toNat + column) (y.toNat + row) channel := by
  obtain ⟨-, -, format, -⟩ := crop_inside made
  have inRow := f.channel_inRow right among
  have place : (y.toNat + row) * f.stride + (x.toNat + column) * f.format.channels + channel =
      (y.toNat + row) * f.stride + x.toNat * f.format.channels +
        (column * f.format.channels + channel) := by ring
  rw [channelAt?, channelAt?, place, format, Nat.add_assoc, getElem?_crop made whole below inRow]

/-- The brightness of the part is the same rectangle of the brightness of the frame. -/
theorem toGray_crop (made : f.crop x y width height = some part) (whole : part.Whole) :
    part.toGray = f.toGray.window x.toNat y.toNat width.toNat height.toNat := by
  have cut := toGray_cutFrom made whole
  obtain ⟨rfl, rfl, -⟩ := crop_inside made
  refine GrayBuffer.eq_of_get rfl rfl (size_toGray whole) (GrayBuffer.size_window _ _ _ _ _) ?_
  intro column right row below
  rw [cut.pixel column right row below]
  exact (GrayBuffer.window_get right below).symm

/-! ### Parts of parts -/

theorem getElem?_rowBytes {x y count i : Nat} (inside : i < count * f.format.channels) :
    (f.rowBytes x y count)[i]? = f.data[y * f.stride + x * f.format.channels + i]? := by
  rw [rowBytes, Array.getElem?_extract]
  split_ifs with there
  · rfl
  · exact (Array.getElem?_eq_none (by omega)).symm

theorem size_rowBytes_le (f : Frame) (x y count : Nat) :
    (f.rowBytes x y count).size ≤ count * f.format.channels := by
  simp only [rowBytes, Array.size_extract]
  omega

/-- A stretch of a row of the part is one of a row of the frame. -/
theorem rowBytes_crop (made : f.crop x y width height = some part) (whole : part.Whole)
    {start row count : Nat} (right : start + count ≤ width.toNat) (below : row < height.toNat) :
    part.rowBytes start row count = f.rowBytes (x.toNat + start) (y.toNat + row) count := by
  obtain ⟨-, -, format, -⟩ := crop_inside made
  have within : (start + count) * f.format.channels ≤ width.toNat * f.format.channels :=
    Nat.mul_le_mul_right _ right
  rw [Nat.add_mul] at within
  refine Array.ext_getElem? fun i => ?_
  rcases Nat.lt_or_ge i (count * f.format.channels) with inside | beyond
  · have bytes := getElem?_crop made whole below (i := start * f.format.channels + i) (by omega)
    have place : (y.toNat + row) * f.stride + (x.toNat + start) * f.format.channels + i =
        (y.toNat + row) * f.stride + x.toNat * f.format.channels +
          (start * f.format.channels + i) := by ring
    rw [getElem?_rowBytes (by rw [format]; exact inside), getElem?_rowBytes inside, place, format,
      Nat.add_assoc, bytes]
  · have shorter := part.size_rowBytes_le start row count
    have shorter' := f.size_rowBytes_le (x.toNat + start) (y.toNat + row) count
    rw [format] at shorter
    rw [Array.getElem?_eq_none (shorter.trans beyond), Array.getElem?_eq_none (shorter'.trans beyond)]

/-- What is cut out of a part is cut out of the frame at the sum of the two places. -/
theorem crop_crop (made : f.crop x y width height = some part) (whole : part.Whole)
    {a b width' height' : UInt32} {inner : Frame}
    (again : part.crop a b width' height' = some inner) :
    (x + a).toNat = x.toNat + a.toNat ∧ (y + b).toNat = y.toNat + b.toNat ∧
      f.crop (x + a) (y + b) width' height' = some inner := by
  obtain ⟨partWidth, partHeight, partFormat, -, right, below⟩ := crop_inside made
  obtain ⟨innerWidth, innerHeight, innerFormat, ⟨wide, high⟩, right', below'⟩ := crop_inside again
  rw [partWidth] at right'
  rw [partHeight] at below'
  have column : (x + a).toNat = x.toNat + a.toNat := by
    have bound := f.width.toNat_lt
    rw [UInt32.toNat_add, Nat.mod_eq_of_lt (by omega)]
  have row : (y + b).toNat = y.toNat + b.toNat := by
    have bound := f.height.toNat_lt
    rw [UInt32.toNat_add, Nat.mod_eq_of_lt (by omega)]
  refine ⟨column, row, ?_⟩
  have data : inner.data = (Array.range height'.toNat).flatMap fun i =>
      f.rowBytes (x + a).toNat ((y + b).toNat + i) width'.toNat := by
    rw [crop_data again, column, row, Array.flatMap_def, Array.flatMap_def]
    refine congrArg Array.flatten (Array.map_congr_left fun i inRows => ?_)
    have inRows : i < height'.toNat := Array.mem_range.mp inRows
    rw [rowBytes_crop made whole right' (by omega), Nat.add_assoc]
  have inside : ¬ (width' = 0 ∨ height' = 0 ∨ f.width.toNat < (x + a).toNat + width'.toNat ∨
      f.height.toNat < (y + b).toNat + height'.toNat) := by
    rintro (none | none | past | past)
    · rw [none] at wide
      cases wide
    · rw [none] at high
      cases high
    · omega
    · omega
  rw [crop_eq, if_neg inside, ← data, ← innerWidth, ← innerHeight, ← partFormat, ← innerFormat]

/-- A rectangle of a well-formed frame can be cut out just if it has pixels and lies inside, told by
unbounded sums. The part then has its pixels and brightness from the frame, is well formed, and its own
parts are parts of the frame. -/
theorem crop_rectangle (f : Frame) (sound : f.WellFormed) (x y width height : UInt32) :
    ((f.crop x y width height).isSome ↔ width ≠ 0 ∧ height ≠ 0 ∧
      x.toNat + width.toNat ≤ f.width.toNat ∧ y.toNat + height.toNat ≤ f.height.toNat) ∧
    ∀ part, f.crop x y width height = some part →
      part.width = width ∧ part.height = height ∧ part.format = f.format ∧
      (∀ column < width.toNat, ∀ row < height.toNat, ∀ channel < f.format.channels,
        ∃ value, part.channelAt? column row channel = some value ∧
          f.channelAt? (x.toNat + column) (y.toNat + row) channel = some value) ∧
      part.toGray = f.toGray.window x.toNat y.toNat width.toNat height.toNat ∧
      part.WellFormed ∧
      ∀ (a b width' height' : UInt32) (inner : Frame), part.crop a b width' height' = some inner →
        (x + a).toNat = x.toNat + a.toNat ∧ (y + b).toNat = y.toNat + b.toNat ∧
          f.crop (x + a) (y + b) width' height' = some inner := by
  refine ⟨crop_isSome_iff, fun part made => ?_⟩
  have soundPart := sound.crop made
  obtain ⟨partWidth, partHeight, format, -⟩ := crop_inside made
  refine ⟨partWidth, partHeight, format, ?_, toGray_crop made soundPart.whole, soundPart, ?_⟩
  · intro column right row below channel among
    have there : (part.channelAt? column row channel).isSome := soundPart.whole.channelAt?_isSome
      (by rw [partWidth]; exact right) (by rw [partHeight]; exact below) (by rw [format]; exact among)
    obtain ⟨value, shown⟩ := Option.isSome_iff_exists.mp there
    refine ⟨value, shown, ?_⟩
    rw [← channelAt?_crop made soundPart.whole right below among, shown]
  · intro a b width' height' inner again
    exact crop_crop made soundPart.whole again

/-- The right half of two rows in red, green and blue, and its lower pixel. -/
theorem crop_rectangle_lower_right :
    let f : Frame := ⟨2, 2, .rgb, #[1, 2, 3, 4, 5, 6, 7, 8, 9, 10, 11, 12]⟩
    let right : Frame := ⟨1, 2, .rgb, #[4, 5, 6, 10, 11, 12]⟩
    let lower : Frame := ⟨1, 1, .rgb, #[10, 11, 12]⟩
    f.WellFormed ∧ f.crop 1 0 1 2 = some right ∧ right.crop 0 1 1 1 = some lower ∧
      f.crop (1 + 0) (0 + 1) 1 1 = some lower ∧ right.WellFormed ∧
      right.toGray = f.toGray.window 1 0 1 2 ∧ ¬ (f.crop 1 0 4294967295 1).isSome := by
  intro f right lower
  have sound : f.WellFormed := ⟨by decide, by decide, rfl⟩
  have made : f.crop 1 0 1 2 = some right := by decide
  have again : right.crop 0 1 1 1 = some lower := by decide
  obtain ⟨-, -, -, -, gray, soundRight, inner⟩ := (crop_rectangle f sound 1 0 1 2).2 right made
  have large : ¬ (f.crop 1 0 4294967295 1).isSome := by
    rw [(crop_rectangle f sound 1 0 4294967295 1).1]
    decide
  exact ⟨sound, made, again, (inner 0 1 1 1 lower again).2.2, soundRight, gray, large⟩

end Frame

end Screenplay
