import Screenplay.Proofs.FrameSize

/-!
What a part of a frame shows. A rectangle that was cut out with all its bytes has at each of its pixels
the bytes of the pixel of the frame from which it was taken, and so it has its brightness, too: the
brightness of the part is cut out of the brightness of the frame (`Frame.toGray_cutFrom`).
-/
namespace Screenplay

/-! ### Rows of equal length in one array -/

section
variable {α : Type} {n k i j : Nat} {f : Nat → Array α}

/-- A value of one of the rows that follow each other. -/
theorem Array.getElem?_flatMap_range (each : ∀ i < n, (f i).size = k) (row : i < n)
    (column : j < k) : ((Array.range n).flatMap f)[i * k + j]? = (f i)[j]? := by
  induction n with
  | zero => omega
  | succ n ih =>
    have before : ((Array.range n).flatMap f).size = n * k :=
      Array.size_flatMap_range n k f fun i below => each i (by omega)
    rw [Array.range_succ, Array.flatMap_append, Array.flatMap_singleton]
    rcases Nat.lt_or_eq_of_le (Nat.le_of_lt_succ row) with earlier | rfl
    · have inside : i * k + j < n * k :=
        calc i * k + j
          _ < i * k + k := Nat.add_lt_add_left column _
          _ = (i + 1) * k := by ring
          _ ≤ n * k := Nat.mul_le_mul_right _ earlier
      rw [Array.getElem?_append_left (by omega)]
      exact ih (fun i below => each i (by omega)) earlier
    · rw [Array.getElem?_append_right (by omega), before, Nat.add_sub_cancel_left]

theorem Array.size_flatMap_range_le (most : ∀ i < n, (f i).size ≤ k) :
    ((Array.range n).flatMap f).size ≤ n * k := by
  induction n with
  | zero => rw [Nat.zero_mul]; rfl
  | succ n ih =>
    have before := ih fun i below => most i (by omega)
    have last := most n n.lt_succ_self
    rw [Array.range_succ, Array.flatMap_append, Array.flatMap_singleton, Array.size_append,
      Nat.succ_mul]
    exact Nat.add_le_add before last

/-- Rows that are not too long and together long enough are all of full length. -/
theorem Array.size_of_size_flatMap_range (most : ∀ i < n, (f i).size ≤ k)
    (full : ((Array.range n).flatMap f).size = n * k) (row : i < n) : (f i).size = k := by
  induction n with
  | zero => omega
  | succ n ih =>
    have most' : ∀ i < n, (f i).size ≤ k := fun i below => most i (by omega)
    have before := Array.size_flatMap_range_le most'
    have last := most n n.lt_succ_self
    rw [Array.range_succ, Array.flatMap_append, Array.flatMap_singleton, Array.size_append,
      Nat.succ_mul] at full
    rcases Nat.lt_or_eq_of_le (Nat.le_of_lt_succ row) with earlier | rfl
    · exact ih most' (by omega) earlier
    · omega

end

/-! ### Pixels -/

namespace Frame

variable {f part : Frame} {x y width height : UInt32}

/-- The brightness of a pixel; pixels are numbered row by row. -/
def brightness (f : Frame) (pixel : Nat) : UInt8 :=
  match f.format with
  | .gray => f.byte pixel 0
  | .rgb | .rgba => luminosity (f.byte pixel 0) (f.byte pixel 1) (f.byte pixel 2)

theorem toGray_get {x y : Nat} (there : y * f.width.toNat + x < f.pixelCount) :
    f.toGray.get x y = f.brightness (y * f.width.toNat + x) := by
  unfold toGray brightness GrayBuffer.get
  cases format : f.format with
  | gray => simp [byte, format, PixelFormat.channels]
  | rgb | rgba => simp [there]

/-- A part that is there has the format of the frame and lies inside it. -/
theorem crop_inside (made : f.crop x y width height = some part) :
    part.width = width ∧ part.height = height ∧ part.format = f.format ∧
      (0 < width.toNat ∧ 0 < height.toNat) ∧
      x.toNat + width.toNat ≤ f.width.toNat ∧ y.toNat + height.toNat ≤ f.height.toNat := by
  rw [crop_eq] at made
  split at made
  · cases made
  next inside =>
    cases made
    push Not at inside
    obtain ⟨wide, high, right, below⟩ := inside
    refine ⟨rfl, rfl, rfl, ⟨?_, ?_⟩, right, below⟩
    · exact Nat.pos_of_ne_zero fun none => wide (UInt32.toNat_inj.mp none)
    · exact Nat.pos_of_ne_zero fun none => high (UInt32.toNat_inj.mp none)

theorem crop_data (made : f.crop x y width height = some part) :
    part.data = (Array.range height.toNat).flatMap fun row =>
      f.rowBytes x.toNat (y.toNat + row) width.toNat := by
  rw [crop_eq] at made
  split at made
  · cases made
  · cases made
    rfl

/-- If no byte of the part is missing, each of its rows is there. -/
theorem size_rowBytes_of_crop (made : f.crop x y width height = some part) (whole : part.Whole)
    {row : Nat} (below : row < height.toNat) :
    (f.rowBytes x.toNat (y.toNat + row) width.toNat).size = width.toNat * f.format.channels := by
  obtain ⟨partWidth, partHeight, format, -⟩ := crop_inside made
  have full : ((Array.range height.toNat).flatMap fun row =>
      f.rowBytes x.toNat (y.toNat + row) width.toNat).size =
        height.toNat * (width.toNat * f.format.channels) := by
    rw [← crop_data made, whole, exactSize, partWidth, partHeight, format]
    ring
  refine Array.size_of_size_flatMap_range (f := fun row => f.rowBytes x.toNat (y.toNat + row) _)
    (fun row _ => ?_) full below
  simp only [rowBytes, Array.size_extract]
  omega

/-- A channel of one of `count` pixels is among their bytes. -/
theorem channel_inRow (f : Frame) {column count channel : Nat} (right : column < count)
    (among : channel < f.format.channels) :
    column * f.format.channels + channel < count * f.format.channels :=
  calc column * f.format.channels + channel
    _ < column * f.format.channels + f.format.channels := Nat.add_lt_add_left among _
    _ = (column + 1) * f.format.channels := by ring
    _ ≤ count * f.format.channels := Nat.mul_le_mul_right _ right

/-- The bytes of a row of the part are a stretch of those of the row of the frame. -/
theorem getElem?_crop (made : f.crop x y width height = some part) (whole : part.Whole) {row i : Nat}
    (below : row < height.toNat) (inRow : i < width.toNat * f.format.channels) :
    part.data[row * part.stride + i]? =
      f.data[(y.toNat + row) * f.stride + x.toNat * f.format.channels + i]? := by
  obtain ⟨partWidth, -, format, -⟩ := crop_inside made
  have full : ∀ row < height.toNat, (f.rowBytes x.toNat (y.toNat + row) width.toNat).size =
      width.toNat * f.format.channels := fun _ below => size_rowBytes_of_crop made whole below
  have size := full row below
  simp only [rowBytes, Array.size_extract] at size
  rw [stride, partWidth, format, crop_data made, Array.getElem?_flatMap_range full below inRow,
    rowBytes, Array.getElem?_extract, if_pos (by omega)]

/-- The number of the pixel of the frame from which a pixel of the part was taken. -/
def origin (f : Frame) (x y : UInt32) (column row : Nat) : Nat :=
  (y.toNat + row) * f.width.toNat + (x.toNat + column)

theorem origin_mul_channels (f : Frame) (x y : UInt32) (column row : Nat) :
    f.origin x y column row * f.format.channels =
      (y.toNat + row) * f.stride + x.toNat * f.format.channels + column * f.format.channels := by
  rw [origin, stride]
  ring

section
variable (made : f.crop x y width height = some part) (whole : part.Whole) {column row : Nat}
  (right : column < width.toNat) (below : row < height.toNat)
include made whole right below

/-- A part without missing bytes was taken from pixels that are there. -/
theorem origin_lt : f.origin x y column row < f.pixelCount := by
  have size := size_rowBytes_of_crop made whole below
  simp only [rowBytes, Array.size_extract] at size
  have within : (column + 1) * f.format.channels ≤ width.toNat * f.format.channels :=
    Nat.mul_le_mul_right _ right
  rw [Nat.succ_mul] at within
  have pos := f.format.channels_pos
  refine (Nat.le_div_iff_mul_le pos).mpr ?_
  rw [Nat.succ_mul, origin_mul_channels]
  omega

/-- The bytes of a pixel of the part are those of the pixel of the frame. -/
theorem byte_crop {channel : Nat} (among : channel < f.format.channels) :
    part.byte (row * width.toNat + column) channel =
      f.byte (f.origin x y column row) channel := by
  obtain ⟨partWidth, -, format, -⟩ := crop_inside made
  have inRow := f.channel_inRow right among
  have place : (row * width.toNat + column) * f.format.channels + channel =
      row * part.stride + (column * f.format.channels + channel) := by
    rw [stride, partWidth, format]
    ring
  rw [byte, byte, Array.getD_eq_getD_getElem?, Array.getD_eq_getD_getElem?, format, place,
    getElem?_crop made whole below inRow, origin_mul_channels]
  simp only [Nat.add_assoc]

theorem brightness_crop :
    part.brightness (row * width.toNat + column) = f.brightness (f.origin x y column row) := by
  obtain ⟨-, -, format, -⟩ := crop_inside made
  have bytes : ∀ channel < f.format.channels, part.byte (row * width.toNat + column) channel =
      f.byte (f.origin x y column row) channel := fun _ => byte_crop made whole right below
  rw [brightness, brightness, format]
  cases given : f.format with
  | gray => exact bytes 0 (by rw [given]; decide)
  | rgb | rgba =>
    have colours : 3 ≤ f.format.channels := by rw [given]; decide
    dsimp only
    rw [bytes 0 (by omega), bytes 1 (by omega), bytes 2 (by omega)]

end

/-- A frame without missing bytes has all its pixels. -/
theorem Whole.pixel_lt (whole : f.Whole) {x y : Nat} (column : x < f.width.toNat)
    (row : y < f.height.toNat) : y * f.width.toNat + x < f.pixelCount := by
  have inside := toGray_in_range whole column row
  rw [size_toGray whole] at inside
  rwa [pixelCount, whole, exactSize, Nat.mul_div_cancel _ f.format.channels_pos]

end Frame

/-! ### Brightness -/

/-- The part shows what the whole picture shows from `(x, y)` on. -/
structure GrayBuffer.CutFrom (part whole : GrayBuffer) (x y : Nat) : Prop where
  right : x + part.width ≤ whole.width
  below : y + part.height ≤ whole.height
  pixel : ∀ column < part.width, ∀ row < part.height,
    part.get column row = whole.get (x + column) (y + row)

/-- The brightness of a part without missing bytes is cut out of the brightness of the frame. -/
theorem Frame.toGray_cutFrom {f part : Frame} {x y width height : UInt32}
    (made : f.crop x y width height = some part) (whole : part.Whole) :
    part.toGray.CutFrom f.toGray x.toNat y.toNat := by
  obtain ⟨rfl, rfl, format, -, right, below⟩ := crop_inside made
  refine ⟨right, below, fun column inColumns row inRows => ?_⟩
  change column < part.width.toNat at inColumns
  change row < part.height.toNat at inRows
  rw [toGray_get (whole.pixel_lt inColumns inRows),
    toGray_get (origin_lt made whole inColumns inRows), brightness_crop made whole inColumns inRows,
    origin]

end Screenplay
