import Mathlib.Tactic
import Screenplay.Image.Gray

/-!
The length of the data of a frame: all that reads pixels relies on one byte for each channel of
each pixel. The check of packed bytes is made in a word, so that it is right only for dimensions
whose length fits one, whether the program crashes over the others or goes on; frames that come from
such a check have a byte for every pixel that is read.
-/
namespace Screenplay

/-- The values of `k` places for each number below `n`. -/
theorem Array.size_flatMap_range {α : Type} (n k : Nat) (f : Nat → Array α)
    (each : ∀ i < n, (f i).size = k) : ((Array.range n).flatMap f).size = n * k := by
  induction n with
  | zero => rw [Nat.zero_mul]; rfl
  | succ n ih =>
    have before : ((Array.range n).flatMap f).size = n * k := ih fun i below => each i (by omega)
    simp [Array.range_succ, before, each n (by omega), Nat.succ_mul]

theorem PixelFormat.channels_pos (format : PixelFormat) : 0 < format.channels := by
  cases format <;> decide

namespace Frame

variable {width height : UInt32} {format : PixelFormat} {data : Array UInt8} {overflow : Overflow}
  {f : Frame}

/-- The length that dimensions call for, in unbounded arithmetic. -/
def exactSize (width height : UInt32) (format : PixelFormat) : Nat :=
  width.toNat * height.toNat * format.channels

/-- The data has a byte for each channel of each pixel and no more. -/
def Whole (f : Frame) : Prop := f.data.size = exactSize f.width f.height f.format

/-- The pixels of a frame can be counted in a word. -/
theorem area_lt (width height : UInt32) : width.toNat * height.toNat < 2 ^ 64 :=
  calc width.toNat * height.toNat
    _ ≤ (2 ^ 32 - 1) * (2 ^ 32 - 1) := Nat.mul_le_mul (by have := width.toNat_lt; omega)
          (by have := height.toNat_lt; omega)
    _ < 2 ^ 64 := by decide

/-- The check keeps what is left of the length in a word. -/
theorem expectedSize_toNat (width height : UInt32) (format : PixelFormat) :
    (expectedSize width height format).toNat = exactSize width height format % 2 ^ 64 := by
  cases format <;>
    simp [expectedSize, exactSize, PixelFormat.channels, UInt64.toNat_mul, Nat.mod_mul_mod]

theorem sizeFits_iff : sizeFits width height format = true ↔ exactSize width height format < 2 ^ 64 :=
  decide_eq_true_iff

/-- Which bytes are taken for a frame, and for which. -/
theorem ofBytes_eq_ok_iff : ofBytes width height format data overflow = .ok f ↔
    width ≠ 0 ∧ height ≠ 0 ∧ (overflow = .crashes → exactSize width height format < 2 ^ 64) ∧
      data.size = exactSize width height format % 2 ^ 64 ∧ f = { width, height, format, data } := by
  rw [← sizeFits_iff, ofBytes, expectedSize_toNat]
  constructor
  · intro made
    split_ifs at made with empty crashes size
    push Not at empty size
    cases made
    exact ⟨empty.1, empty.2, by simpa using crashes, size, rfl⟩
  · rintro ⟨wide, high, fits, size, rfl⟩
    have large : ¬(overflow = .crashes ∧ (!sizeFits width height format) = true) := by simpa using fits
    rw [if_neg (not_or.mpr ⟨wide, high⟩), if_neg large, if_neg (not_not.mpr size)]

/-- When the check crashes instead of coming to an answer. -/
theorem ofBytes_eq_overflow_iff : ofBytes width height format data overflow = .error .overflow ↔
    overflow = .crashes ∧ width ≠ 0 ∧ height ≠ 0 ∧ 2 ^ 64 ≤ exactSize width height format := by
  have large : (!sizeFits width height format) = true ↔ 2 ^ 64 ≤ exactSize width height format := by
    rw [Bool.not_eq_true', ← Bool.not_eq_true, sizeFits_iff, not_lt]
  rw [← large, ofBytes]
  constructor
  · intro crashed
    split_ifs at crashed with empty crashes size
    · cases crashed
    · push Not at empty
      exact ⟨crashes.1, empty.1, empty.2, crashes.2⟩
    · cases crashed
  · rintro ⟨checked, wide, high, large⟩
    rw [if_neg (not_or.mpr ⟨wide, high⟩), if_pos ⟨checked, large⟩]

/-- Where the length fits a word, the check is the one that is meant. -/
theorem whole_of_ofBytes (fits : exactSize width height format < 2 ^ 64)
    (made : ofBytes width height format data overflow = .ok f) : f.Whole := by
  obtain ⟨-, -, -, size, rfl⟩ := ofBytes_eq_ok_iff.mp made
  rw [Whole, size, Nat.mod_eq_of_lt fits]

/-- The length of a gray frame always fits. -/
theorem whole_of_ofPixels {pixel : Nat → Nat → UInt8}
    (made : ofPixels width height pixel overflow = .ok f) : f.Whole := by
  unfold ofPixels at made
  split at made
  · cases made
  · exact whole_of_ofBytes (by simpa [exactSize, PixelFormat.channels] using area_lt width height) made

/-- Bytes that are enough for a picture are not taken for fewer. -/
theorem whole_of_ofRgba (enough : exactSize width height .rgba ≤ data.size)
    (made : ofRgba width height data overflow = .ok f) : f.Whole := by
  obtain ⟨-, -, -, size, rfl⟩ := ofBytes_eq_ok_iff.mp made
  have at_most : data.size ≤ exactSize width height .rgba := size ▸ Nat.mod_le _ _
  exact Nat.le_antisymm at_most enough

theorem stride_mul_height (f : Frame) :
    f.height.toNat * f.stride = exactSize f.width f.height f.format := by
  simp only [stride, exactSize]
  ring

/-- A stretch of a row inside the frame is there with all its bytes. -/
theorem size_rowBytes (whole : f.Whole) {x y count : Nat} (column : x + count ≤ f.width.toNat)
    (row : y < f.height.toNat) : (f.rowBytes x y count).size = count * f.format.channels := by
  have last : y * f.stride + x * f.format.channels + count * f.format.channels ≤ f.data.size :=
    calc y * f.stride + x * f.format.channels + count * f.format.channels
      _ = y * f.stride + (x + count) * f.format.channels := by ring
      _ ≤ y * f.stride + f.stride := Nat.add_le_add_left (Nat.mul_le_mul_right _ column) _
      _ = (y + 1) * f.stride := by ring
      _ ≤ f.height.toNat * f.stride := Nat.mul_le_mul_right _ row
      _ = f.data.size := by rw [stride_mul_height, whole]
  simp only [rowBytes, Array.size_extract]
  omega

/-- The end of a stretch is told just if the sum fits a word, and then it is the sum. -/
theorem stretchEnd_eq_some_iff {start count stop : UInt32} :
    stretchEnd start count = some stop ↔ stop.toNat = start.toNat + count.toNat := by
  have bound := stop.toNat_lt
  unfold stretchEnd
  split_ifs with fits
  · rw [Option.some_inj, ← UInt32.toNat_inj, UInt32.toNat_add, Nat.mod_eq_of_lt fits, eq_comm]
  · constructor
    · intro told
      cases told
    · intro sum
      change ¬ start.toNat + count.toNat < 2 ^ 32 at fits
      omega

/-- An end that no word can tell lies outside every frame. -/
theorem lt_of_stretchEnd_none {start count : UInt32} (none_told : stretchEnd start count = none)
    (side : UInt32) : side.toNat < start.toNat + count.toNat := by
  have bound := side.toNat_lt
  unfold stretchEnd at none_told
  split at none_told
  · cases none_told
  next large =>
    change ¬ start.toNat + count.toNat < 2 ^ 32 at large
    omega

/-- The checked ends ask the same of a rectangle as unbounded sums. -/
theorem crop_eq (f : Frame) (x y width height : UInt32) : f.crop x y width height =
    if width = 0 ∨ height = 0 ∨ f.width.toNat < x.toNat + width.toNat
        ∨ f.height.toNat < y.toNat + height.toNat then none
    else some
      { width, height, format := f.format
        data := (Array.range height.toNat).flatMap fun row =>
          f.rowBytes x.toNat (y.toNat + row) width.toNat } := by
  unfold crop
  by_cases empty : width = 0 ∨ height = 0
  · rw [if_pos empty, if_pos (by tauto)]
  rw [if_neg empty]
  rcases right : stretchEnd x width with _ | stop
  · rw [if_pos (.inr (.inr (.inl (lt_of_stretchEnd_none right _))))]
    rfl
  rcases below : stretchEnd y height with _ | last
  · rw [if_pos (.inr (.inr (.inr (lt_of_stretchEnd_none below _))))]
    rfl
  have ends : (stop ≤ f.width ∧ last ≤ f.height) ↔ ¬ (width = 0 ∨ height = 0 ∨
      f.width.toNat < x.toNat + width.toNat ∨ f.height.toNat < y.toNat + height.toNat) := by
    rw [UInt32.le_iff_toNat_le, UInt32.le_iff_toNat_le, stretchEnd_eq_some_iff.mp right,
      stretchEnd_eq_some_iff.mp below, ← not_lt, ← not_lt]
    tauto
  by_cases inside : stop ≤ f.width ∧ last ≤ f.height
  · rw [if_neg (ends.mp inside)]
    simp only [bind, Option.bind_some, guard, if_pos inside, pure]
  · rw [if_pos (not_not.mp (mt ends.mpr inside))]
    simp only [bind, Option.bind_some, guard, if_neg inside, failure]
    rfl

theorem whole_of_crop {part : Frame} {x y : UInt32} (whole : f.Whole)
    (made : f.crop x y width height = some part) : part.Whole := by
  rw [crop_eq] at made
  split at made
  · cases made
  · rename_i inside
    push Not at inside
    obtain ⟨-, -, right, bottom⟩ := inside
    cases made
    have each : ∀ i < height.toNat, (f.rowBytes x.toNat (y.toNat + i) width.toNat).size =
        width.toNat * f.format.channels := fun i below => size_rowBytes whole right (by omega)
    simp only [Whole, exactSize, Array.size_flatMap_range _ _ _ each]
    ring

/-- How a frame comes about. Packed bytes are for dimensions whose length fits a word, unless the program
crashes over others; a decoded picture has at least the bytes of its pixels. -/
inductive Obtained : Frame → Prop
  | bytes {width height : UInt32} {format : PixelFormat} {data : Array UInt8} {overflow : Overflow}
      {f : Frame} (fits : overflow = .wraps → exactSize width height format < 2 ^ 64)
      (made : ofBytes width height format data overflow = .ok f) : Obtained f
  | pixels {width height : UInt32} {pixel : Nat → Nat → UInt8} {overflow : Overflow} {f : Frame}
      (made : ofPixels width height pixel overflow = .ok f) : Obtained f
  | rgba {width height : UInt32} {data : Array UInt8} {overflow : Overflow} {f : Frame}
      (enough : exactSize width height .rgba ≤ data.size)
      (made : ofRgba width height data overflow = .ok f) : Obtained f
  | crop {f part : Frame} {x y width height : UInt32} (source : Obtained f)
      (made : f.crop x y width height = some part) : Obtained part

theorem Obtained.whole (obtained : f.Obtained) : f.Whole := by
  induction obtained with
  | @bytes width height format data overflow f fits made =>
    cases overflow with
    | wraps => exact whole_of_ofBytes (fits rfl) made
    | crashes => exact whole_of_ofBytes ((ofBytes_eq_ok_iff.mp made).2.2.1 rfl) made
  | pixels made => exact whole_of_ofPixels made
  | rgba enough made => exact whole_of_ofRgba enough made
  | crop _ made ih => exact whole_of_crop ih made

/-- The brightness of a whole frame has one byte for each pixel. -/
theorem size_toGray (whole : f.Whole) : f.toGray.data.size = f.width.toNat * f.height.toNat := by
  have pixels : f.pixelCount = f.width.toNat * f.height.toNat := by
    rw [pixelCount, whole, exactSize, Nat.mul_div_cancel _ f.format.channels_pos]
  unfold toGray
  split
  · rename_i gray
    rw [whole, exactSize, gray, PixelFormat.channels, Nat.mul_one]
  all_goals simp [pixels]

theorem toGray_in_range (whole : f.Whole) {x y : Nat} (column : x < f.width.toNat)
    (row : y < f.height.toNat) : y * f.toGray.width + x < f.toGray.data.size :=
  calc y * f.toGray.width + x
    _ < y * f.width.toNat + f.width.toNat := Nat.add_lt_add_left column _
    _ = (y + 1) * f.width.toNat := by ring
    _ ≤ f.height.toNat * f.width.toNat := Nat.mul_le_mul_right _ row
    _ = f.toGray.data.size := by rw [size_toGray whole, Nat.mul_comm]

/-- What the check of packed bytes is meant for: it comes to an answer, and it takes the bytes for a frame
just if no dimension is 0 and there is one byte for each channel of each pixel. -/
def Judges (overflow : Overflow) (width height : UInt32) (format : PixelFormat) (data : Array UInt8) :
    Prop :=
  ofBytes width height format data overflow ≠ .error .overflow ∧
    ((∃ f, ofBytes width height format data overflow = .ok f) ↔
      width ≠ 0 ∧ height ≠ 0 ∧ data.size = exactSize width height format)

/-- Where the length does not fit a word, the check crashes or takes a shorter one for it and refuses the
exact one. -/
theorem not_judges_iff : ¬ Judges overflow width height format data ↔
    width ≠ 0 ∧ height ≠ 0 ∧ 2 ^ 64 ≤ exactSize width height format ∧
      (overflow = .crashes ∨ data.size = exactSize width height format % 2 ^ 64 ∨
        data.size = exactSize width height format) := by
  have taken : (∃ f, ofBytes width height format data overflow = .ok f) ↔ width ≠ 0 ∧ height ≠ 0 ∧
      (overflow = .crashes → exactSize width height format < 2 ^ 64) ∧
      data.size = exactSize width height format % 2 ^ 64 := by
    simp [ofBytes_eq_ok_iff]
  rw [Judges, taken, ne_eq, ofBytes_eq_overflow_iff]
  rcases Nat.lt_or_ge (exactSize width height format) (2 ^ 64) with fits | wraps
  · have none_wrap : ¬2 ^ 64 ≤ exactSize width height format := Nat.not_le.mpr fits
    rw [Nat.mod_eq_of_lt fits]
    tauto
  · have shorter : exactSize width height format % 2 ^ 64 ≠ exactSize width height format :=
      ((Nat.mod_lt _ (by decide)).trans_le wraps).ne
    have none_fit : ¬exactSize width height format < 2 ^ 64 := Nat.not_lt.mpr wraps
    by_cases left : data.size = exactSize width height format % 2 ^ 64
    · rw [left]
      tauto
    · tauto

/-- The check of packed bytes goes wrong just for the dimensions whose length does not fit a word: it
crashes over them, or goes on with what is left of the length and misjudges data of that length and data
of the exact one. A frame that did not come from such a check is whole, and each of its pixels has its
brightness. -/
theorem size_misjudged_iff (overflow : Overflow) (width height : UInt32) (format : PixelFormat)
    (data : Array UInt8) :
    (¬ Judges overflow width height format data ↔
      width ≠ 0 ∧ height ≠ 0 ∧ 2 ^ 64 ≤ exactSize width height format ∧
        (overflow = .crashes ∨ data.size = exactSize width height format % 2 ^ 64 ∨
          data.size = exactSize width height format)) ∧
    ∀ f : Frame, f.Obtained → f.data.size = exactSize f.width f.height f.format ∧
      ∀ x < f.width.toNat, ∀ y < f.height.toNat,
        y * f.toGray.width + x < f.toGray.data.size := by
  refine ⟨not_judges_iff, fun f obtained => ?_⟩
  have whole : f.Whole := obtained.whole
  exact ⟨whole, fun x column y row => toGray_in_range whole column row⟩

/-- The right pixel of a row of two. -/
theorem size_misjudged_right_pixel :
    let row : Frame := ⟨2, 1, .gray, #[10, 200]⟩
    let right : Frame := ⟨1, 1, .gray, #[200]⟩
    row.crop 1 0 1 1 = some right ∧ right.Obtained ∧ right.data.size = 1 ∧
      0 * right.toGray.width + 0 < right.toGray.data.size := by
  intro row right
  have made : ofPixels 2 1 (fun x _ => if x = 0 then 10 else 200) = .ok row := by decide +kernel
  have cropped : row.crop 1 0 1 1 = some right := by decide
  have obtained : right.Obtained := .crop (.pixels made) cropped
  obtain ⟨size, inside⟩ := (size_misjudged_iff .wraps 1 1 .gray #[200]).2 right obtained
  exact ⟨cropped, obtained, size, inside 0 (by decide) 0 (by decide)⟩

/-- Of four times 2^62 bytes nothing is left in a word. The check crashes over them, or it takes no bytes
at all for them, and the frame has no brightness anywhere. -/
theorem size_misjudged_empty :
    let f : Frame := ⟨2147483648, 2147483648, .rgba, #[]⟩
    ofBytes 2147483648 2147483648 .rgba #[] .crashes = .error .overflow ∧
      ofBytes 2147483648 2147483648 .rgba #[] .wraps = .ok f ∧
      (∀ overflow, ¬ Judges overflow 2147483648 2147483648 .rgba #[]) ∧
      f.data.size ≠ exactSize f.width f.height f.format ∧
      ¬0 * f.toGray.width + 0 < f.toGray.data.size := by
  intro f
  have crashes : ofBytes 2147483648 2147483648 .rgba #[] .crashes = .error .overflow := by decide
  have made : ofBytes 2147483648 2147483648 .rgba #[] .wraps = .ok f := by decide
  refine ⟨crashes, made, ?_, by decide, by decide +kernel⟩
  rintro (_ | _) ⟨answers, agree⟩
  · exact absurd (agree.mp ⟨f, made⟩).2.2 (by decide)
  · exact answers crashes

end Frame

end Screenplay
