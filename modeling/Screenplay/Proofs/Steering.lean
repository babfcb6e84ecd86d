import Mathlib
import Screenplay.Device.Desktop
import Screenplay.Proofs.Rounding

/-!
The way of a drag. Each part of it is rounded to a whole number next to it (`Desktop.dragPart_near`).
From that alone a drag goes on to its end without going back or past it, as long as the way itself is a
whole number of 32 bits; whether it is decides it all (`Desktop.steady_iff`).
-/
namespace Screenplay

open Float.Model.UnpackedFloat (Sign)
open Binary64 (Full Normal magnitude fill)

namespace Desktop

/-- A part of a drag as a double. -/
structure Tenth (t m : Nat) (e : Int) : Prop where
  normal : Normal (Float.ofNat t / Float.ofNat dragSteps) .positive m e
  least : -56 ≤ e
  greatest : e ≤ -52
  near : |magnitude m e - t / 10| ≤ 1 / 2 ^ 50

/-- A division that comes to the nearest double. -/
theorem tenth_near {t f : Nat} (full : Full ((t * 2 ^ f + 5) / 10)) (fits : 52 ≤ f ∧ f ≤ 56)
    (parts : (Float.ofNat t / Float.ofNat dragSteps).toModel.unpack =
      .finite .positive ((t * 2 ^ f + 5) / 10) (-(f : Int)) full.pos) :
    Tenth t ((t * 2 ^ f + 5) / 10) (-f) := by
  refine ⟨⟨full, by omega, by omega, parts⟩, by omega, by omega, ?_⟩
  have small : (1 : ℚ) / 2 ^ f ≤ 1 / 2 ^ 50 := by
    gcongr
    · norm_num
    · omega
  have low : 10 * ((t * 2 ^ f + 5) / 10) ≤ t * 2 ^ f + 5 := Nat.mul_div_le ..
  have high : t * 2 ^ f + 5 < 10 * ((t * 2 ^ f + 5) / 10) + 10 := by omega
  generalize (t * 2 ^ f + 5) / 10 = m at low high
  have low' : (10 * m : ℚ) ≤ t * 2 ^ f + 5 := mod_cast low
  have high' : (t * 2 ^ f + 5 : ℚ) < 10 * m + 10 := mod_cast high
  have difference : magnitude m (-(f : Int)) - t / 10 = (10 * m - t * 2 ^ f) / 10 * (1 / 2 ^ f) := by
    rw [magnitude, zpow_neg, zpow_natCast]
    field_simp
  rw [difference, abs_mul, abs_of_pos (a := (1 : ℚ) / 2 ^ f) (by positivity)]
  have half : |(10 * m - t * 2 ^ f : ℚ) / 10| ≤ 1 := by
    rw [abs_le]
    constructor <;> linarith
  calc |(10 * m - t * 2 ^ f : ℚ) / 10| * (1 / 2 ^ f) ≤ 1 * (1 / 2 ^ f) := by gcongr
    _ ≤ 1 / 2 ^ 50 := by rwa [one_mul]

theorem exists_tenth {t : Nat} (positive : 1 ≤ t) (atMost : t ≤ dragSteps) : ∃ m e, Tenth t m e := by
  rw [dragSteps] at atMost
  interval_cases t
  · exact ⟨_, _, tenth_near (f := 56) ⟨by decide, by decide⟩ (by decide) rfl⟩
  · exact ⟨_, _, tenth_near (f := 55) ⟨by decide, by decide⟩ (by decide) rfl⟩
  · exact ⟨_, _, tenth_near (f := 54) ⟨by decide, by decide⟩ (by decide) rfl⟩
  · exact ⟨_, _, tenth_near (f := 54) ⟨by decide, by decide⟩ (by decide) rfl⟩
  · exact ⟨_, _, tenth_near (f := 53) ⟨by decide, by decide⟩ (by decide) rfl⟩
  · exact ⟨_, _, tenth_near (f := 53) ⟨by decide, by decide⟩ (by decide) rfl⟩
  · exact ⟨_, _, tenth_near (f := 53) ⟨by decide, by decide⟩ (by decide) rfl⟩
  · exact ⟨_, _, tenth_near (f := 53) ⟨by decide, by decide⟩ (by decide) rfl⟩
  · exact ⟨_, _, tenth_near (f := 53) ⟨by decide, by decide⟩ (by decide) rfl⟩
  · exact ⟨_, _, tenth_near (f := 52) ⟨by decide, by decide⟩ (by decide) rfl⟩

/-- The product with a part of a drag is next to the part. -/
theorem part_near {n q m m' t : Nat} {e e' : Int} (small : n ≤ 2 ^ 31) (tenth : Tenth t m e)
    (product : |magnitude m' e' - n * magnitude m e| ≤ 2 ^ (-(fill n : Int) + e + 53))
    (nearest : |(q : ℚ) - magnitude m' e'| ≤ 1 / 2) : |10 * (q : Int) - n * t| ≤ 5 := by
  have short : n.log2 ≤ 31 := by
    by_cases zero : n = 0
    · rw [zero, Nat.log2_zero]
      omega
    · exact Nat.le_of_lt_succ ((Nat.log2_lt zero).mpr (by omega))
  have fine : (2 : ℚ) ^ (-(fill n : Int) + e + 53) ≤ 2 ^ (-20 : Int) := by
    gcongr
    · norm_num
    · have greatest := tenth.greatest
      rw [fill]
      omega
  have scaled : |n * (magnitude m e - t / 10 : ℚ)| ≤ 2 ^ 31 * (1 / 2 ^ 50) := by
    rw [abs_mul, Nat.abs_cast]
    gcongr
    · exact_mod_cast small
    · exact tenth.near
  have close : |(10 * q - n * t : ℚ)| < 6 := by
    have split : (10 * q - n * t : ℚ) = 10 * (q - magnitude m' e') +
        10 * (magnitude m' e' - n * magnitude m e) + 10 * (n * (magnitude m e - t / 10)) := by ring
    have fine' := product.trans fine
    rw [abs_le] at nearest fine' scaled
    rw [split, abs_lt]
    norm_num at fine' scaled
    constructor <;> linarith
  have whole : |10 * (q : Int) - n * t| < 6 := by exact_mod_cast close
  omega

/-- A part of a way is rounded to a whole number next to it. -/
theorem dragPart_near (way : Int32) {t : Nat} (positive : 1 ≤ t) (atMost : t ≤ dragSteps) :
    ∃ q : Int,
      Decimal.nearest? (Decimal.ofInt32 way * (Float.ofNat t / Float.ofNat dragSteps)) = some q ∧
        |10 * q - way.toInt * t| ≤ 5 := by
  by_cases still : way = 0
  · subst still
    refine ⟨0, ?_, by simp⟩
    rw [dragSteps] at *
    interval_cases t <;> decide +kernel
  obtain ⟨m, e, tenth⟩ := exists_tenth positive atMost
  have least := tenth.least
  have greatest := tenth.greatest
  have whole := Normal.ofInt32 still
  have bounds := way.le_toInt
  have bounds' := way.toInt_lt
  have short : fill way.toInt.natAbs ≤ 52 := Nat.sub_le ..
  obtain ⟨m', e', multiplied, product⟩ := whole.mul tenth.normal (by omega) (by omega)
  obtain ⟨q, rounded, nearest⟩ := multiplied.nearest?
  rw [Binary64.magnitude_fill] at product
  have near := part_near (by omega) tenth product nearest
  refine ⟨_, rounded, ?_⟩
  have signed := Binary64.apply_signOf way.toInt
  generalize Binary64.signOf way.toInt = sign at signed ⊢
  rw [← signed]
  cases sign with
  | positive => exact near
  | negative =>
    have flipped : 10 * -(q : Int) - -(way.toInt.natAbs : Int) * t =
        -(10 * q - way.toInt.natAbs * t) := by ring
    change |10 * -(q : Int) - -(way.toInt.natAbs : Int) * t| ≤ 5
    rwa [flipped, abs_neg]

/-- A number next to a part of a way lies on it. -/
theorem part_within {way part : Int} {t : Nat} (atMost : t ≤ dragSteps)
    (near : |10 * part - way * t| ≤ 5) :
    (0 ≤ way → 0 ≤ part ∧ part ≤ way) ∧ (way ≤ 0 → way ≤ part ∧ part ≤ 0) := by
  have steps : (t : Int) ≤ 10 := by exact_mod_cast atMost
  rw [abs_le] at near
  constructor
  · intro forward
    have low : 0 ≤ way * t := mul_nonneg forward (Int.natCast_nonneg t)
    have high : way * t ≤ way * 10 := mul_le_mul_of_nonneg_left steps forward
    omega
  · intro backward
    have low : way * 10 ≤ way * t := mul_le_mul_of_nonpos_left steps backward
    have high : way * t ≤ 0 := mul_nonpos_of_nonpos_of_nonneg backward (Int.natCast_nonneg t)
    omega

/-- Of numbers next to two parts of a way the one to the longer part is farther on it. -/
theorem part_onward {way part next : Int} {t : Nat} (near : |10 * part - way * t| ≤ 5)
    (near' : |10 * next - way * (t + 1 : Nat)| ≤ 5) :
    (0 ≤ way → part ≤ next) ∧ (way ≤ 0 → next ≤ part) := by
  have longer : way * (t + 1 : Nat) = way * t + way := by
    push_cast
    ring
  have still : way = 0 → way * t = 0 := fun zero => by rw [zero, zero_mul]
  rw [abs_le] at near near'
  omega

/-- The parts of a way are whole numbers of 32 bits. -/
theorem dragPart_spec (way : Int32) {t : Nat} (positive : 1 ≤ t) (atMost : t ≤ dragSteps) :
    Decimal.nearest? (Decimal.ofInt32 way * (Float.ofNat t / Float.ofNat dragSteps)) =
        some (dragPart way t).toInt ∧
      |10 * (dragPart way t).toInt - way.toInt * t| ≤ 5 := by
  obtain ⟨q, rounded, near⟩ := dragPart_near way positive atMost
  have least := way.le_toInt
  have most := way.toInt_lt
  have within := part_within atMost near
  have kept : (dragPart way t).toInt = q := by
    rw [dragPart, Decimal.nearest, rounded]
    refine Int32.toInt_ofIntClamp ?_ ?_
    · rw [Int32.toInt_minValue]
      omega
    · rw [Int32.toInt_maxValue]
      omega
  rw [kept]
  exact ⟨rounded, near⟩

/-- The last move goes to the end, whatever the way is. -/
theorem dragCoordinate_last (start finish : Int32) :
    dragCoordinate start finish dragSteps = finish := by
  obtain ⟨-, near⟩ := dragPart_spec (finish - start) (t := dragSteps) (by decide) (Nat.le_refl _)
  have whole : dragPart (finish - start) dragSteps = finish - start := by
    rw [← Int32.toInt_inj]
    rw [dragSteps] at *
    rw [abs_le] at near
    omega
  rw [dragCoordinate, whole, Int32.add_comm, Int32.sub_add_cancel]

/-! ### Steady drags -/

/-- In one coordinate a drag goes from its start to its end and nothing overflows. -/
structure Steady (start finish : Int32) : Prop where
  way : (finish - start).toInt = finish.toInt - start.toInt
  part : ∀ i < dragSteps, Decimal.nearest? (Decimal.ofInt32 (finish - start) *
    (Float.ofNat (i + 1) / Float.ofNat dragSteps)) = some (dragPart (finish - start) (i + 1)).toInt
  place : ∀ i < dragSteps, (dragCoordinate start finish (i + 1)).toInt =
    start.toInt + (dragPart (finish - start) (i + 1)).toInt
  /-- No move goes back. -/
  onward : ∀ i, i + 1 < dragSteps →
    (start ≤ finish → dragCoordinate start finish (i + 1) ≤ dragCoordinate start finish (i + 2)) ∧
    (finish ≤ start → dragCoordinate start finish (i + 2) ≤ dragCoordinate start finish (i + 1))
  between : ∀ i < dragSteps,
    (start ≤ finish → start ≤ dragCoordinate start finish (i + 1) ∧
      dragCoordinate start finish (i + 1) ≤ finish) ∧
    (finish ≤ start → finish ≤ dragCoordinate start finish (i + 1) ∧
      dragCoordinate start finish (i + 1) ≤ start)

/-- A whole number of 32 bits. -/
def Fits32 (n : Int) : Prop := -2 ^ 31 ≤ n ∧ n < 2 ^ 31

instance (n : Int) : Decidable (Fits32 n) := inferInstanceAs (Decidable (_ ∧ _))

theorem Fits32.bmod_eq {n : Int} (fits : Fits32 n) : n.bmod (2 ^ 32) = n :=
  Int.bmod_eq_of_le (by have := fits.1; omega) (by have := fits.2; omega)

theorem fits32 (n : Int32) : Fits32 n.toInt := ⟨n.le_toInt, n.toInt_lt⟩

section
variable {start finish : Int32} {t : Nat} (fits : Fits32 (finish.toInt - start.toInt))
include fits

theorem way_of_fits : (finish - start).toInt = finish.toInt - start.toInt := by
  rw [Int32.toInt_sub, fits.bmod_eq]

theorem near_of_fits (positive : 1 ≤ t) (atMost : t ≤ dragSteps) :
    |10 * (dragPart (finish - start) t).toInt - (finish.toInt - start.toInt) * t| ≤ 5 := by
  rw [← way_of_fits fits]
  exact (dragPart_spec _ positive atMost).2

theorem place_of_fits (positive : 1 ≤ t) (atMost : t ≤ dragSteps) :
    (dragCoordinate start finish t).toInt = start.toInt + (dragPart (finish - start) t).toInt := by
  have within := part_within atMost (near_of_fits fits positive atMost)
  obtain ⟨low, high⟩ := fits32 start
  obtain ⟨low', high'⟩ := fits32 finish
  have sum : Fits32 (start.toInt + (dragPart (finish - start) t).toInt) := by
    constructor <;> omega
  rw [dragCoordinate, Int32.toInt_add, sum.bmod_eq]

theorem steady_of_fits : Steady start finish where
  way := way_of_fits fits
  part i inside := (dragPart_spec _ (Nat.le_add_left 1 i) inside).1
  place i inside := place_of_fits fits (Nat.le_add_left 1 i) inside
  onward i inside := by
    have before : i + 1 ≤ dragSteps := Nat.le_of_lt inside
    have near := near_of_fits fits (t := i + 1) (Nat.le_add_left 1 i) before
    have near' := near_of_fits fits (t := i + 1 + 1) (Nat.le_add_left 1 (i + 1)) inside
    have farther := part_onward near near'
    have place := place_of_fits fits (t := i + 1) (Nat.le_add_left 1 i) before
    have place' := place_of_fits fits (t := i + 1 + 1) (Nat.le_add_left 1 (i + 1)) inside
    rw [Int32.le_iff_toInt_le, Int32.le_iff_toInt_le, Int32.le_iff_toInt_le,
      Int32.le_iff_toInt_le, place, place']
    omega
  between i inside := by
    have within := part_within inside (near_of_fits fits (t := i + 1) (Nat.le_add_left 1 i) inside)
    have place := place_of_fits fits (t := i + 1) (Nat.le_add_left 1 i) inside
    simp only [Int32.le_iff_toInt_le, place]
    omega

end

/-- A drag is steady in a coordinate just if the difference of its ends does not overflow. -/
theorem steady_iff (start finish : Int32) :
    Steady start finish ↔ Fits32 (finish.toInt - start.toInt) := by
  refine ⟨fun steady => ?_, steady_of_fits⟩
  rw [← steady.way]
  exact fits32 _

/-- What is checked before a move is whether the difference of the ends overflows; the sum does not. -/
theorem dragFits_iff {start finish : Int32} {t : Nat} (positive : 1 ≤ t) (atMost : t ≤ dragSteps) :
    dragFits start finish t = true ↔ Fits32 (finish.toInt - start.toInt) := by
  rw [dragFits, decide_eq_true_iff]
  constructor
  · rintro ⟨way, -⟩
    rw [← way]
    exact fits32 _
  · exact fun fits => ⟨way_of_fits fits, place_of_fits fits positive atMost⟩

end Desktop

end Screenplay
