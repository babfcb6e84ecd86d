import Mathlib
import Screenplay.Proofs.Comparing
import Screenplay.Run.Event

/-!
Quotients of whole numbers as doubles. A whole number below 2 ^ 53 is a double exactly, with a mantissa
of 53 bits (`unpack_ofNat`), and one that is divided by another one that is at least as large comes to
more than 0 and at most 1, however it is rounded (`progress_atMostOne`). Of rounding it matters only that it
adds at most one to the last bit.
-/
namespace Screenplay.Binary64

open Float.Model (Format UnpackedFloat totalExponent)
open Float.Model.UnpackedFloat

/-- A mantissa with all its 53 bits. -/
def Full (m : Nat) : Prop := 2 ^ 52 ≤ m ∧ m < 2 ^ 53

namespace Full

variable {m : Nat}

theorem pos (full : Full m) : 0 < m := by
  have := full.1
  omega

theorem log2_mul (full : Full m) (k : Nat) : (m * 2 ^ k).log2 = 52 + k := by
  rw [Nat.log2_eq_iff (Nat.ne_of_gt (Nat.mul_pos full.pos (Nat.two_pow_pos k)))]
  refine ⟨?_, ?_⟩
  · rw [Nat.pow_add]
    exact Nat.mul_le_mul_right _ full.1
  · rw [Nat.add_right_comm, Nat.pow_add]
    exact Nat.mul_lt_mul_of_pos_right full.2 (Nat.two_pow_pos k)

theorem log2 (full : Full m) : m.log2 = 52 := by simpa using full.log2_mul 0

theorem leading : Full (2 ^ 52) := ⟨Nat.le_refl _, by decide⟩

end Full

theorem targetExponent_eq (t : Int) : Format.binary64.targetExponent t = max (t - 53) (-1074) := rfl

theorem shiftRight_exact (m k : Nat) :
    (⟨m * 2 ^ k, false, false⟩ : ExtendedMantissa) >>> k = ⟨m, false, false⟩ := by
  induction k generalizing m with
  | zero => rw [Nat.pow_zero, Nat.mul_one]; rfl
  | succ k ih =>
    change ((⟨m * 2 ^ (k + 1), false, false⟩ : ExtendedMantissa) >>> k).shiftRightOne = _
    have regrouped : m * 2 ^ (k + 1) = m * 2 * 2 ^ k := by rw [Nat.pow_succ]; ac_rfl
    rw [regrouped, ih]
    simp [ExtendedMantissa.shiftRightOne]

theorem shiftRight_mantissa (em : ExtendedMantissa) (k : Nat) :
    (em >>> k).mantissa = em.mantissa / 2 ^ k := by
  induction k with
  | zero => exact (Nat.div_one _).symm
  | succ k ih =>
    change (em >>> k).mantissa / 2 = _
    rw [ih, Nat.div_div_eq_div_mul, Nat.pow_succ]

theorem shiftToTargetExponent_full {m : Nat} {e : Int} (full : Full m) (least : -1074 ≤ e) (k : Nat) :
    shiftToTargetExponent .binary64 (m * 2 ^ k) (e - k) .exact = (⟨m, false, false⟩, e) := by
  have target : Format.binary64.targetExponent (totalExponent (m * 2 ^ k) (e - k)) = e := by
    rw [targetExponent_eq, totalExponent, full.log2_mul]
    omega
  have amount : (e - (e - k)).toNat = k := by omega
  rw [shiftToTargetExponent, target, shiftToExponent, amount]
  exact Prod.ext (shiftRight_exact m k) (by simp)

theorem shiftToTargetExponent_same {m : Nat} {e : Int} (full : Full m) (least : -1074 ≤ e) :
    shiftToTargetExponent .binary64 m e .exact = (⟨m, false, false⟩, e) := by
  simpa using shiftToTargetExponent_full full least 0

theorem roundWithAccuracy_full {s : Sign} {m : Nat} {e : Int} (full : Full m) (least : -1074 ≤ e)
    (k : Nat) :
    roundWithAccuracy .binary64 s (m * 2 ^ k) (e - k) .exact = .finite s m e full.pos := by
  have rounded : (⟨m, false, false⟩ : ExtendedMantissa).roundedMantissa = m := rfl
  simp only [roundWithAccuracy, shiftToTargetExponent_full full least k, rounded,
    shiftToTargetExponent_same full least]
  exact dif_neg (Nat.ne_of_gt full.pos)

/-! ### Packing -/

theorem unpackSign_packComponents {spec : Format} {sign : Sign}
    {exponent : BitVec spec.exponentBits} {mantissa : BitVec spec.mantissaBitsWithoutImplicit} :
    unpackSign (packComponents spec sign exponent mantissa) = sign.toBitVec := by
  ext i inside
  have only : i = 0 := by omega
  subst only
  simp [unpackSign, packComponents, BitVec.getLsbD_append, BitVec.getElem_append]

/-- The leading bit of a full mantissa is not stored. -/
theorem toNat_leading {m : Nat} (full : Full m) : (1#1 ++ BitVec.ofNat 52 m).toNat = m := by
  rw [BitVec.toNat_append, ← Nat.shiftLeft_add_eq_or_of_lt (BitVec.isLt _), BitVec.toNat_ofNat,
    Nat.shiftLeft_eq]
  have := full.1
  have := full.2
  change 1 * 2 ^ 52 + m % 2 ^ 52 = m
  omega

theorem pack_full {s : Sign} {m biased : Nat} {e : Int} (full : Full m) (shifted : e + 1075 = biased)
    (finite : biased < 2047) :
    UnpackedFloat.pack .binary64 (.finite s m e full.pos) =
      packComponents .binary64 s (BitVec.ofNat 11 biased) (BitVec.ofNat 52 m) := by
  have bias : (e + Format.binary64.exponentBias + Format.binary64.mantissaBitsWithoutImplicit).toNat
      = biased := by
    change (e + (1023 : Nat) + (52 : Nat)).toNat = _
    omega
  rw [UnpackedFloat.pack]
  simp only [full.log2, bias]
  rw [if_neg (by change ¬ 2048 ≤ biased + 1; omega)]
  exact if_pos rfl

theorem unpack_pack {s : Sign} {m : Nat} {e : Int} (full : Full m) (least : -1074 ≤ e)
    (greatest : e ≤ 971) :
    (Float.Model.pack (.finite s m e full.pos)).unpack = .finite s m e full.pos := by
  change UnpackedFloat.unpack .binary64 (UnpackedFloat.pack .binary64 _) = _
  obtain ⟨biased, shifted⟩ := Int.eq_ofNat_of_zero_le (a := e + 1075) (by omega)
  have stored : (BitVec.ofNat 11 biased).toNat = biased := by
    rw [BitVec.toNat_ofNat]
    omega
  have finite : BitVec.ofNat 11 biased ≠ -1#11 := by
    intro same
    rw [← BitVec.toNat_inj, stored] at same
    change biased = 2047 at same
    omega
  have normal : BitVec.ofNat 11 biased ≠ 0#11 := by
    intro same
    rw [← BitVec.toNat_inj, stored] at same
    change biased = 0 at same
    omega
  rw [pack_full full shifted (by omega), UnpackedFloat.unpack]
  simp only [unpackMantissa_packComponents, unpackExponent_packComponents,
    unpackSign_packComponents]
  rw [if_neg finite, if_neg normal]
  simp only [stored, toNat_leading full]
  have exponent : (biased : Int) - ((Format.binary64.exponentBias : Nat) +
      (Format.binary64.mantissaBitsWithoutImplicit : Nat)) = e := by
    change (biased : Int) - ((1023 : Nat) + (52 : Nat)) = e
    omega
  simp only [exponent, Sign.ofBitVec_toBitVec]

/-! ### Whole numbers -/

/-- How far a whole number is shifted to fill a mantissa. -/
def fill (n : Nat) : Nat := 52 - n.log2

theorem full_fill {n : Nat} (positive : 0 < n) (exact : n < 2 ^ 53) : Full (n * 2 ^ fill n) := by
  have short : n.log2 ≤ 52 := Nat.le_of_lt_succ ((Nat.log2_lt (Nat.ne_of_gt positive)).mpr exact)
  obtain ⟨low, high⟩ := (Nat.log2_eq_iff (Nat.ne_of_gt positive)).mp rfl
  have sum : n.log2 + fill n = 52 := by
    rw [fill]
    omega
  constructor
  · calc 2 ^ 52 = 2 ^ n.log2 * 2 ^ fill n := by rw [← Nat.pow_add, sum]
      _ ≤ n * 2 ^ fill n := Nat.mul_le_mul_right _ low
  · calc n * 2 ^ fill n < 2 ^ (n.log2 + 1) * 2 ^ fill n :=
          Nat.mul_lt_mul_of_pos_right high (Nat.two_pow_pos _)
      _ = 2 ^ 53 := by rw [← Nat.pow_add, Nat.add_right_comm, sum]

theorem round_whole {n : Nat} (positive : 0 < n) (exact : n < 2 ^ 53) :
    UnpackedFloat.round .binary64 .positive n 0 =
      .finite .positive (n * 2 ^ fill n) (-(fill n : Int)) (full_fill positive exact).pos := by
  have short : n.log2 ≤ 52 := Nat.le_of_lt_succ ((Nat.log2_lt (Nat.ne_of_gt positive)).mpr exact)
  have target : Format.binary64.targetExponent (totalExponent n 0) = -(fill n : Int) := by
    rw [targetExponent_eq, totalExponent, fill]
    omega
  have amount : (0 - -(fill n : Int)).toNat = fill n := by omega
  have rounded := roundWithAccuracy_full (s := .positive) (full_fill positive exact)
    (e := -(fill n : Int)) (by rw [fill]; omega) 0
  rw [Nat.pow_zero, Nat.mul_one, Int.natCast_zero, Int.sub_zero] at rounded
  rw [UnpackedFloat.round, target, decreaseExponent, amount, Nat.shiftLeft_eq, Int.zero_sub]
  exact rounded

theorem unpack_toFloat {n : Nat} (positive : 0 < n) (exact : n < 2 ^ 53) :
    n.toUInt64.toFloat.toModel.unpack =
      .finite .positive (n * 2 ^ fill n) (-(fill n : Int)) (full_fill positive exact).pos := by
  have whole : n.toUInt64.toNat = n := by
    rw [Nat.toUInt64_eq, UInt64.toNat_ofNat']
    omega
  have normal : UnpackedFloat.ofUInt64 .binary64 n.toUInt64 =
      UnpackedFloat.round .binary64 .positive n 0 := by
    have above : compare (n : Int) 0 = .gt := compare_gt_iff_gt.mpr (by omega)
    rw [UnpackedFloat.ofUInt64, whole, UnpackedFloat.ofNat, UnpackedFloat.ofInt,
      UnpackedFloat.normalize, above]
    rfl
  change (Float.Model.pack (UnpackedFloat.ofUInt64 .binary64 n.toUInt64)).unpack = _
  rw [normal, round_whole positive exact]
  exact unpack_pack (full_fill positive exact) (by rw [fill]; omega) (by omega)

/-- A whole number that is converted is multiplied with the power of ten 1. -/
theorem unpack_ofNat {n : Nat} (positive : 0 < n) (exact : n < 2 ^ 53) :
    (Float.ofNat n).toModel.unpack =
      .finite .positive (n * 2 ^ fill n) (-(fill n : Int)) (full_fill positive exact).pos := by
  have one : (Float.ofBits 0x3FF0000000000000).toModel.unpack =
      .finite .positive (2 ^ 52) (-52) (Nat.two_pow_pos 52) := rfl
  have product : Float.ofNat n = n.toUInt64.toFloat * Float.ofBits 0x3FF0000000000000 := by
    change Float.ofScientific n false 0 = _
    rw [Float.ofScientific, dif_pos ⟨exact, by omega⟩]
    rfl
  rw [product]
  change (Float.Model.pack (UnpackedFloat.mul .binary64 _ _)).unpack = _
  rw [unpack_toFloat positive exact, one]
  have rounded := roundWithAccuracy_full (s := .positive) (full_fill positive exact)
    (e := -(fill n : Int)) (by rw [fill]; omega) 52
  change (Float.Model.pack (roundWithAccuracy .binary64 .positive (n * 2 ^ fill n * 2 ^ 52)
    (-(fill n : Int) - (52 : Nat)) .exact)).unpack = _
  rw [rounded]
  exact unpack_pack (full_fill positive exact) (by rw [fill]; omega) (by omega)

/-! ### Quotients -/

/-- A number that is at most 1 and has a full mantissa. -/
structure AtMostOne (m : Nat) (e : Int) : Prop where
  full : Full m
  least : -1074 ≤ e
  atMost : e < -52 ∨ (e = -52 ∧ m = 2 ^ 52)

/-- Rounding adds at most one to the last bit. -/
theorem roundedMantissa_le (em : ExtendedMantissa) :
    em.mantissa ≤ em.roundedMantissa ∧ em.roundedMantissa ≤ em.mantissa + 1 := by
  rw [ExtendedMantissa.roundedMantissa]
  rcases em.accuracy with _ | (_ | _ | _)
  all_goals
    simp only [Accuracy.roundToNearestEven]
    omega

/-- A mantissa that becomes too long when it is rounded is a power of two. -/
theorem roundWithAccuracy_carries {s : Sign} {m : Nat} {e : Int} (k : Nat)
    (quotient : Full (m / 2 ^ k)) (leading : m.log2 = 52 + k) (least : -1074 ≤ e)
    (accuracy : Accuracy) :
    ∃ r m' e', ∃ full : Full m',
      roundWithAccuracy .binary64 s m (e - k) accuracy = .finite s m' e' full.pos ∧
        (m / 2 ^ k ≤ r ∧ r ≤ m / 2 ^ k + 1) ∧
        ((e' = e ∧ m' = r) ∨ (e' = e + 1 ∧ m' = 2 ^ 52 ∧ r = 2 ^ 53)) := by
  have target : Format.binary64.targetExponent (totalExponent m (e - k)) = e := by
    rw [targetExponent_eq, totalExponent, leading]
    omega
  have amount : (e - (e - k)).toNat = k := by omega
  obtain ⟨em, first, mantissa⟩ : ∃ em : ExtendedMantissa,
      shiftToTargetExponent .binary64 m (e - k) accuracy = (em, e) ∧ em.mantissa = m / 2 ^ k := by
    refine ⟨ExtendedMantissa.ofMantissaAndAccuracy m accuracy >>> k, ?_, ?_⟩
    · rw [shiftToTargetExponent, target, shiftToExponent, amount]
      exact Prod.ext rfl (by simp)
    · rw [shiftRight_mantissa]
      rcases accuracy with _ | (_ | _ | _) <;> rfl
  obtain ⟨low, high⟩ := roundedMantissa_le em
  rw [mantissa] at low high
  generalize rounded : em.roundedMantissa = r at low high
  have below := quotient.1
  have above := quotient.2
  by_cases carries : r = 2 ^ 53
  · have again : shiftToTargetExponent .binary64 (2 ^ 53) e .exact =
        (⟨2 ^ 52, false, false⟩, e + 1) := by
      have shifted := shiftToTargetExponent_full Full.leading (e := e + 1) (by omega) 1
      rw [Int.natCast_one, Int.add_sub_cancel] at shifted
      exact shifted
    refine ⟨r, 2 ^ 52, e + 1, .leading, ?_, ⟨low, high⟩, .inr ⟨rfl, rfl, carries⟩⟩
    simp only [roundWithAccuracy, first, rounded, carries, again]
    exact dif_neg (Nat.ne_of_gt Full.leading.pos)
  · have full : Full r := ⟨by omega, by omega⟩
    refine ⟨r, r, e, full, ?_, ⟨low, high⟩, .inl ⟨rfl, rfl⟩⟩
    simp only [roundWithAccuracy, first, rounded, shiftToTargetExponent_same full least]
    exact dif_neg (Nat.ne_of_gt full.pos)

theorem divCore_eq {m₁ m₂ : Nat} {e₁ e₂ : Int} (full₁ : Full m₁) (full₂ : Full m₂)
    (near : -1000 ≤ e₁ - e₂) :
    divCore .binary64 m₁ e₁ m₂ e₂ =
      (m₁ * 2 ^ 53 / m₂, e₁ - e₂ - 53, accuracyOfFraction (m₁ * 2 ^ 53 % m₂) m₂) := by
  have target : min (e₁ - e₂) (Format.binary64.targetExponent
      (totalExponent m₁ e₁ - totalExponent m₂ e₂)) = e₁ - e₂ - 53 := by
    rw [targetExponent_eq, totalExponent, totalExponent, full₁.log2, full₂.log2]
    omega
  have amount : (e₁ - e₂ - (e₁ - e₂ - 53)).toNat = 53 := by omega
  simp only [divCore, target, amount, Nat.shiftLeft_eq]

/-- A number divided by one that is at least as large. -/
theorem div_atMostOne {m₁ m₂ : Nat} {e₁ e₂ : Int} (full₁ : Full m₁) (full₂ : Full m₂)
    (near : -1000 ≤ e₁ - e₂) (le : e₁ < e₂ ∨ (e₁ = e₂ ∧ m₁ ≤ m₂)) :
    ∃ m e, ∃ part : AtMostOne m e,
      UnpackedFloat.div .binary64 (.finite .positive m₁ e₁ full₁.pos)
        (.finite .positive m₂ e₂ full₂.pos) = .finite .positive m e part.full.pos := by
  have rounds : UnpackedFloat.div .binary64 (.finite .positive m₁ e₁ full₁.pos)
      (.finite .positive m₂ e₂ full₂.pos) = roundWithAccuracy .binary64 .positive
        (m₁ * 2 ^ 53 / m₂) (e₁ - e₂ - 53) (accuracyOfFraction (m₁ * 2 ^ 53 % m₂) m₂) := by
    simp only [UnpackedFloat.div, divCore_eq full₁ full₂ near]
    rfl
  rw [rounds]
  obtain ⟨low₁, high₁⟩ := full₁
  obtain ⟨low₂, high₂⟩ := full₂
  have some : 0 < m₂ := by omega
  have low : 2 ^ 52 ≤ m₁ * 2 ^ 53 / m₂ := (Nat.le_div_iff_mul_le some).mpr (by omega)
  have high : m₁ * 2 ^ 53 / m₂ < 2 ^ 54 := (Nat.div_lt_iff_lt_mul some).mpr (by omega)
  by_cases short : m₁ * 2 ^ 53 / m₂ < 2 ^ 53
  · have log : (m₁ * 2 ^ 53 / m₂).log2 = 52 := (Nat.log2_eq_iff (by omega)).mpr ⟨low, short⟩
    obtain ⟨r, m, e, full, rounded, -, carried⟩ := roundWithAccuracy_carries 0
      (by rw [Nat.pow_zero, Nat.div_one]; exact ⟨low, short⟩) log (e := e₁ - e₂ - 53) (by omega)
      (accuracyOfFraction (m₁ * 2 ^ 53 % m₂) m₂)
    rw [Int.natCast_zero, Int.sub_zero] at rounded
    exact ⟨m, e, ⟨full, by omega, by omega⟩, rounded⟩
  have long : 2 ^ 53 ≤ m₁ * 2 ^ 53 / m₂ := Nat.le_of_not_lt short
  have log : (m₁ * 2 ^ 53 / m₂).log2 = 52 + 1 := (Nat.log2_eq_iff (by omega)).mpr ⟨long, high⟩
  have reaches : m₂ ≤ m₁ := by
    have := (Nat.le_div_iff_mul_le some).mp long
    omega
  rcases le with less | ⟨rfl, atMost⟩
  · obtain ⟨r, m, e, full, rounded, -, carried⟩ := roundWithAccuracy_carries 1
      (by rw [Nat.pow_one]; constructor <;> omega) log (e := e₁ - e₂ - 52) (by omega)
      (accuracyOfFraction (m₁ * 2 ^ 53 % m₂) m₂)
    rw [Int.natCast_one, show e₁ - e₂ - 52 - 1 = e₁ - e₂ - 53 by omega] at rounded
    exact ⟨m, e, ⟨full, by omega, by omega⟩, rounded⟩
  · -- the two numbers are the same
    obtain rfl : m₁ = m₂ := Nat.le_antisymm atMost reaches
    have rounded := roundWithAccuracy_full (s := .positive) Full.leading (e := -52) (by omega) 1
    refine ⟨2 ^ 52, -52, ⟨.leading, by omega, .inr ⟨rfl, rfl⟩⟩, ?_⟩
    rw [Nat.mul_div_cancel_left _ some, Nat.mul_mod_right, Int.sub_self]
    exact rounded

theorem log2_le {n n' : Nat} (some : 0 < n) (le : n ≤ n') : n.log2 ≤ n'.log2 :=
  (Nat.le_log2 (by omega)).mpr (Nat.le_trans (Nat.log2_self_le (by omega)) le)

/-- What has been begun of a list is more than nothing and at most all of it, also as a double. The
lengths are exact as doubles up to this bound. -/
theorem progress_atMostOne {reached total : Nat} (some : 0 < reached) (within : reached ≤ total)
    (exact : total < 2 ^ 53) :
    0.0 < Event.progress reached total ∧ Event.progress reached total ≤ 1.0 := by
  have small : reached < 2 ^ 53 := Nat.lt_of_le_of_lt within exact
  have whole : 0 < total := Nat.lt_of_lt_of_le some within
  have shorter := log2_le some within
  have le : (-(fill reached) : Int) < -(fill total) ∨
      ((-(fill reached) : Int) = -(fill total) ∧
        reached * 2 ^ fill reached ≤ total * 2 ^ fill total) := by
    by_cases same : fill reached = fill total
    · rw [same]
      exact .inr ⟨rfl, Nat.mul_le_mul_right _ within⟩
    · rw [fill, fill] at *
      omega
  obtain ⟨m, e, part, divided⟩ := div_atMostOne (full_fill some small) (full_fill whole exact)
    (by rw [fill, fill]; omega) le
  have quotient : (Event.progress reached total).toModel.unpack =
      .finite .positive m e part.full.pos := by
    rw [Event.progress, if_neg (Nat.ne_of_gt whole)]
    change (Float.Model.pack (UnpackedFloat.div .binary64 _ _)).unpack = _
    rw [unpack_ofNat some small, unpack_ofNat whole exact, divided]
    exact unpack_pack part.full part.least (by have := part.atMost; omega)
  have zero : (0.0 : Float).toModel.unpack = .zero .positive := rfl
  have one : (1.0 : Float).toModel.unpack =
      .finite .positive (2 ^ 52) (-52) (Nat.two_pow_pos 52) := rfl
  rw [float_lt_iff, float_le_iff, quotient, zero, one]
  refine ⟨rfl, ?_⟩
  change ((compare e (-52)).then (compare m (2 ^ 52))).isLE = true
  rcases part.atMost with less | ⟨rfl, rfl⟩
  · rw [compare_lt_iff_lt.mpr less]
    rfl
  · rfl

end Screenplay.Binary64
