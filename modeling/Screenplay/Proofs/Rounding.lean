import Mathlib
import Screenplay.Decimal.Nearest
import Screenplay.Proofs.Quotient

/-!
Products of doubles and the whole numbers next to them. Whole numbers of 32 bits are doubles exactly
(`Normal.ofInt32`), rounding moves a product by no more than one unit of its last place (`Normal.mul`),
and the whole number nearest to a double is at most a half away from it (`Normal.nearest?`).
-/
namespace Screenplay.Binary64

open Float.Model (Format UnpackedFloat)
open Float.Model.UnpackedFloat

/-! ### Magnitudes -/

/-- A number without its sign. -/
def magnitude (m : Nat) (e : Int) : ℚ := m * 2 ^ e

theorem magnitude_mul (m₁ m₂ : Nat) (e₁ e₂ : Int) :
    magnitude m₁ e₁ * magnitude m₂ e₂ = (m₁ * m₂ : Nat) * 2 ^ (e₁ + e₂) := by
  rw [magnitude, magnitude, zpow_add₀ two_ne_zero, Nat.cast_mul]
  ring

theorem magnitude_fill (n : Nat) : magnitude (n * 2 ^ fill n) (-(fill n : Int)) = n := by
  rw [magnitude, zpow_neg, zpow_natCast, Nat.cast_mul, Nat.cast_pow, Nat.cast_two]
  field_simp

/-- A mantissa that has become too long keeps its value when it is cut. -/
theorem magnitude_carried {r m : Nat} {e e' : Int}
    (carried : (e' = e ∧ m = r) ∨ (e' = e + 1 ∧ m = 2 ^ 52 ∧ r = 2 ^ 53)) :
    magnitude m e' = magnitude r e := by
  rcases carried with ⟨rfl, rfl⟩ | ⟨rfl, rfl, rfl⟩
  · rfl
  · rw [magnitude, magnitude, zpow_add_one₀ two_ne_zero]
    push_cast
    ring

/-- The product of two full mantissas has 105 or 106 bits. -/
theorem log2_mul {m₁ m₂ : Nat} (full₁ : Full m₁) (full₂ : Full m₂) :
    ∃ k, (m₁ * m₂).log2 = 52 + k ∧ (k = 52 ∨ k = 53) := by
  have low : 2 ^ 52 * 2 ^ 52 ≤ m₁ * m₂ := Nat.mul_le_mul full₁.1 full₂.1
  have high : m₁ * m₂ < 2 ^ 53 * 2 ^ 53 := Nat.mul_lt_mul'' full₁.2 full₂.2
  rw [← Nat.pow_add] at low high
  have some : m₁ * m₂ ≠ 0 := by omega
  have least := (Nat.le_log2 some).mpr low
  have most := (Nat.log2_lt some).mpr high
  exact ⟨(m₁ * m₂).log2 - 52, by omega, by omega⟩

/-- The leading 53 bits of a number. -/
theorem full_div {m k : Nat} (some : m ≠ 0) (leading : m.log2 = 52 + k) : Full (m / 2 ^ k) := by
  obtain ⟨low, high⟩ := (Nat.log2_eq_iff some).mp leading
  constructor
  · rwa [Nat.le_div_iff_mul_le (Nat.two_pow_pos k), ← Nat.pow_add]
  · rwa [Nat.div_lt_iff_lt_mul (Nat.two_pow_pos k), ← Nat.pow_add, Nat.add_right_comm 52 1 k]

/-- Leaving out the last bits and rounding moves a number by at most one unit of what is left. -/
theorem abs_rounded_sub_le {m r k : Nat} (low : m / 2 ^ k ≤ r) (high : r ≤ m / 2 ^ k + 1) :
    |(r : ℚ) * 2 ^ k - m| ≤ 2 ^ k := by
  have below : m < (r + 1) * 2 ^ k := by
    rw [← Nat.div_lt_iff_lt_mul (Nat.two_pow_pos k)]
    exact Nat.lt_succ_of_le low
  have above : r * 2 ^ k ≤ m + 2 ^ k := by
    calc r * 2 ^ k ≤ (m / 2 ^ k + 1) * 2 ^ k := Nat.mul_le_mul_right _ high
      _ = m / 2 ^ k * 2 ^ k + 2 ^ k := Nat.succ_mul ..
      _ ≤ m + 2 ^ k := Nat.add_le_add_right (Nat.div_mul_le_self ..) _
  have below' : (m : ℚ) < (r + 1) * 2 ^ k := mod_cast below
  have above' : (r : ℚ) * 2 ^ k ≤ m + 2 ^ k := mod_cast above
  rw [abs_le]
  constructor <;> linarith

/-! ### The fields of the binary format -/

theorem toNat_packComponents (s : Sign) (exponent : BitVec 11) (mantissa : BitVec 52) :
    (packComponents .binary64 s exponent mantissa).toNat =
      (s.toBitVec.toNat * 2 ^ 11 + exponent.toNat) * 2 ^ 52 + mantissa.toNat := by
  rw [packComponents, BitVec.toNat_append, ← Nat.shiftLeft_add_eq_or_of_lt (BitVec.isLt _),
    BitVec.toNat_append, ← Nat.shiftLeft_add_eq_or_of_lt (BitVec.isLt _), Nat.shiftLeft_eq,
    Nat.shiftLeft_eq]

/-- A double with a full mantissa. -/
structure Normal (x : Float) (s : Sign) (m : Nat) (e : Int) : Prop where
  full : Full m
  least : -1074 ≤ e
  greatest : e ≤ 971
  parts : x.toModel.unpack = .finite s m e full.pos

/-- The bits of a double with a full mantissa. -/
theorem Normal.toBits {x : Float} {s : Sign} {m biased : Nat} {e : Int} (normal : Normal x s m e)
    (shifted : e + 1075 = biased) :
    x.toBits.toNat = (s.toBitVec.toNat * 2 ^ 11 + biased) * 2 ^ 52 + (m - 2 ^ 52) := by
  have greatest := normal.greatest
  have low := normal.full.1
  have high := normal.full.2
  have packed : x.toBits.toBitVec =
      packComponents .binary64 s (BitVec.ofNat 11 biased) (BitVec.ofNat 52 m) := by
    rw [← pack_full normal.full shifted (by omega), ← normal.parts]
    exact (pack_unpack_of_valid x.toModel.valid).symm
  rw [← UInt64.toNat_toBitVec, packed, toNat_packComponents, BitVec.toNat_ofNat, BitVec.toNat_ofNat]
  omega

theorem Normal.ofFloat? {x : Float} {s : Sign} {m : Nat} {e : Int} (normal : Normal x s m e) :
    Decimal.Double.ofFloat? x = some ⟨s == .negative, m, e⟩ := by
  have least := normal.least
  have greatest := normal.greatest
  have low := normal.full.1
  have high := normal.full.2
  obtain ⟨biased, shifted⟩ := Int.eq_ofNat_of_zero_le (a := e + 1075) (by omega)
  have bits := normal.toBits shifted
  have sign : s.toBitVec.toNat = if s == .negative then 1 else 0 := by cases s <;> rfl
  have fraction : x.toBits.toNat % Nat.pow 2 52 = m - 2 ^ 52 := by
    change x.toBits.toNat % 2 ^ 52 = m - 2 ^ 52
    omega
  have exponent : x.toBits.toNat / Nat.pow 2 52 % Nat.pow 2 11 = biased := by
    change x.toBits.toNat / 2 ^ 52 % 2 ^ 11 = biased
    omega
  have negative : decide (Nat.pow 2 63 ≤ x.toBits.toNat) = (s == .negative) := by
    change decide (2 ^ 63 ≤ x.toBits.toNat) = _
    rw [sign] at bits
    cases s with
    | negative =>
      have set : x.toBits.toNat = (1 * 2 ^ 11 + biased) * 2 ^ 52 + (m - 2 ^ 52) := bits
      exact decide_eq_true (by omega)
    | positive =>
      have clear : x.toBits.toNat = (0 * 2 ^ 11 + biased) * 2 ^ 52 + (m - 2 ^ 52) := bits
      exact decide_eq_false (by omega)
  have whole : Nat.pow 2 52 + (m - 2 ^ 52) = m := Nat.add_sub_cancel' low
  have back : (biased : Int) - 1075 = e := by omega
  simp only [Decimal.Double.ofFloat?, fraction, exponent, negative]
  rw [if_neg (by omega), if_neg (by omega), whole, back]

/-! ### The nearest whole number -/

theorem ratio_pos (d : Decimal.Double) : 0 < d.ratio.2 := by
  rw [Decimal.Double.ratio]
  split
  · exact Nat.one_pos
  · exact Nat.two_pow_pos _

theorem ratio_eq (d : Decimal.Double) :
    (d.ratio.1 : ℚ) / d.ratio.2 = magnitude d.significand d.exponent := by
  rw [Decimal.Double.ratio, magnitude]
  split
  next whole =>
    obtain ⟨n, exponent⟩ := Int.eq_ofNat_of_zero_le whole
    rw [exponent, zpow_natCast, Int.toNat_natCast]
    simp
  next part =>
    obtain ⟨n, exponent⟩ := Int.eq_ofNat_of_zero_le (a := -d.exponent) (by omega)
    rw [← neg_neg d.exponent, exponent, zpow_neg, zpow_natCast, neg_neg, Int.toNat_natCast]
    simp [div_eq_mul_inv]

theorem nearest_half (d : Decimal.Double) :
    |(d.nearest : ℚ) - magnitude d.significand d.exponent| ≤ 1 / 2 := by
  have some := ratio_pos d
  rw [← ratio_eq, Decimal.Double.nearest]
  generalize d.ratio = ratio at some ⊢
  obtain ⟨num, den⟩ := ratio
  have positive : (0 : ℚ) < den := Nat.cast_pos.mpr some
  have below := Nat.div_mul_le_self (2 * num + den) (2 * den)
  have above := Nat.lt_div_mul_add (a := 2 * num + den) (b := 2 * den) (by omega)
  dsimp only
  generalize (2 * num + den) / (2 * den) = q at below above ⊢
  have below' : (q * (2 * den) : ℚ) ≤ 2 * num + den := mod_cast below
  have above' : (2 * num + den : ℚ) < q * (2 * den) + 2 * den := mod_cast above
  have least : (q : ℚ) - 1 / 2 ≤ num / den := by
    rw [le_div_iff₀ positive]
    linarith
  have most : (num / den : ℚ) ≤ q + 1 / 2 := by
    rw [div_le_iff₀ positive]
    linarith
  rw [abs_le]
  constructor <;> linarith

/-! ### Normal doubles -/

/-- The sign of a whole number. -/
def signOf (n : Int) : Sign := if n < 0 then .negative else .positive

theorem apply_signOf (n : Int) : (signOf n).apply n.natAbs = n := by
  rw [signOf]
  split
  · change -(n.natAbs : Int) = n
    omega
  · change (n.natAbs : Int) = n
    omega

namespace Normal

variable {x y : Float} {s s₁ s₂ : Sign} {m m₁ m₂ : Nat} {e e₁ e₂ : Int}

theorem ofNat {n : Nat} (positive : 0 < n) (exact : n < 2 ^ 53) :
    Normal (Float.ofNat n) .positive (n * 2 ^ fill n) (-(fill n : Int)) :=
  ⟨full_fill positive exact, by rw [fill]; omega, by omega, unpack_ofNat positive exact⟩

theorem neg (normal : Normal x s m e) : Normal (-x) (-s) m e := by
  refine ⟨normal.full, normal.least, normal.greatest, ?_⟩
  change (Float.Model.pack x.toModel.unpack.neg).unpack = _
  rw [normal.parts]
  exact unpack_pack normal.full normal.least normal.greatest

theorem ofInt32 {n : Int32} (some : n ≠ 0) : Normal (Decimal.ofInt32 n) (signOf n.toInt)
    (n.toInt.natAbs * 2 ^ fill n.toInt.natAbs) (-(fill n.toInt.natAbs : Int)) := by
  have least := n.le_toInt
  have most := n.toInt_lt
  have nonzero : n.toInt ≠ 0 := fun zero => some (Int32.toInt_inj.mp zero)
  have positive := ofNat (n := n.toInt.natAbs) (by omega) (by omega)
  rw [Decimal.ofInt32, signOf]
  by_cases negative : n.toInt < 0
  · rw [if_pos (Int32.lt_iff_toInt_lt.mpr negative), if_pos negative]
    exact positive.neg
  · rw [if_neg (fun less => negative (Int32.lt_iff_toInt_lt.mp less)), if_neg negative]
    exact positive

/-- The bounds keep the product a normal number. -/
theorem mul (first : Normal x s₁ m₁ e₁) (second : Normal y s₂ m₂ e₂) (least : -1126 ≤ e₁ + e₂)
    (greatest : e₁ + e₂ ≤ 917) : ∃ m e, Normal (x * y) (s₁ * s₂) m e ∧
      |magnitude m e - magnitude m₁ e₁ * magnitude m₂ e₂| ≤ 2 ^ (e₁ + e₂ + 53) := by
  obtain ⟨k, leading, small⟩ := log2_mul first.full second.full
  have some : m₁ * m₂ ≠ 0 := Nat.mul_ne_zero first.full.pos.ne' second.full.pos.ne'
  obtain ⟨r, m, e, full, rounded, ⟨low, high⟩, carried⟩ := roundWithAccuracy_carries (s := s₁ * s₂) k
    (full_div some leading) leading (e := e₁ + e₂ + k) (by omega) .exact
  rw [Int.add_sub_cancel] at rounded
  refine ⟨m, e, ⟨full, by omega, by omega, ?_⟩, ?_⟩
  · change (Float.Model.pack (UnpackedFloat.mul .binary64 x.toModel.unpack y.toModel.unpack)).unpack = _
    rw [first.parts, second.parts]
    change (Float.Model.pack
      (roundWithAccuracy .binary64 (s₁ * s₂) (m₁ * m₂) (e₁ + e₂) .exact)).unpack = _
    rw [rounded]
    exact unpack_pack full (by omega) (by omega)
  · have value : magnitude m e = r * 2 ^ k * 2 ^ (e₁ + e₂) := by
      rw [magnitude_carried carried, magnitude, zpow_add₀ two_ne_zero, zpow_natCast]
      ring
    rw [value, magnitude_mul, ← sub_mul, abs_mul, abs_of_pos (a := (2 : ℚ) ^ (e₁ + e₂)) (by positivity)]
    calc |(r : ℚ) * 2 ^ k - (m₁ * m₂ : Nat)| * 2 ^ (e₁ + e₂)
        ≤ 2 ^ k * 2 ^ (e₁ + e₂) := by
          gcongr
          exact abs_rounded_sub_le low high
      _ = 2 ^ (e₁ + e₂ + k) := by rw [zpow_add₀ two_ne_zero (e₁ + e₂), zpow_natCast, mul_comm]
      _ ≤ 2 ^ (e₁ + e₂ + 53) := by
          gcongr
          · norm_num
          · omega

theorem nearest? (normal : Normal x s m e) :
    ∃ q : Nat, Decimal.nearest? x = some (s.apply q) ∧ |(q : ℚ) - magnitude m e| ≤ 1 / 2 := by
  refine ⟨_, ?_, nearest_half ⟨s == .negative, m, e⟩⟩
  rw [Decimal.nearest?, normal.ofFloat?]
  cases s <;> rfl

end Normal

end Screenplay.Binary64
