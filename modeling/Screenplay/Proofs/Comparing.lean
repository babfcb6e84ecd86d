import Mathlib.Data.Int.Order.Basic
import Mathlib.Data.Prod.Lex
import Mathlib.Order.Compare

/-!
How scores compare. A search needs to know only that the comparisons order the numbers among the values
of its type, and that what is no number compares with nothing (`OrdersNumbers`). In a linear order
everything is a number; of the floating point values all are but `NaN`.
-/
namespace Screenplay

open Float.Model (UnpackedFloat)

/-- The comparisons order the numbers of a type, and what is no number compares with nothing. -/
structure OrdersNumbers {σ : Type} [LE σ] [LT σ] (number : σ → Prop) : Prop where
  numbers {v w : σ} : v ≤ w → number v ∧ number w
  trans {u v w : σ} : u ≤ v → v ≤ w → u ≤ w
  total {v w : σ} : number v → number w → v ≤ w ∨ w ≤ v
  lt_iff {v w : σ} : v < w ↔ v ≤ w ∧ ¬ w ≤ v

namespace OrdersNumbers

variable {σ : Type} [LE σ] [LT σ] {number : σ → Prop} {u v w : σ}

theorem le_of_not_lt (orders : OrdersNumbers number) (isV : number v) (isW : number w)
    (notLess : ¬ v < w) : w ≤ v := by
  rcases orders.total isV isW with le | le
  · by_contra notLe
    exact notLess (orders.lt_iff.mpr ⟨le, notLe⟩)
  · exact le

theorem lt_of_not_le (orders : OrdersNumbers number) (isV : number v) (isW : number w)
    (notLe : ¬ v ≤ w) : w < v :=
  orders.lt_iff.mpr ⟨(orders.total isV isW).resolve_left notLe, notLe⟩

theorem lt_of_lt_of_le (orders : OrdersNumbers number) (less : u < v) (le : v ≤ w) : u < w := by
  obtain ⟨below, notLe⟩ := orders.lt_iff.mp less
  exact orders.lt_iff.mpr ⟨orders.trans below le, fun back => notLe (orders.trans le back)⟩

theorem lt_of_le_of_lt (orders : OrdersNumbers number) (le : u ≤ v) (less : v < w) : u < w := by
  obtain ⟨below, notLe⟩ := orders.lt_iff.mp less
  exact orders.lt_iff.mpr ⟨orders.trans le below, fun back => notLe (orders.trans back le)⟩

end OrdersNumbers

theorem linear_orders (σ : Type) [LinearOrder σ] : OrdersNumbers fun _ : σ => True where
  numbers _ := ⟨trivial, trivial⟩
  trans := le_trans
  total _ _ := le_total _ _
  lt_iff := lt_iff_le_not_ge

/-! ### Floating point values -/

/-- Where a value stands among the numbers: its sign decides, an infinity being of a sign of its own,
then the exponent, then the mantissa. -/
def standing : UnpackedFloat → ℤ ×ₗ ℤ ×ₗ ℤ
  | .infinity .positive => toLex (2, toLex (0, 0))
  | .infinity .negative => toLex (-2, toLex (0, 0))
  | .finite .positive mantissa exponent _ => toLex (1, toLex (exponent, mantissa))
  | .finite .negative mantissa exponent _ => toLex (-1, toLex (-exponent, -mantissa))
  | .zero _ | .notANumber => toLex (0, toLex (0, 0))

theorem compare_neg (v w : ℤ) : compare (-v) (-w) = (compare v w).swap := by
  rcases lt_trichotomy v w with less | rfl | more
  · rw [compare_lt_iff_lt.mpr less, compare_gt_iff_gt.mpr (Int.neg_lt_neg less)]
    rfl
  · simp
  · rw [compare_gt_iff_gt.mpr more, compare_lt_iff_lt.mpr (Int.neg_lt_neg more)]
    rfl

theorem compare_cast (m n : ℕ) : compare (m : ℤ) n = compare m n := by
  rcases lt_trichotomy m n with less | rfl | more
  · rw [compare_lt_iff_lt.mpr less, compare_lt_iff_lt.mpr (Int.ofNat_lt.mpr less)]
  · simp
  · rw [compare_gt_iff_gt.mpr more, compare_gt_iff_gt.mpr (Int.ofNat_lt.mpr more)]

theorem compare_standing {a b : UnpackedFloat} (isA : a.isNaN = false) (isB : b.isNaN = false) :
    a.compare b = some (compare (standing a) (standing b)) := by
  rcases a with (_ | _) | _ | _ | ⟨_ | _, m, e, _⟩ <;>
    rcases b with (_ | _) | _ | _ | ⟨_ | _, m', e', _⟩ <;>
    first | contradiction | rfl | skip
  -- what is left are two finite numbers of one sign
  · change some ((compare e e').then (compare m m')).swap =
      some ((compare (-e) (-e')).then (compare (-(m : ℤ)) (-(m' : ℤ))))
    rw [compare_neg, compare_neg, compare_cast, Ordering.swap_then]
  · change some ((compare e e').then (compare m m')) =
      some ((compare e e').then (compare (m : ℤ) m'))
    rw [compare_cast]

theorem compare_notANumber {a b : UnpackedFloat} (either : a.isNaN = true ∨ b.isNaN = true) :
    a.compare b = none := by
  rcases either with isNaN | isNaN
  · cases a with
    | notANumber => rfl
    | infinity | zero | finite => contradiction
  · cases b with
    | notANumber => rcases a with (_ | _) | _ | _ | ⟨_ | _, _, _, _⟩ <;> rfl
    | infinity | zero | finite => contradiction

section
variable {v w : Float}

theorem float_le_iff : v ≤ w ↔ (v.toModel.unpack.compare w.toModel.unpack).any (·.isLE) = true :=
  decide_eq_true_iff

theorem float_lt_iff :
    v < w ↔ (v.toModel.unpack.compare w.toModel.unpack == some .lt) = true :=
  decide_eq_true_iff

theorem isNaN_eq_false_of_le (le : v ≤ w) : v.isNaN = false ∧ w.isNaN = false := by
  have numbers : ¬ (v.isNaN = true ∨ w.isNaN = true) := by
    intro either
    rw [float_le_iff, compare_notANumber either] at le
    cases le
  rwa [not_or, Bool.not_eq_true, Bool.not_eq_true] at numbers

theorem le_iff_standing (isV : v.isNaN = false) (isW : w.isNaN = false) :
    v ≤ w ↔ standing v.toModel.unpack ≤ standing w.toModel.unpack := by
  rw [float_le_iff, compare_standing isV isW, ← compare_le_iff_le]
  exact Ordering.isLE_iff_ne_gt

theorem lt_iff_standing (isV : v.isNaN = false) (isW : w.isNaN = false) :
    v < w ↔ standing v.toModel.unpack < standing w.toModel.unpack := by
  rw [float_lt_iff, compare_standing isV isW, ← compare_lt_iff_lt, beq_iff_eq, Option.some_inj]

theorem float_le_of_lt (less : v < w) : v ≤ w := by
  rw [float_lt_iff, beq_iff_eq] at less
  rw [float_le_iff, less]
  rfl

end

theorem float_orders : OrdersNumbers fun v : Float => v.isNaN = false where
  numbers := isNaN_eq_false_of_le
  trans {u v w} le le' := by
    obtain ⟨isU, isV⟩ := isNaN_eq_false_of_le le
    obtain ⟨-, isW⟩ := isNaN_eq_false_of_le le'
    rw [le_iff_standing isU isW]
    exact ((le_iff_standing isU isV).mp le).trans ((le_iff_standing isV isW).mp le')
  total {v w} isV isW := by
    rw [le_iff_standing isV isW, le_iff_standing isW isV]
    exact le_total _ _
  lt_iff {v w} := by
    constructor
    · intro less
      have le := float_le_of_lt less
      obtain ⟨isV, isW⟩ := isNaN_eq_false_of_le le
      rw [lt_iff_standing isV isW] at less
      exact ⟨le, fun back => not_le_of_gt less ((le_iff_standing isW isV).mp back)⟩
    · rintro ⟨le, notLe⟩
      obtain ⟨isV, isW⟩ := isNaN_eq_false_of_le le
      rw [le_iff_standing isW isV, not_le] at notLe
      exact (lt_iff_standing isV isW).mpr notLe

end Screenplay
