import Mathlib.Algebra.Order.Ring.Int
import Mathlib.Data.List.Pairwise
import Mathlib.Tactic.Ring
import Mathlib.Tactic.Tauto
import Screenplay.Proofs.Offsets

/-!
What the orders of the search list. Each of them names the offsets of one kind inside the bounds, each
of them once, in an order that is said without the way in which it is made: row by row, or by the
distance from a centre (`Bounds.Lists`).
-/
namespace Screenplay

/-! ### Positions in one direction -/

theorem mem_stepsFrom_iff {lo hi v : Int} {step : Nat} (positive : 0 < step) :
    v ∈ stepsFrom lo hi step ↔ (lo ≤ v ∧ v ≤ hi) ∧ (step : Int) ∣ v - lo := by
  have single : max step 1 = step := by omega
  constructor
  · intro member
    refine ⟨mem_stepsFrom member, ?_⟩
    rw [stepsFrom] at member
    split at member
    · cases member
    · obtain ⟨k, -, rfl⟩ := List.mem_map.mp member
      exact ⟨k, by rw [single]; push_cast; ring⟩
  · rintro ⟨⟨above, below⟩, ⟨k, steps⟩⟩
    rw [stepsFrom, if_neg (by omega), single]
    have forward : 0 ≤ k := by
      by_contra negative
      have := mul_neg_of_pos_of_neg (a := (step : Int)) (b := k) (by omega) (by omega)
      omega
    obtain ⟨n, rfl⟩ := Int.eq_ofNat_of_zero_le forward
    have reached : n * step ≤ (hi - lo).toNat := by
      have : ((n * step : Nat) : Int) = v - lo := by push_cast; rw [steps]; ring
      omega
    refine List.mem_map.mpr ⟨n, List.mem_range.mpr ?_, ?_⟩
    · exact Nat.lt_succ_of_le ((Nat.le_div_iff_mul_le positive).mpr reached)
    · push_cast
      rw [mul_comm, ← steps]
      ring

theorem stepsFrom_increasing (lo hi : Int) (step : Nat) :
    (stepsFrom lo hi step).Pairwise (· < ·) := by
  rw [stepsFrom]
  split
  · exact .nil
  refine List.pairwise_map.mpr (List.pairwise_lt_range.imp fun {k k'} less => ?_)
  have further : k * max step 1 < k' * max step 1 := Nat.mul_lt_mul_of_pos_right less (by omega)
  omega

/-- The first position comes before the second one on the way outward: it is nearer to the centre, or it
is the larger one of two that are equally near. -/
def Nearer (center v w : Int) : Prop :=
  (v - center).natAbs < (w - center).natAbs ∨
    ((v - center).natAbs = (w - center).natAbs ∧ w < v)

theorem mem_candidates {center v : Int} {k step : Nat} :
    (v ∈ if k = 0 then [center] else [center + (k * step : Nat), center - (k * step : Nat)]) ↔
      (v - center).natAbs = k * step := by
  split
  next zero =>
    rw [zero, List.mem_singleton, Nat.zero_mul]
    omega
  next =>
    simp only [List.mem_cons, List.not_mem_nil, or_false]
    omega

theorem mem_outward_iff {center lo hi v : Int} {step : Nat} (positive : 0 < step) :
    v ∈ outward center lo hi step ↔ (lo ≤ v ∧ v ≤ hi) ∧ (step : Int) ∣ v - center := by
  have single : max step 1 = step := by omega
  rw [Int.natCast_dvd]
  simp only [outward, single, List.mem_flatMap, List.mem_filter, mem_candidates, List.mem_range,
    Bool.and_eq_true, decide_eq_true_eq]
  constructor
  · rintro ⟨k, -, distance, within⟩
    exact ⟨within, k, by rw [distance, Nat.mul_comm]⟩
  · rintro ⟨within, k, steps⟩
    rw [Nat.mul_comm] at steps
    refine ⟨k, Nat.lt_succ_of_le ((Nat.le_div_iff_mul_le positive).mpr ?_), steps, within⟩
    omega

theorem outward_nearer (center lo hi : Int) (step : Nat) :
    (outward center lo hi step).Pairwise (Nearer center) := by
  simp only [outward]
  generalize single : max step 1 = s
  have positive : 0 < s := by omega
  refine List.pairwise_flatMap.mpr ⟨fun k _ => ?_, List.pairwise_lt_range.imp fun {k k'} less => ?_⟩
  · -- the two positions at one distance
    refine List.Pairwise.filter _ ?_
    split
    · exact List.pairwise_singleton _ _
    · refine List.pairwise_pair.mpr (.inr ?_)
      have : 0 < k * s := Nat.mul_pos (by omega) positive
      omega
  · intro v here w there
    have further : k * s < k' * s := Nat.mul_lt_mul_of_pos_right less positive
    have distance := mem_candidates.mp (List.mem_filter.mp here).1
    have distance' := mem_candidates.mp (List.mem_filter.mp there).1
    exact .inl (by rwa [distance, distance'])

/-! ### Offsets -/

/-- The offsets in the order of their rows, and in each row in the order of its columns. -/
def Offset.Before (rows columns : Int → Int → Prop) (o o' : Offset) : Prop :=
  rows o.y o'.y ∨ (o.y = o'.y ∧ columns o.x o'.x)

/-- Row by row, each from the left. -/
def Offset.RowByRow : Offset → Offset → Prop := Before (· < ·) (· < ·)

/-- The rows outward from that of a centre, and in each row the columns outward from its own. -/
def Offset.Outward (center : Offset) : Offset → Offset → Prop :=
  Before (Nearer center.y) (Nearer center.x)

theorem Offset.rowByRow_irrefl (o : Offset) : ¬ RowByRow o o := by
  rintro (less | ⟨-, less⟩) <;> exact Int.lt_irrefl _ less

theorem Offset.outward_irrefl (center o : Offset) : ¬ Outward center o o := by
  rintro ((less | ⟨-, less⟩) | ⟨-, less | ⟨-, less⟩⟩) <;> omega

theorem Offset.pairwise_before {rows columns : Int → Int → Prop} {ys xs : List Int}
    (inRows : ys.Pairwise rows) (inColumns : xs.Pairwise columns) :
    (ys.flatMap fun y => xs.map fun x => (⟨x, y⟩ : Offset)).Pairwise (Before rows columns) := by
  refine List.pairwise_flatMap.mpr ⟨fun y _ => ?_, inRows.imp fun {y y'} earlier => ?_⟩
  · exact List.pairwise_map.mpr (inColumns.imp fun earlier => .inr ⟨rfl, earlier⟩)
  · intro o here o' there
    obtain ⟨x, -, rfl⟩ := List.mem_map.mp here
    obtain ⟨x', -, rfl⟩ := List.mem_map.mp there
    exact .inl earlier

theorem Offset.mem_rows {ys xs : List Int} {o : Offset} :
    o ∈ (ys.flatMap fun y => xs.map fun x => (⟨x, y⟩ : Offset)) ↔ o.y ∈ ys ∧ o.x ∈ xs := by
  simp only [List.mem_flatMap, List.mem_map]
  constructor
  · rintro ⟨y, row, x, column, rfl⟩
    exact ⟨row, column⟩
  · rintro ⟨row, column⟩
    exact ⟨o.y, row, o.x, column, rfl⟩

/-- At most so far away in either direction. -/
def Offset.Within (o : Offset) (reach : Nat) (center : Offset) : Prop :=
  (o.x - center.x).natAbs ≤ reach ∧ (o.y - center.y).natAbs ≤ reach

namespace Bounds

/-- The list names exactly the offsets of a kind that lie inside the bounds, each of them once and
before those that come after it in an order. -/
structure Lists (b : Bounds) (such : Offset → Prop) (before : Offset → Offset → Prop)
    (l : List Offset) : Prop where
  member : ∀ o, o ∈ l ↔ b.Contains o ∧ such o
  ordered : l.Pairwise before
  once : l.Nodup

/-- What stands in a strict order stands there once. -/
theorem lists_of_strict {b : Bounds} {such : Offset → Prop} {before : Offset → Offset → Prop}
    {l : List Offset} (strict : ∀ o, ¬ before o o) (member : ∀ o, o ∈ l ↔ b.Contains o ∧ such o)
    (ordered : l.Pairwise before) : b.Lists such before l := by
  refine ⟨member, ordered, ordered.imp fun {o p} earlier same => ?_⟩
  subst same
  exact strict o earlier

/-- Both coordinates are multiples of four. -/
def Aligned (o : Offset) : Prop := 4 ∣ o.x ∧ 4 ∣ o.y

/-- An even number of rows and columns away from a centre, and not too far to its side. -/
def Swept (center o : Offset) : Prop :=
  2 ∣ o.y - center.y ∧ 2 ∣ o.x - center.x ∧ (o.x - center.x).natAbs ≤ 24

variable {b : Bounds} {center o : Offset}

theorem grid_lists (b : Bounds) : b.Lists Aligned Offset.RowByRow b.grid := by
  refine lists_of_strict Offset.rowByRow_irrefl (fun o => ?_)
    (Offset.pairwise_before (stepsFrom_increasing ..) (stepsFrom_increasing ..))
  have step : 0 < gridStep := by decide
  rw [grid, Offset.mem_rows, mem_stepsFrom_iff step, mem_stepsFrom_iff step]
  simp only [Contains, Aligned, gridStep, Int.sub_zero, Nat.cast_ofNat]
  tauto

theorem sweep_lists (b : Bounds) (hint : Offset) :
    b.Lists (Swept (b.clamp hint)) (Offset.Outward (b.clamp hint)) (b.sweep hint) := by
  refine lists_of_strict (Offset.outward_irrefl _) (fun o => ?_)
    (Offset.pairwise_before (outward_nearer ..) (outward_nearer ..))
  have step : 0 < sweepStep := by decide
  rw [sweep, Offset.mem_rows, mem_outward_iff step, mem_outward_iff step]
  simp only [Contains, Swept, sweepStep, sweepReach, Nat.cast_ofNat]
  omega

/-- The whole row of an offset inside the bounds. -/
theorem row_lists (inside : b.Contains center) :
    b.Lists (fun o => o.y = center.y) (Offset.Outward center) (b.row center) := by
  refine lists_of_strict (Offset.outward_irrefl _) (fun o => ?_)
    (List.pairwise_map.mpr ((outward_nearer ..).imp fun nearer => .inr ⟨rfl, nearer⟩))
  simp only [row, List.mem_map, mem_outward_iff Nat.one_pos, Contains]
  simp only [Contains] at inside
  constructor
  · rintro ⟨x, ⟨within, -⟩, rfl⟩
    exact ⟨⟨within, inside.2⟩, rfl⟩
  · rintro ⟨⟨within, -⟩, same⟩
    exact ⟨o.x, ⟨within, by simp⟩, by rw [← same]⟩

/-- What the last look goes through: the surroundings of a place without the place itself. -/
theorem surroundings_lists (b : Bounds) (center : Offset) :
    b.Lists (fun o => o.Within 3 center ∧ o ≠ center) Offset.RowByRow
      ((b.surroundings center).filter fun o => !decide (o = center)) := by
  refine lists_of_strict Offset.rowByRow_irrefl (fun o => ?_)
    ((Offset.pairwise_before (stepsFrom_increasing ..) (stepsFrom_increasing ..)).filter _)
  rw [List.mem_filter, surroundings, Offset.mem_rows, mem_stepsFrom_iff Nat.one_pos,
    mem_stepsFrom_iff Nat.one_pos]
  simp only [Contains, Offset.Within, fineReach, Nat.cast_one, Int.one_dvd, and_true,
    Bool.not_eq_true', decide_eq_false_iff_not, ne_eq, ← and_assoc]
  refine and_congr_left' ?_
  omega

end Bounds

end Screenplay
