import Mathlib
import Screenplay.Proofs.Finding
import Screenplay.Proofs.Listing

/-!
The way outward in signed words of 64 bits. Computed with a check at each operation it comes to the same
list (`outwardWords_eq`), as long as the numbers that it starts from are no larger than those of a picture.
The list names the positions of an interval that are a number of steps away from the centre, each once,
the nearer before the farther (`outwardWords_lists`).
-/
namespace Screenplay

/-- What an operation on words comes to; none if that is no word. -/
def int64? (n : Int) : Option Int := if -2 ^ 63 ≤ n ∧ n < 2 ^ 63 then some n else none

/-- The positions some steps away from the centre, with a check at each operation. -/
def ringWords (center step : Int) (k : Nat) : Option (List Int) := do
  let distance ← int64? (k * step)
  let above ← int64? (center + distance)
  if distance = 0 then return [above]
  let below ← int64? (center - distance)
  return [above, below]

/-- The way outward with a check at each operation. -/
def outwardWords (center lo hi : Int) (step : Nat) : Option (List Int) := do
  let step ← int64? (max step 1 : Nat)
  let back ← int64? (center - lo)
  let ahead ← int64? (hi - center)
  let last ← int64? (max (max back ahead) 0 / step)
  let rings ← (List.range (last.toNat + 1)).mapM (ringWords center step)
  return rings.flatten.filter fun v => lo ≤ v ∧ v ≤ hi

variable {center lo hi n : Int} {step : Nat}

/-- An operation on small numbers does not overflow. -/
theorem int64?_bind {α : Type} (small : n.natAbs ≤ 2 ^ 34) (next : Int → Option α) :
    int64? n >>= next = next n := by
  rw [int64?, if_pos (by omega), Option.bind_eq_bind, Option.bind_some]

theorem mapM_eq_map {α β : Type} {f : α → Option β} {g : α → β} {l : List α}
    (total : ∀ a ∈ l, f a = some (g a)) : l.mapM f = some (l.map g) := by
  induction l with
  | nil => rfl
  | cons a rest ih =>
    have others : ∀ b ∈ rest, f b = some (g b) := fun b later => total b (List.mem_cons_of_mem a later)
    rw [List.mapM_cons, total a List.mem_cons_self, ih others]
    rfl

theorem ringWords_eq {k : Nat} (centerSmall : center.natAbs ≤ 2 ^ 32) (positive : 0 < step)
    (near : k * step ≤ 2 ^ 33) : ringWords center step k =
      some (if k = 0 then [center] else [center + (k * step : Nat), center - (k * step : Nat)]) := by
  have none_iff : ((k * step : Nat) : Int) = 0 ↔ k = 0 := by
    rw [Int.natCast_eq_zero, Nat.mul_eq_zero]
    omega
  rw [ringWords, ← Int.natCast_mul]
  generalize k * step = d at near none_iff
  rw [int64?_bind (by omega), int64?_bind (by omega)]
  by_cases zero : k = 0
  · rw [if_pos (none_iff.mpr zero), if_pos zero, none_iff.mpr zero, Int.add_zero]
    rfl
  · rw [if_neg (mt none_iff.mp zero), if_neg zero, int64?_bind (by omega)]
    rfl

theorem outward_eq_filter {reach : Nat} (far : max (max (center - lo) (hi - center)) 0 = reach) :
    outward center lo hi step =
      ((List.range (reach / max step 1 + 1)).map fun k => if k = 0 then [center] else
        [center + (k * max step 1 : Nat), center - (k * max step 1 : Nat)]).flatten.filter
          fun v => lo ≤ v ∧ v ≤ hi := by
  simp only [outward, far, Int.toNat_natCast, List.filter_flatten, List.map_map, List.flatMap_def,
    Bool.decide_and]
  rfl

/-- On the numbers of a picture no operation overflows. -/
theorem outwardWords_eq (centerSmall : center.natAbs ≤ 2 ^ 32) (loSmall : lo.natAbs ≤ 2 ^ 32)
    (hiSmall : hi.natAbs ≤ 2 ^ 32) (stepSmall : step ≤ 2 ^ 32) :
    outwardWords center lo hi step = some (outward center lo hi step) := by
  obtain ⟨reach, far⟩ := Int.eq_ofNat_of_zero_le (le_max_right (max (center - lo) (hi - center)) 0)
  have reachSmall : reach ≤ 2 ^ 33 := by omega
  have lastSmall : ((reach / max step 1 : Nat) : Int).natAbs ≤ 2 ^ 34 := by
    have := Nat.div_le_self reach (max step 1)
    rw [Int.natAbs_natCast]
    omega
  have rings : ∀ k ∈ List.range (reach / max step 1 + 1), ringWords center (max step 1 : Nat) k =
      some (if k = 0 then [center] else
        [center + (k * max step 1 : Nat), center - (k * max step 1 : Nat)]) := by
    intro k counted
    have near : k * max step 1 ≤ reach :=
      Nat.mul_le_of_le_div _ _ _ (Nat.lt_succ_iff.mp (List.mem_range.mp counted))
    exact ringWords_eq centerSmall (by omega) (near.trans reachSmall)
  rw [outwardWords, int64?_bind (by omega), int64?_bind (by omega), int64?_bind (by omega), far,
    ← Int.natCast_ediv, int64?_bind lastSmall, Int.toNat_natCast, mapM_eq_map rings,
    outward_eq_filter far]
  rfl

/-- The bounds are needed: beyond them an operation may overflow. -/
example : outwardWords (2 ^ 63 - 1) (-1) 0 1 = none := by decide

/-! ### The ways of a search -/

/-- A sweep finds its rows and columns without overflow, whatever the hint. -/
theorem Quest.sweep_inWords (q : Quest) (hint : Offset) :
    let center := q.bounds.clamp hint
    let lo := max (center.x - Bounds.sweepReach) 0
    let hi := min (center.x + Bounds.sweepReach) q.bounds.maxX
    outwardWords center.y 0 q.bounds.maxY Bounds.sweepStep =
        some (outward center.y 0 q.bounds.maxY Bounds.sweepStep) ∧
      outwardWords center.x lo hi Bounds.sweepStep =
        some (outward center.x lo hi Bounds.sweepStep) := by
  have width := q.source.width.toNat_lt
  have height := q.source.height.toNat_lt
  have width' := q.template.width.toNat_lt
  have height' := q.template.height.toNat_lt
  have step : Bounds.sweepStep ≤ 2 ^ 32 := by decide
  simp only [Bounds.clamp, Quest.bounds, Bounds.sweepReach]
  exact ⟨outwardWords_eq (by omega) (by decide) (by omega) step,
    outwardWords_eq (by omega) (by omega) (by omega) step⟩

/-- The row of a place is found without overflow. -/
theorem Quest.row_inWords {q : Quest} {center : Offset} (inside : q.bounds.Contains center) :
    outwardWords center.x 0 q.bounds.maxX 1 = some (outward center.x 0 q.bounds.maxX 1) := by
  obtain ⟨⟨above, below⟩, -⟩ := inside
  have width := q.source.width.toNat_lt
  have width' := q.template.width.toNat_lt
  simp only [Quest.bounds] at above below ⊢
  exact outwardWords_eq (by omega) (by decide) (by omega) (by decide)

/-! ### What is visited -/

theorem mem_outward_iff_modEq {v : Int} : v ∈ outward center lo hi step ↔
    (lo ≤ v ∧ v ≤ hi) ∧ v ≡ center [ZMOD (max step 1 : Nat)] := by
  have single : outward center lo hi step = outward center lo hi (max step 1) := by
    simp only [outward, max_assoc, max_self]
  rw [single, mem_outward_iff (by omega), Int.modEq_comm, Int.modEq_iff_dvd]

theorem outward_nodup (center lo hi : Int) (step : Nat) : (outward center lo hi step).Nodup := by
  refine (outward_nearer center lo hi step).imp fun {v w} nearer => ?_
  rintro rfl
  simp [Nearer] at nearer

theorem outward_empty (step : Nat) (empty : hi < lo) : outward center lo hi step = [] := by
  rw [List.eq_nil_iff_forall_not_mem]
  intro v member
  have := mem_outward member
  omega

/-- One position at a time the whole interval is visited, wherever its centre is. -/
theorem outward_perm (center lo hi : Int) (single : step ≤ 1) :
    (outward center lo hi step).Perm (Finset.Icc lo hi).toList := by
  refine (List.perm_ext_iff_of_nodup (outward_nodup ..) (Finset.nodup_toList _)).mpr fun v => ?_
  have all : v ≡ center [ZMOD (max step 1 : Nat)] := by
    rw [Nat.max_eq_right single]
    exact Int.modEq_one
  rw [mem_outward_iff_modEq, Finset.mem_toList, Finset.mem_Icc, and_iff_left all]

/-- The way outward visits the positions of an interval that are a number of steps away from its centre,
each once, and the larger one first of two that are equally near. -/
theorem outwardWords_lists (center lo hi : Int) (step : Nat) (centerSmall : center.natAbs ≤ 2 ^ 32)
    (loSmall : lo.natAbs ≤ 2 ^ 32) (hiSmall : hi.natAbs ≤ 2 ^ 32) (stepSmall : step ≤ 2 ^ 32) :
    outwardWords center lo hi step = some (outward center lo hi step) ∧
    (∀ v, v ∈ outward center lo hi step ↔
      (lo ≤ v ∧ v ≤ hi) ∧ v ≡ center [ZMOD (max step 1 : Nat)]) ∧
    (outward center lo hi step).Nodup ∧
    (outward center lo hi step).Pairwise (Nearer center) ∧
    (hi < lo → outward center lo hi step = []) ∧
    (step ≤ 1 → (outward center lo hi step).Perm (Finset.Icc lo hi).toList) :=
  ⟨outwardWords_eq centerSmall loSmall hiSmall stepSmall, fun _ => mem_outward_iff_modEq,
    outward_nodup .., outward_nearer .., outward_empty step, outward_perm center lo hi⟩

/-- The centre lies beyond the interval, as far out as it may. -/
theorem outwardWords_lists_beyond :
    outwardWords 4294967296 4294967293 4294967295 1 =
        some [4294967295, 4294967294, 4294967293] ∧
      [4294967295, 4294967294, 4294967293].Perm (Finset.Icc (4294967293 : Int) 4294967295).toList := by
  have way : outward 4294967296 4294967293 4294967295 1 =
      [4294967295, 4294967294, 4294967293] := by decide
  obtain ⟨words, -, -, -, -, all⟩ := outwardWords_lists 4294967296 4294967293 4294967295 1
    (by decide) (by decide) (by decide) (by decide)
  rw [way] at words all
  exact ⟨words, all (Nat.le_refl 1)⟩

end Screenplay
