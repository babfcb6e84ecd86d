import Screenplay.Matching.Offsets

/-!
Every offset that a search order names lies inside the bounds, whatever the hint or the centre. The
orders that a search begins with name at least one.
-/
namespace Screenplay

theorem mem_stepsFrom {lo hi v : Int} {step : Nat} (member : v ∈ stepsFrom lo hi step) :
    lo ≤ v ∧ v ≤ hi := by
  rw [stepsFrom] at member
  split at member
  · cases member
  next ordered =>
    obtain ⟨k, counted, rfl⟩ := List.mem_map.mp member
    have within : k * max step 1 ≤ (hi - lo).toNat :=
      Nat.mul_le_of_le_div _ _ _ (Nat.lt_succ_iff.mp (List.mem_range.mp counted))
    omega

theorem mem_outward {center lo hi v : Int} {step : Nat} (member : v ∈ outward center lo hi step) :
    lo ≤ v ∧ v ≤ hi := by
  simp only [outward, List.mem_flatMap, List.mem_filter, Bool.and_eq_true, decide_eq_true_eq]
    at member
  obtain ⟨k, _, _, within⟩ := member
  exact within

/-- An interval that is not empty is visited at its beginning. -/
theorem stepsFrom_ne_nil {lo hi : Int} (step : Nat) (ordered : lo ≤ hi) :
    stepsFrom lo hi step ≠ [] := by
  rw [stepsFrom, if_neg (by omega)]
  simp

/-- The way outward begins at its centre. -/
theorem center_mem_outward {center lo hi : Int} (step : Nat) (above : lo ≤ center)
    (below : center ≤ hi) : center ∈ outward center lo hi step := by
  simp only [outward, List.mem_flatMap, List.mem_filter, Bool.and_eq_true, decide_eq_true_eq]
  exact ⟨0, by simp, by simp, above, below⟩

namespace Bounds

/-- The template placed at this offset lies inside the source. -/
def Contains (b : Bounds) (o : Offset) : Prop :=
  (0 ≤ o.x ∧ o.x ≤ b.maxX) ∧ (0 ≤ o.y ∧ o.y ≤ b.maxY)

variable {b : Bounds} {o center hint : Offset}

/-- An order that visits columns in each of its rows. -/
theorem contains_of_rows {rows columns : List Int}
    (member : o ∈ rows.flatMap fun y => columns.map fun x => (⟨x, y⟩ : Offset))
    (inRows : ∀ y ∈ rows, 0 ≤ y ∧ y ≤ b.maxY) (inColumns : ∀ x ∈ columns, 0 ≤ x ∧ x ≤ b.maxX) :
    b.Contains o := by
  obtain ⟨y, row, inside⟩ := List.mem_flatMap.mp member
  obtain ⟨x, column, rfl⟩ := List.mem_map.mp inside
  exact ⟨inColumns x column, inRows y row⟩

theorem contains_of_mem_grid (member : o ∈ b.grid) : b.Contains o :=
  contains_of_rows member (fun _ => mem_stepsFrom) (fun _ => mem_stepsFrom)

theorem contains_of_mem_sweep (member : o ∈ b.sweep hint) : b.Contains o := by
  refine contains_of_rows member (fun _ => mem_outward) ?_
  intro x column
  have within := mem_outward column
  omega

theorem contains_of_mem_row (inside : b.Contains center) (member : o ∈ b.row center) :
    b.Contains o := by
  obtain ⟨x, column, rfl⟩ := List.mem_map.mp member
  exact ⟨mem_outward column, inside.2⟩

theorem contains_of_mem_surroundings (member : o ∈ b.surroundings center) : b.Contains o := by
  refine contains_of_rows member ?_ ?_
  · intro y row
    have within := mem_stepsFrom row
    omega
  · intro x column
    have within := mem_stepsFrom column
    omega

theorem grid_ne_nil (wide : 0 ≤ b.maxX) (high : 0 ≤ b.maxY) : b.grid ≠ [] := by
  intro empty
  obtain ⟨y, row⟩ := List.exists_mem_of_ne_nil _ (stepsFrom_ne_nil gridStep high)
  obtain ⟨x, column⟩ := List.exists_mem_of_ne_nil _ (stepsFrom_ne_nil gridStep wide)
  have member : (⟨x, y⟩ : Offset) ∈ b.grid :=
    List.mem_flatMap.mpr ⟨y, row, List.mem_map.mpr ⟨x, column, rfl⟩⟩
  rw [empty] at member
  cases member

theorem sweep_ne_nil (wide : 0 ≤ b.maxX) (high : 0 ≤ b.maxY) (hint : Offset) :
    b.sweep hint ≠ [] := by
  intro empty
  have row : (b.clamp hint).y ∈ outward (b.clamp hint).y 0 b.maxY sweepStep := by
    apply center_mem_outward <;> simp only [clamp] <;> omega
  have column : (b.clamp hint).x ∈ outward (b.clamp hint).x
      (max ((b.clamp hint).x - sweepReach) 0) (min ((b.clamp hint).x + sweepReach) b.maxX)
      sweepStep := by
    apply center_mem_outward <;> simp only [clamp, sweepReach] <;> omega
  have member : b.clamp hint ∈ b.sweep hint :=
    List.mem_flatMap.mpr ⟨_, row, List.mem_map.mpr ⟨_, column, rfl⟩⟩
  rw [empty] at member
  cases member

/-- The order in which a search begins. -/
def firstOrder (b : Bounds) : Option Offset → List Offset
  | none => b.grid
  | some hint => b.sweep hint

theorem contains_of_mem_firstOrder {hint : Option Offset} (member : o ∈ b.firstOrder hint) :
    b.Contains o := by
  cases hint with
  | none => exact contains_of_mem_grid member
  | some hint => exact contains_of_mem_sweep member

theorem firstOrder_ne_nil (wide : 0 ≤ b.maxX) (high : 0 ≤ b.maxY) (hint : Option Offset) :
    b.firstOrder hint ≠ [] := by
  cases hint with
  | none => exact grid_ne_nil wide high
  | some hint => exact sweep_ne_nil wide high hint

end Bounds

end Screenplay
