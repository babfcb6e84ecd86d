import Mathlib.Tactic.Push
import Mathlib.Tactic.Ring
import Screenplay.Image.Edges
import Screenplay.Proofs.Cropping

/-!
How the edge map of a part goes with that of the whole. The strength of an edge depends only on the
samples at the pixel and around it (`GrayBuffer.edge_eq_of_samples`), and a sample past a side counts as
the nearest pixel inside. So the two maps agree wherever no sample lies past a side of the part that is
not a side of the whole as well (`GrayBuffer.edges_of_part`).
-/
namespace Screenplay

namespace GrayBuffer

variable {part whole : GrayBuffer} {x y : Nat}

/-- The edge map has the strength of the edge at each pixel. -/
theorem sobel_get (g : GrayBuffer) {x y : Nat} (column : x < g.width) (row : y < g.height) :
    g.sobel.get x y = g.edge x y := by
  have each : ∀ y < g.height, ((Array.range g.width).map fun x => g.edge x y).size = g.width := by
    simp
  change (g.sobel.data.getD (y * g.width + x) 0) = _
  rw [Array.getD_eq_getD_getElem?, sobel, Array.getElem?_flatMap_range each row column]
  simp [column]

/-- Where all samples around two pixels are the same, their edges are equally strong. -/
theorem edge_eq_of_samples {g g' : GrayBuffer} {x y x' y' : Nat}
    (same : ∀ dx dy : Int, -1 ≤ dx ∧ dx ≤ 1 → -1 ≤ dy ∧ dy ≤ 1 →
      g.sample (x + dx) (y + dy) = g'.sample (x' + dx) (y' + dy)) :
    g.edge x y = g'.edge x' y' := by
  have left := same (-1) 0 (by decide) (by decide)
  have right := same 1 0 (by decide) (by decide)
  have above := same 0 (-1) (by decide) (by decide)
  have below := same 0 1 (by decide) (by decide)
  have leftAbove := same (-1) (-1) (by decide) (by decide)
  have rightAbove := same 1 (-1) (by decide) (by decide)
  have leftBelow := same (-1) 1 (by decide) (by decide)
  have rightBelow := same 1 1 (by decide) (by decide)
  simp only [Int.add_zero, Int.reduceNeg, ← Int.sub_eq_add_neg] at left right above below
  simp only [Int.reduceNeg, ← Int.sub_eq_add_neg] at leftAbove rightAbove leftBelow
  simp only [edge, gradientX, gradientY, left, right, above, below, leftAbove, rightAbove, leftBelow,
    rightBelow]

/-- No cut lies on the way from a part to this position: the position is in the part, or the side past
which it lies is a side of the whole as well. -/
def Uncut (start size total : Nat) (u : Int) : Prop :=
  (0 ≤ u ∨ start = 0) ∧ (u < size ∨ start + size = total)

/-- The position inside that counts for a position just outside; it is the same for the part and for the
whole unless a cut lies on the way. -/
theorem Uncut.nearest {start size total : Nat} {u : Int} (uncut : Uncut start size total u)
    (some : 0 < size) (within : start + size ≤ total) :
    (min (max (start + u) 0) (total - 1)).toNat = start + (min (max u 0) (size - 1)).toNat ∧
      (min (max u 0) (size - 1)).toNat < size := by
  obtain ⟨low, high⟩ := uncut
  omega

/-- A sample of the part is one of the whole unless the whole goes on where the part ends. -/
theorem CutFrom.sample (cut : part.CutFrom whole x y) (wide : 0 < part.width)
    (high : 0 < part.height) {u v : Int} (columns : Uncut x part.width whole.width u)
    (rows : Uncut y part.height whole.height v) :
    part.sample u v = whole.sample (x + u) (y + v) := by
  obtain ⟨column, inColumns⟩ := columns.nearest wide cut.right
  obtain ⟨row, inRows⟩ := rows.nearest high cut.below
  rw [GrayBuffer.sample, GrayBuffer.sample, column, row, cut.pixel _ inColumns _ inRows]

/-- The pixel lies on a side of the part that is not a side of the whole. -/
def OnCut (part whole : GrayBuffer) (x y column row : Nat) : Prop :=
  (column = 0 ∧ x ≠ 0) ∨ (column + 1 = part.width ∧ x + part.width ≠ whole.width) ∨
    (row = 0 ∧ y ≠ 0) ∨ (row + 1 = part.height ∧ y + part.height ≠ whole.height)

instance (part whole : GrayBuffer) (x y column row : Nat) :
    Decidable (part.OnCut whole x y column row) :=
  inferInstanceAs (Decidable (_ ∨ _ ∨ _ ∨ _))

/-- The pixels on the sides of a picture. -/
def OnRing (g : GrayBuffer) (column row : Nat) : Prop :=
  column = 0 ∨ column + 1 = g.width ∨ row = 0 ∨ row + 1 = g.height

theorem OnCut.onRing {column row : Nat} (onCut : part.OnCut whole x y column row) :
    part.OnRing column row :=
  onCut.imp And.left (Or.imp And.left (Or.imp And.left And.left))

/-- The edge map of the part is that of the whole, but for pixels that lie on a side where it was cut.
So the two differ at most along the outermost ring of the part. -/
structure EdgesOf (part whole : GrayBuffer) (x y : Nat) : Prop where
  uncut : ∀ column < part.width, ∀ row < part.height, ¬ part.OnCut whole x y column row →
    part.sobel.get column row = whole.sobel.get (x + column) (y + row)
  ring : ∀ column < part.width, ∀ row < part.height,
    part.sobel.get column row ≠ whole.sobel.get (x + column) (y + row) → part.OnRing column row

theorem CutFrom.sobel_get (cut : part.CutFrom whole x y) {column row : Nat}
    (inColumns : column < part.width) (inRows : row < part.height)
    (uncut : ¬ part.OnCut whole x y column row) :
    part.sobel.get column row = whole.sobel.get (x + column) (y + row) := by
  have right := cut.right
  have below := cut.below
  rw [GrayBuffer.sobel_get _ inColumns inRows, GrayBuffer.sobel_get _ (by omega) (by omega)]
  unfold OnCut at uncut
  push Not at uncut
  obtain ⟨left, right', above, below'⟩ := uncut
  refine edge_eq_of_samples fun dx dy narrow low => ?_
  rw [cut.sample (by omega) (by omega) (by unfold Uncut; omega) (by unfold Uncut; omega)]
  push_cast
  rw [Int.add_assoc, Int.add_assoc]

theorem CutFrom.edgesOf (cut : part.CutFrom whole x y) : part.EdgesOf whole x y where
  uncut _ inColumns _ inRows uncut := cut.sobel_get inColumns inRows uncut
  ring column inColumns row inRows differ := by
    by_contra inside
    exact differ (cut.sobel_get inColumns inRows fun onCut => inside onCut.onRing)

/-- The edge map of what is cut out of a picture is that of the picture at the same place, but for the
pixels on sides where it was cut; likewise the edge map of a template that was cut out of a frame. -/
theorem edges_of_part :
    (∀ (part whole : GrayBuffer) (x y : Nat), part.CutFrom whole x y → part.EdgesOf whole x y) ∧
    ∀ (f part : Frame) (x y width height : UInt32), f.crop x y width height = some part →
      part.Whole → part.toGray.EdgesOf f.toGray x.toNat y.toNat :=
  ⟨fun _ _ _ _ cut => cut.edgesOf,
    fun _ _ _ _ _ _ made whole => (Frame.toGray_cutFrom made whole).edgesOf⟩

/-- The left upper corner of a frame: it has the edge of the frame in its own corner and another one
where it was cut. -/
theorem edges_of_part_corner :
    let f : Frame := ⟨3, 3, .gray, #[10, 20, 200, 40, 90, 60, 70, 10, 0]⟩
    let part : Frame := ⟨2, 2, .gray, #[10, 20, 40, 90]⟩
    f.crop 0 0 2 2 = some part ∧ part.Whole ∧ part.toGray.CutFrom f.toGray 0 0 ∧
      part.toGray.sobel.get 0 0 = f.toGray.sobel.get 0 0 ∧
      part.toGray.sobel.get 1 1 ≠ f.toGray.sobel.get 1 1 ∧ part.toGray.OnRing 1 1 := by
  intro f part
  have made : f.crop 0 0 2 2 = some part := by decide
  have cut : part.toGray.CutFrom f.toGray 0 0 := Frame.toGray_cutFrom made rfl
  have edges := edges_of_part.2 f part 0 0 2 2 made rfl
  have corner := (edges_of_part.1 _ _ 0 0 cut).uncut 0 (by decide) 0 (by decide) (by decide)
  have differ : part.toGray.sobel.get 1 1 ≠ f.toGray.sobel.get (0 + 1) (0 + 1) := by decide +kernel
  exact ⟨made, rfl, cut, corner, differ, edges.ring 1 (by decide) 1 (by decide) differ⟩

end GrayBuffer

end Screenplay
