import HeadsetStream.Proofs.WarpCurve
import Mathlib.Analysis.Calculus.Deriv.Pow
import Mathlib.Analysis.Calculus.Deriv.Mul
import Mathlib.Analysis.Calculus.Deriv.Add
import Mathlib.Topology.Algebra.Module.ModuleTopology
import Mathlib.Topology.Order.IntermediateValue

/-!
# Looking up the squeezed position

The renderer has a place on the display and looks for the place of the squeezed frame that is shown
there. Over the real numbers there is exactly one, since the curve of the coefficients is
differentiable where its pieces meet and takes each value once. On an edge it is the root of a
quadratic equation. The formula that goes with the left edge finds it; in the one that goes with the
right edge a sign is turned, so that it finds it at one place at most.
-/

namespace HeadsetStream.Foveation
open Number

namespace Piece

variable (piece : Piece ℝ)

theorem hasDerivAt (y : ℝ) : HasDerivAt piece.value (piece.slope y) y := by
  have hsquare := ((hasDerivAt_id y).pow 2).const_mul piece.square
  have hlinear := (hasDerivAt_id y).const_mul piece.linear
  refine ((hsquare.add hlinear).add_const piece.constant).congr_deriv ?_
  simp only [slope, id_eq]
  ring

theorem continuous : Continuous piece.value :=
  continuous_iff_continuousAt.mpr fun y => (piece.hasDerivAt y).continuousAt

theorem discriminant_value (y : ℝ) : piece.discriminant (piece.value y) = piece.slope y ^ 2 := by
  unfold discriminant value slope
  ring

variable {piece}

theorem root_value (hsquare : piece.square ≠ 0) {y : ℝ} (hslope : 0 ≤ piece.slope y) :
    piece.root (piece.value y) = y := by
  rw [root, discriminant_value, Real.sqrt_sq hslope, div_eq_iff (mul_ne_zero two_ne_zero hsquare)]
  unfold slope
  ring

end Piece

namespace AxisWarp

variable (warp : AxisWarp ℝ)

theorem documentedLeft_eq (x : ℝ) : warp.documentedLeft x = warp.leftPiece.root x := by
  have hsame : warp.leftPiece.discriminant x = warp.bLeft ^ 2 + 4 * warp.aLeft * x := by
    unfold Piece.discriminant leftPiece
    ring
  rw [documentedLeft, Piece.root, hsame]
  rfl

variable {warp}

theorem rightPiece_discriminant (h : warp.aRight ≠ 0) (x : ℝ) :
    warp.rightPiece.discriminant x = warp.bRight ^ 2 - 4 * (warp.cRight - warp.aRight * x) := by
  unfold Piece.discriminant rightPiece
  field_simp

/-- The turned sign mirrors the discriminant. -/
theorem documentedDiscriminant_eq (h : warp.aRight ≠ 0) (x : ℝ) :
    warp.documentedDiscriminant x = 2 * warp.bRight ^ 2 - warp.rightPiece.discriminant x := by
  rw [rightPiece_discriminant h, documentedDiscriminant]
  ring

theorem documentedDiscriminant_value_iff (h : warp.aRight ≠ 0) {y : ℝ} (hy : y ≠ 0) :
    warp.documentedDiscriminant (warp.rightPiece.value y) = warp.rightPiece.slope y ^ 2 ↔
      warp.aRight * y + warp.bRight = 0 := by
  have hfactor : warp.rightPiece.slope y ^ 2 - warp.bRight ^ 2 =
      4 * warp.aRight * y * (warp.aRight * y + warp.bRight) := by
    unfold Piece.slope rightPiece
    ring
  have hay : 4 * warp.aRight * y ≠ 0 := mul_ne_zero (mul_ne_zero four_ne_zero h) hy
  rw [documentedDiscriminant_eq h, Piece.discriminant_value, ← mul_eq_zero_iff_left hay, ← hfactor]
  constructor <;> intro heq <;> linarith

theorem documentedRight_value_iff (h : warp.aRight ≠ 0) {y : ℝ} (hy : y ≠ 0)
    (hslope : 0 < warp.rightPiece.slope y) :
    warp.documentedRight (warp.rightPiece.value y) = y ↔
      warp.aRight * y + warp.bRight = 0 := by
  have hroot : warp.documentedRight (warp.rightPiece.value y) = y ↔
      √(warp.documentedDiscriminant (warp.rightPiece.value y)) = warp.rightPiece.slope y := by
    rw [documentedRight, div_eq_iff (mul_ne_zero two_ne_zero h), Piece.slope, neg_add_eq_iff_eq_add,
      show y * (2 * warp.aRight) = 2 * warp.aRight * y from mul_comm .., add_comm warp.bRight]
    rfl
  rw [hroot, ← documentedDiscriminant_value_iff h hy, Real.sqrt_eq_iff_mul_self_eq_of_pos hslope,
    ← sq, eq_comm]

end AxisWarp

namespace AxisShape

variable (shape : AxisShape ℝ)

private theorem aLeft_ne_zero : shape.warp.aLeft ≠ 0 := by
  rw [warp_eq]
  exact neg_ne_zero.mpr (div_pos shape.bend_pos shape.left_pos).ne'

theorem aRight_ne_zero : shape.warp.aRight ≠ 0 := by
  rw [warp_eq]
  exact (div_pos shape.bend_pos shape.right_pos).ne'

variable {shape}

private theorem left_slope_pos {y : ℝ} (hy : y ∈ Set.Icc 0 shape.warp.loSqueezed) :
    0 < shape.warp.leftPiece.slope y := by
  rw [loSqueezed_eq] at hy
  refine Piece.slope_pos ?_ ?_ hy
  · rw [left_slope_zero]
    exact shape.outer_pos
  · rw [left_slope]
    exact shape.inner_pos

theorem right_slope_pos {y : ℝ} (hy : y ∈ Set.Icc shape.warp.hiSqueezed 1) :
    0 < shape.warp.rightPiece.slope y := by
  rw [hiSqueezed_eq] at hy
  refine Piece.slope_pos ?_ ?_ hy
  · rw [right_slope]
    exact shape.inner_pos
  · rw [right_slope_one]
    exact shape.outer_pos

variable (shape)

/-- The display has a derivative also where two pieces meet. -/
theorem display_hasDerivAt_bounds :
    HasDerivAt (shape.warp.display shape.ratio) shape.inner shape.left ∧
      HasDerivAt (shape.warp.display shape.ratio) shape.inner (1 - shape.right) := by
  obtain ⟨hlo, hlt, hhi⟩ := shape.squeezed_bounds
  have hleft := shape.warp.leftPiece.hasDerivAt shape.left
  have hcenter := (shape.warp.centerPiece shape.ratio).hasDerivAt
  have hright := shape.warp.rightPiece.hasDerivAt (1 - shape.right)
  rw [left_slope] at hleft
  simp only [center_slope] at hcenter
  rw [right_slope] at hright
  constructor
  · have hbelow := hleft.hasDerivWithinAt.congr shape.display_left
      (shape.display_left ⟨hlo.le, le_rfl⟩)
    have habove := (hcenter shape.left).hasDerivWithinAt.congr shape.display_center
      (shape.display_center ⟨le_rfl, hlt.le⟩)
    have hboth := hbelow.union habove
    rw [Set.Icc_union_Icc_eq_Icc hlo.le hlt.le] at hboth
    exact hboth.hasDerivAt (Icc_mem_nhds hlo hlt)
  · have hbelow := (hcenter (1 - shape.right)).hasDerivWithinAt.congr shape.display_center
      (shape.display_center ⟨hlt.le, le_rfl⟩)
    have habove := hright.hasDerivWithinAt.congr shape.display_right
      (shape.display_right ⟨le_rfl, hhi.le⟩)
    have hboth := hbelow.union habove
    rw [Set.Icc_union_Icc_eq_Icc hlt.le hhi.le] at hboth
    exact hboth.hasDerivAt (Icc_mem_nhds hlt hhi)

theorem display_continuousOn :
    ContinuousOn (shape.warp.display shape.ratio) (Set.Icc 0 1) := by
  obtain ⟨hlo, hlt, hhi⟩ := shape.squeezed_bounds
  have hleft := shape.warp.leftPiece.continuous.continuousOn.congr shape.display_left
  have hcenter :=
    (shape.warp.centerPiece shape.ratio).continuous.continuousOn.congr shape.display_center
  have hright := shape.warp.rightPiece.continuous.continuousOn.congr shape.display_right
  have hall := (hleft.union_of_isClosed hcenter isClosed_Icc isClosed_Icc).union_of_isClosed hright
    (isClosed_Icc.union isClosed_Icc) isClosed_Icc
  rwa [Set.Icc_union_Icc_eq_Icc hlo.le hlt.le,
    Set.Icc_union_Icc_eq_Icc (hlo.trans hlt).le hhi.le] at hall

theorem display_zero : shape.warp.display shape.ratio 0 = 0 := by
  rw [shape.display_left ⟨le_rfl, shape.left_pos.le⟩]
  exact shape.smooth.left_zero

theorem display_one : shape.warp.display shape.ratio 1 = 1 := by
  rw [shape.display_right ⟨shape.squeezed_bounds.2.2.le, le_rfl⟩, right_value_one]

/-- Each place on the display shows exactly one place of the squeezed frame. -/
theorem display_bijOn :
    Set.BijOn (shape.warp.display shape.ratio) (Set.Icc 0 1) (Set.Icc 0 1) := by
  have hrises := shape.display_strictMonoOn
  have hbegin := shape.display_zero
  have hend := shape.display_one
  refine ⟨fun y hy => ⟨?_, ?_⟩, hrises.injOn, ?_⟩
  · have hfirst := hrises.monotoneOn ⟨le_rfl, zero_le_one⟩ hy hy.1
    rwa [hbegin] at hfirst
  · have hlast := hrises.monotoneOn hy ⟨zero_le_one, le_rfl⟩ hy.2
    rwa [hend] at hlast
  · have hbetween := intermediate_value_Icc zero_le_one shape.display_continuousOn
    rwa [hbegin, hend] at hbetween

variable {shape}

/-- The formula for the left edge finds what is shown there. -/
theorem documentedLeft_value {y : ℝ} (hy : y ∈ Set.Icc 0 shape.warp.loSqueezed) :
    shape.warp.documentedLeft (shape.warp.leftPiece.value y) = y := by
  rw [AxisWarp.documentedLeft_eq]
  exact Piece.root_value shape.aLeft_ne_zero (left_slope_pos hy).le

theorem ne_zero_of_right {y : ℝ} (hy : y ∈ Set.Icc shape.warp.hiSqueezed 1) : y ≠ 0 := by
  obtain ⟨hlo, hlt, -⟩ := shape.smooth.squeezed_bounds
  exact ((hlo.trans hlt).trans_le hy.1).ne'

end AxisShape

/-- On the right edge the formula finds what is shown at a place exactly if the edge's parabola
without its constant term is 0 there, which is so at one place at most. With the sign of the last
term turned it finds it everywhere. -/
theorem documentedRight_finds_iff (shape : AxisShape ℝ) {y : ℝ}
    (hy : y ∈ Set.Icc shape.warp.hiSqueezed 1) :
    let warp := shape.warp
    let x := warp.rightPiece.value y
    (warp.bRight ^ 2 + 4 * (warp.cRight - warp.aRight * x) =
          (2 * warp.aRight * y + warp.bRight) ^ 2 ↔
        warp.aRight * y + warp.bRight = 0) ∧
      (warp.documentedRight x = y ↔ warp.aRight * y + warp.bRight = 0) ∧
      warp.bRight ^ 2 - 4 * (warp.cRight - warp.aRight * x) =
        (2 * warp.aRight * y + warp.bRight) ^ 2 ∧
      (-warp.bRight + √(warp.bRight ^ 2 - 4 * (warp.cRight - warp.aRight * x))) /
        (2 * warp.aRight) = y := by
  intro warp x
  have hsquare := shape.aRight_ne_zero
  have hpositive := AxisShape.ne_zero_of_right hy
  have hslope := AxisShape.right_slope_pos hy
  have hdiscriminant := AxisWarp.rightPiece_discriminant hsquare x
  refine ⟨AxisWarp.documentedDiscriminant_value_iff hsquare hpositive,
    AxisWarp.documentedRight_value_iff hsquare hpositive hslope, ?_, ?_⟩
  · rw [← hdiscriminant]
    exact warp.rightPiece.discriminant_value y
  · rw [← hdiscriminant]
    exact Piece.root_value hsquare hslope.le

namespace AxisShape

/-- A center in the middle of the frame. -/
def middle (center ratio : ℝ) (hpos : 0 < center) (hlt : center < 1) (hratio : 1 < ratio) :
    AxisShape ℝ where
  center := center
  shift := 0
  ratio := ratio
  center_pos := hpos
  center_lt := hlt
  shift_gt := by norm_num
  shift_lt := by norm_num
  ratio_gt := hratio

/-- The sum that the formula for the right edge needs to be 0, for edges squeezed by half. -/
theorem middle_right_sum {center : ℝ} (hpos : 0 < center) (hlt : center < 1) (y : ℝ) :
    let warp := (middle center 2 hpos hlt one_lt_two).warp
    warp.aRight * y + warp.bRight =
      (center + 1) * (3 / 2 - (center + 1) / (1 - center) * (2 - y)) := by
  intro warp
  have hedge : 1 - center ≠ 0 := (sub_pos.mpr hlt).ne'
  have hscale : center + 1 ≠ 0 := (add_pos hpos one_pos).ne'
  simp only [warp, warp_eq, outer, bend, right, inner, middle]
  field_simp
  ring

end AxisShape

/-- With a fifth of the frame in the center the end of the frame is that one place. -/
theorem documentedRight_finds_end :
    let shape := AxisShape.middle (1 / 5) 2 (by norm_num) (by norm_num) one_lt_two
    1 ∈ Set.Icc shape.warp.hiSqueezed 1 ∧
      shape.warp.documentedRight (shape.warp.rightPiece.value 1) = 1 := by
  intro shape
  have hend : 1 ∈ Set.Icc shape.warp.hiSqueezed 1 := ⟨shape.smooth.squeezed_bounds.2.2.le, le_rfl⟩
  have hzero : shape.warp.aRight * 1 + shape.warp.bRight = 0 := by
    rw [AxisShape.middle_right_sum]
    norm_num
  exact ⟨hend, (documentedRight_finds_iff shape hend).2.1.mpr hzero⟩

/-- With half of the frame in the center the formula finds neither end of the right edge. -/
theorem documentedRight_misses_ends :
    let warp := (AxisShape.middle (1 / 2) 2 (by norm_num) (by norm_num) one_lt_two).warp
    warp.rightPiece.value 1 = 1 ∧
      warp.bRight ^ 2 + 4 * (warp.cRight - warp.aRight * 1) ≠
        (2 * warp.aRight * 1 + warp.bRight) ^ 2 ∧
      warp.documentedRight 1 ≠ 1 ∧ warp.documentedRight warp.hiBound ≠ warp.hiSqueezed := by
  intro warp
  let shape := AxisShape.middle (1 / 2) 2 (by norm_num) (by norm_num) one_lt_two
  have hvalue : warp.rightPiece.value 1 = 1 := shape.right_value_one
  have hend : 1 ∈ Set.Icc warp.hiSqueezed 1 := ⟨shape.smooth.squeezed_bounds.2.2.le, le_rfl⟩
  have hbegin : warp.hiSqueezed ∈ Set.Icc warp.hiSqueezed 1 :=
    ⟨le_rfl, shape.smooth.squeezed_bounds.2.2.le⟩
  have hhi : warp.hiSqueezed = 5 / 6 := by
    rw [show warp.hiSqueezed = 1 - shape.right from shape.hiSqueezed_eq]
    norm_num [shape, AxisShape.right, AxisShape.inner, AxisShape.middle]
  have hnonzero : warp.aRight * 1 + warp.bRight ≠ 0 := by
    rw [AxisShape.middle_right_sum]
    norm_num
  have hnonzero' : warp.aRight * warp.hiSqueezed + warp.bRight ≠ 0 := by
    rw [AxisShape.middle_right_sum, hhi]
    norm_num
  have hsquare : warp.aRight ≠ 0 := shape.aRight_ne_zero
  refine ⟨hvalue, ?_, ?_, ?_⟩
  · have hiff := AxisWarp.documentedDiscriminant_value_iff hsquare one_ne_zero
    rw [hvalue] at hiff
    exact mt hiff.mp hnonzero
  · have hiff := AxisWarp.documentedRight_value_iff hsquare one_ne_zero
      (AxisShape.right_slope_pos hend)
    rw [hvalue] at hiff
    exact mt hiff.mp hnonzero
  · have hiff := AxisWarp.documentedRight_value_iff hsquare (AxisShape.ne_zero_of_right hbegin)
      (AxisShape.right_slope_pos hbegin)
    rw [shape.smooth.right_hi] at hiff
    exact mt hiff.mp hnonzero'

end HeadsetStream.Foveation
