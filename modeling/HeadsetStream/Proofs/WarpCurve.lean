import HeadsetStream.Foveation.Warp
import HeadsetStream.Proofs.ExactArithmetic
import HeadsetStream.Proofs.FoveationRange
import Mathlib.Analysis.Real.Sqrt
import Mathlib.Order.Monotone.Union
import Mathlib.Tactic.FieldSimp
import Mathlib.Tactic.LinearCombination

/-!
# The curve that the warp coefficients describe

Along an axis the coefficients describe where on the display each place of the squeezed frame is
shown: a parabola, a straight line and a parabola. For every center, shift and edge ratio in range
the three meet where the center begins and ends, with the same slope, and the curve they make rises
from 0 to 1. All of it is worked out over any ordered field, in terms of the slope inside the center
and of the widths of the squeezed edges. Over the real numbers there are also the formulas that go
with the coefficients of the two parabolas.
-/

namespace HeadsetStream.Foveation
open Number

variable {K : Type} [Field K]

/-- A parabola, or a straight line if `square` is 0. -/
structure Piece (K : Type) where
  square : K
  linear : K
  constant : K

namespace Piece

variable (piece : Piece K)

def value (y : K) : K := piece.square * y ^ 2 + piece.linear * y + piece.constant

/-- The derivative of `value`. -/
def slope (y : K) : K := 2 * piece.square * y + piece.linear

/-- What is under the square root when `piece.value y = x` is solved for `y`. -/
def discriminant (x : K) : K := piece.linear ^ 2 - 4 * piece.square * (piece.constant - x)

/-- The place where a piece rises through `x`. -/
noncomputable def root (piece : Piece ℝ) (x : ℝ) : ℝ :=
  (-piece.linear + √(piece.discriminant x)) / (2 * piece.square)

/-- Between two places a piece rises by the mean of its slopes there. -/
private theorem value_sub (y z : K) :
    2 * (piece.value z - piece.value y) = (piece.slope y + piece.slope z) * (z - y) := by
  unfold value slope
  ring

variable {piece} [LinearOrder K] [IsStrictOrderedRing K] {a b : K}

theorem slope_pos (ha : 0 < piece.slope a) (hb : 0 < piece.slope b) {y : K}
    (hy : y ∈ Set.Icc a b) : 0 < piece.slope y := by
  obtain ⟨hlow, hhigh⟩ := hy
  unfold slope at *
  rcases le_total 0 piece.square with hsquare | hsquare
  · have hmore := mul_le_mul_of_nonneg_left hlow hsquare
    linarith
  · have hmore := mul_le_mul_of_nonpos_left hhigh hsquare
    linarith

/-- A piece that rises at both ends rises between them. -/
theorem strictMonoOn (ha : 0 < piece.slope a) (hb : 0 < piece.slope b) :
    StrictMonoOn piece.value (Set.Icc a b) := by
  intro y hy z hz hlt
  have hslopes := add_pos (slope_pos ha hb hy) (slope_pos ha hb hz)
  have hrise := mul_pos hslopes (sub_pos.mpr hlt)
  rw [← value_sub] at hrise
  linarith

end Piece

namespace AxisWarp

variable (warp : AxisWarp K) (edgeRatio : K)

/-- The edges of the center in the squeezed frame. -/
def loSqueezed : K := warp.loBound / warp.c2

def hiSqueezed : K := (warp.hiBound - 1) / warp.c2 + 1

def leftPiece : Piece K := ⟨warp.aLeft, warp.bLeft, 0⟩

def centerPiece : Piece K := ⟨0, warp.c2 / edgeRatio, warp.c1⟩

def rightPiece : Piece K := ⟨warp.aRight, warp.bRight, warp.cRight / warp.aRight⟩

/-- Where on the display a place of the squeezed frame is shown. -/
def display [LinearOrder K] (y : K) : K :=
  if y ≤ warp.loSqueezed then warp.leftPiece.value y
  else if y ≤ warp.hiSqueezed then (warp.centerPiece edgeRatio).value y
  else warp.rightPiece.value y

/-- The formula that goes with the coefficients of the left edge. -/
noncomputable def documentedLeft (warp : AxisWarp ℝ) (x : ℝ) : ℝ :=
  (-warp.bLeft + √(warp.bLeft ^ 2 + 4 * warp.aLeft * x)) / (2 * warp.aLeft)

/-- What is under the square root in the formula for the right edge. -/
def documentedDiscriminant (x : K) : K := warp.bRight ^ 2 + 4 * (warp.cRight - warp.aRight * x)

/-- The formula that goes with the coefficients of the right edge. -/
noncomputable def documentedRight (warp : AxisWarp ℝ) (x : ℝ) : ℝ :=
  (-warp.bRight + √(warp.documentedDiscriminant x)) / (2 * warp.aRight)

/-- The three pieces join to one rising curve. -/
structure Smooth [LinearOrder K] : Prop where
  squeezed_bounds : 0 < warp.loSqueezed ∧ warp.loSqueezed < warp.hiSqueezed ∧ warp.hiSqueezed < 1
  display_bounds : 0 < warp.loBound ∧ warp.loBound < warp.hiBound ∧ warp.hiBound < 1
  left_zero : warp.leftPiece.value 0 = 0
  left_lo : warp.leftPiece.value warp.loSqueezed = warp.loBound
  center_lo : (warp.centerPiece edgeRatio).value warp.loSqueezed = warp.loBound
  center_hi : (warp.centerPiece edgeRatio).value warp.hiSqueezed = warp.hiBound
  right_hi : warp.rightPiece.value warp.hiSqueezed = warp.hiBound
  right_one : warp.rightPiece.value 1 = 1
  left_slope : warp.leftPiece.slope warp.loSqueezed = warp.c2 / edgeRatio
  center_slope_lo : (warp.centerPiece edgeRatio).slope warp.loSqueezed = warp.c2 / edgeRatio
  center_slope_hi : (warp.centerPiece edgeRatio).slope warp.hiSqueezed = warp.c2 / edgeRatio
  right_slope : warp.rightPiece.slope warp.hiSqueezed = warp.c2 / edgeRatio
  increasing : StrictMonoOn (warp.display edgeRatio) (Set.Icc 0 1)

end AxisWarp

/-- A center, its shift and an edge ratio, each in its range. -/
structure AxisShape (K : Type) [Field K] [LinearOrder K] where
  center : K
  shift : K
  ratio : K
  center_pos : 0 < center
  center_lt : center < 1
  shift_gt : -1 < shift
  shift_lt : shift < 1
  ratio_gt : 1 < ratio

namespace AxisShape

variable [LinearOrder K] (shape : AxisShape K)

def warp : AxisWarp K := @AxisWarp.of K (Scalar.ofField K) shape.center shape.shift shape.ratio

/-- The slope of the display inside the center. -/
def inner : K := ((shape.ratio - 1) * shape.center + 1) / shape.ratio

/-- Half of what the slope gains from the center to either end of the frame. -/
def bend : K := shape.inner * (shape.ratio - 1)

/-- The slope at either end of the frame. -/
def outer : K := shape.inner + 2 * shape.bend

/-- The widths of the squeezed edges. -/
def left : K := (1 - shape.center) / 2 * (1 + shape.shift) / (shape.inner * shape.ratio)

def right : K := (1 - shape.center) / 2 * (1 - shape.shift) / (shape.inner * shape.ratio)

variable [IsStrictOrderedRing K]

theorem ratio_pos : 0 < shape.ratio := one_pos.trans shape.ratio_gt

theorem inner_pos : 0 < shape.inner := by
  have hgain := mul_pos (sub_pos.mpr shape.ratio_gt) shape.center_pos
  exact div_pos (by linarith) shape.ratio_pos

theorem bend_pos : 0 < shape.bend := mul_pos shape.inner_pos (sub_pos.mpr shape.ratio_gt)

theorem outer_pos : 0 < shape.outer :=
  add_pos shape.inner_pos (mul_pos two_pos shape.bend_pos)

theorem scale_pos : 0 < shape.inner * shape.ratio := mul_pos shape.inner_pos shape.ratio_pos

theorem left_pos : 0 < shape.left := by
  have hedge := half_pos (sub_pos.mpr shape.center_lt)
  exact div_pos (mul_pos hedge (by linarith [shape.shift_gt])) shape.scale_pos

theorem right_pos : 0 < shape.right := by
  have hedge := half_pos (sub_pos.mpr shape.center_lt)
  exact div_pos (mul_pos hedge (sub_pos.mpr shape.shift_lt)) shape.scale_pos

theorem scale_eq : shape.inner * shape.ratio = (shape.ratio - 1) * shape.center + 1 :=
  div_mul_cancel₀ _ shape.ratio_pos.ne'

theorem scale_mul_left :
    shape.inner * shape.ratio * shape.left = (1 - shape.center) / 2 * (1 + shape.shift) :=
  mul_div_cancel₀ _ shape.scale_pos.ne'

theorem scale_mul_right :
    shape.inner * shape.ratio * shape.right = (1 - shape.center) / 2 * (1 - shape.shift) :=
  mul_div_cancel₀ _ shape.scale_pos.ne'

/-- The whole frame is shown on the whole display. -/
theorem inner_add_bend : shape.inner + shape.bend * (shape.left + shape.right) = 1 := by
  have hleft := shape.scale_mul_left
  have hright := shape.scale_mul_right
  have hscale := shape.scale_eq
  apply mul_left_cancel₀ shape.ratio_pos.ne'
  unfold bend
  linear_combination hscale + (shape.ratio - 1) * (hleft + hright)

/-- The edges are narrower squeezed than on the display, where they leave room for the center. -/
theorem scale_mul_edges_lt : shape.inner * shape.ratio * (shape.left + shape.right) < 1 := by
  have hcenter := shape.center_pos
  rw [mul_add, scale_mul_left, scale_mul_right]
  linarith

private theorem edges_lt_one : shape.left + shape.right < 1 := by
  have hscale : 1 < shape.inner * shape.ratio := by
    have hgain := mul_pos (sub_pos.mpr shape.ratio_gt) shape.center_pos
    rw [scale_eq]
    linarith
  have hedges := add_pos shape.left_pos shape.right_pos
  exact (lt_mul_of_one_lt_left hedges hscale).trans shape.scale_mul_edges_lt

/-- The coefficients in terms of slopes and widths. -/
theorem warp_eq : shape.warp =
    { c1 := shape.bend * shape.left
      c2 := shape.inner * shape.ratio
      loBound := shape.inner * shape.ratio * shape.left
      hiBound := 1 - shape.inner * shape.ratio * shape.right
      aLeft := -(shape.bend / shape.left)
      bLeft := shape.outer
      aRight := shape.bend / shape.right
      bRight := shape.outer - 2 * (shape.bend / shape.right)
      cRight := shape.bend / shape.right * (1 - shape.outer + shape.bend / shape.right) } := by
  have hratio := shape.ratio_pos.ne'
  have hscale := shape.scale_pos.ne'
  have hleft := shape.left_pos.ne'
  have hright := shape.right_pos.ne'
  have hsum := shape.inner_add_bend
  have hlo : (1 - shape.center) / 2 * (shape.shift + 1) =
      shape.inner * shape.ratio * shape.left := by
    rw [scale_mul_left, add_comm]
  have hhi : (1 - shape.center) / 2 * (shape.shift - 1) =
      -(shape.inner * shape.ratio * shape.right) := by
    rw [scale_mul_right]
    ring
  have hloSqueezed : shape.inner * shape.ratio * shape.left / (shape.inner * shape.ratio) =
      shape.left := mul_div_cancel_left₀ _ hscale
  have hhiSqueezed : -(shape.inner * shape.ratio * shape.right) / (shape.inner * shape.ratio) + 1 =
      1 - shape.right := by
    rw [neg_div, mul_div_cancel_left₀ _ hscale, neg_add_eq_sub]
  have hc1 : (shape.ratio - 1) * (shape.inner * shape.ratio * shape.left) / shape.ratio =
      shape.bend * shape.left := by
    unfold bend
    field_simp
  simp only [warp, AxisWarp.of, Scalar.ofNat_eq]
  push_cast
  simp only [mul_assoc (shape.ratio - 1) (_ / _), hlo, hhi, ← scale_eq, hloSqueezed, hhiSqueezed,
    hc1, sub_sub_cancel]
  unfold outer bend at *
  congr 1
  case e_hiBound => rw [neg_add_eq_sub]
  case e_aLeft =>
    field_simp
    ring
  case e_bLeft =>
    field_simp
    ring
  case e_aRight => field_simp
  -- These two also know that the slopes add up to the whole display.
  case e_bRight =>
    rw [div_eq_iff (mul_ne_zero hratio hright)]
    field_simp
    linear_combination -hsum
  case e_cRight =>
    rw [div_eq_iff (mul_ne_zero (mul_ne_zero hratio hright) hright)]
    field_simp
    linear_combination (shape.inner * (shape.ratio - 1)) * hsum

theorem loSqueezed_eq : shape.warp.loSqueezed = shape.left := by
  rw [AxisWarp.loSqueezed, warp_eq]
  exact mul_div_cancel_left₀ _ shape.scale_pos.ne'

theorem hiSqueezed_eq : shape.warp.hiSqueezed = 1 - shape.right := by
  rw [AxisWarp.hiSqueezed, warp_eq, sub_sub_cancel_left, neg_div,
    mul_div_cancel_left₀ _ shape.scale_pos.ne', neg_add_eq_sub]

theorem c2_div_ratio : shape.warp.c2 / shape.ratio = shape.inner := by
  rw [warp_eq]
  exact mul_div_cancel_right₀ _ shape.ratio_pos.ne'

theorem leftPiece_eq : shape.warp.leftPiece = ⟨-(shape.bend / shape.left), shape.outer, 0⟩ := by
  rw [warp_eq]
  rfl

theorem centerPiece_eq :
    shape.warp.centerPiece shape.ratio = ⟨0, shape.inner, shape.bend * shape.left⟩ := by
  rw [AxisWarp.centerPiece, c2_div_ratio, warp_eq]

theorem rightPiece_eq : shape.warp.rightPiece =
    ⟨shape.bend / shape.right, shape.outer - 2 * (shape.bend / shape.right),
      1 - shape.outer + shape.bend / shape.right⟩ := by
  have hbend := (div_pos shape.bend_pos shape.right_pos).ne'
  rw [warp_eq]
  simp only [AxisWarp.rightPiece, mul_div_cancel_left₀ _ hbend]

theorem squeezed_bounds :
    0 < shape.left ∧ shape.left < 1 - shape.right ∧ 1 - shape.right < 1 :=
  ⟨shape.left_pos, lt_sub_iff_add_lt.mpr shape.edges_lt_one, sub_lt_self _ shape.right_pos⟩

theorem display_bounds :
    0 < shape.warp.loBound ∧ shape.warp.loBound < shape.warp.hiBound ∧ shape.warp.hiBound < 1 := by
  have hedges := shape.scale_mul_edges_lt
  rw [mul_add] at hedges
  rw [warp_eq]
  exact ⟨mul_pos shape.scale_pos shape.left_pos, lt_sub_iff_add_lt.mpr hedges,
    sub_lt_self _ (mul_pos shape.scale_pos shape.right_pos)⟩

theorem left_value : shape.warp.leftPiece.value shape.left = shape.warp.loBound := by
  have hleft := shape.left_pos.ne'
  rw [leftPiece_eq, warp_eq]
  unfold Piece.value outer bend
  field_simp
  ring

theorem center_value_lo :
    (shape.warp.centerPiece shape.ratio).value shape.left = shape.warp.loBound := by
  rw [centerPiece_eq, warp_eq]
  unfold Piece.value bend
  ring

theorem center_value_hi :
    (shape.warp.centerPiece shape.ratio).value (1 - shape.right) = shape.warp.hiBound := by
  have hsum := shape.inner_add_bend
  rw [centerPiece_eq, warp_eq]
  unfold Piece.value
  unfold bend at *
  linear_combination hsum

theorem right_value : shape.warp.rightPiece.value (1 - shape.right) = shape.warp.hiBound := by
  have hright := shape.right_pos.ne'
  rw [rightPiece_eq, warp_eq]
  unfold Piece.value outer bend
  field_simp
  ring

theorem right_value_one : shape.warp.rightPiece.value 1 = 1 := by
  rw [rightPiece_eq]
  unfold Piece.value
  ring

theorem left_slope_zero : shape.warp.leftPiece.slope 0 = shape.outer := by
  rw [leftPiece_eq, Piece.slope, mul_zero, zero_add]

theorem left_slope : shape.warp.leftPiece.slope shape.left = shape.inner := by
  have hleft := shape.left_pos.ne'
  rw [leftPiece_eq]
  unfold Piece.slope outer
  field_simp
  ring

theorem center_slope (y : K) :
    (shape.warp.centerPiece shape.ratio).slope y = shape.inner := by
  rw [centerPiece_eq, Piece.slope, mul_zero, zero_mul, zero_add]

theorem right_slope : shape.warp.rightPiece.slope (1 - shape.right) = shape.inner := by
  have hright := shape.right_pos.ne'
  rw [rightPiece_eq]
  unfold Piece.slope outer
  field_simp
  ring

theorem right_slope_one : shape.warp.rightPiece.slope 1 = shape.outer := by
  rw [rightPiece_eq]
  unfold Piece.slope
  ring

/-- On the left edge, where it meets the center included, the display is the left piece. -/
theorem display_left :
    Set.EqOn (shape.warp.display shape.ratio) shape.warp.leftPiece.value
      (Set.Icc 0 shape.left) := by
  intro y hy
  rw [AxisWarp.display, loSqueezed_eq, if_pos hy.2]

theorem display_center :
    Set.EqOn (shape.warp.display shape.ratio) (shape.warp.centerPiece shape.ratio).value
      (Set.Icc shape.left (1 - shape.right)) := by
  intro y hy
  rw [AxisWarp.display, loSqueezed_eq, hiSqueezed_eq, if_pos hy.2]
  split
  · next hle => rw [le_antisymm hle hy.1, left_value, center_value_lo]
  · rfl

theorem display_right :
    Set.EqOn (shape.warp.display shape.ratio) shape.warp.rightPiece.value
      (Set.Icc (1 - shape.right) 1) := by
  obtain ⟨-, hlt, -⟩ := shape.squeezed_bounds
  intro y hy
  rw [AxisWarp.display, loSqueezed_eq, hiSqueezed_eq, if_neg (hlt.trans_le hy.1).not_ge]
  split
  · next hle => rw [le_antisymm hle hy.1, center_value_hi, right_value]
  · rfl

theorem display_strictMonoOn :
    StrictMonoOn (shape.warp.display shape.ratio) (Set.Icc 0 1) := by
  obtain ⟨hlo, hlt, hhi⟩ := shape.squeezed_bounds
  have hinner := shape.inner_pos
  have houter := shape.outer_pos
  have hleft : StrictMonoOn (shape.warp.display shape.ratio) (Set.Icc 0 shape.left) :=
    (Piece.strictMonoOn (by rwa [left_slope_zero]) (by rwa [left_slope])).congr
      shape.display_left.symm
  have hcenter : StrictMonoOn (shape.warp.display shape.ratio)
      (Set.Icc shape.left (1 - shape.right)) :=
    (Piece.strictMonoOn (by rwa [center_slope]) (by rwa [center_slope])).congr
      shape.display_center.symm
  have hright : StrictMonoOn (shape.warp.display shape.ratio) (Set.Icc (1 - shape.right) 1) :=
    (Piece.strictMonoOn (by rwa [right_slope]) (by rwa [right_slope_one])).congr
      shape.display_right.symm
  have hfirst := hleft.union hcenter (isGreatest_Icc hlo.le) (isLeast_Icc hlt.le)
  rw [Set.Icc_union_Icc_eq_Icc hlo.le hlt.le] at hfirst
  have hall := hfirst.union hright (isGreatest_Icc (hlo.trans hlt).le) (isLeast_Icc hhi.le)
  rwa [Set.Icc_union_Icc_eq_Icc (hlo.trans hlt).le hhi.le] at hall

theorem smooth : shape.warp.Smooth shape.ratio where
  squeezed_bounds := by
    rw [loSqueezed_eq, hiSqueezed_eq]
    exact shape.squeezed_bounds
  display_bounds := shape.display_bounds
  left_zero := by
    rw [leftPiece_eq, Piece.value]
    ring
  left_lo := by rw [loSqueezed_eq, left_value]
  center_lo := by rw [loSqueezed_eq, center_value_lo]
  center_hi := by rw [hiSqueezed_eq, center_value_hi]
  right_hi := by rw [hiSqueezed_eq, right_value]
  right_one := shape.right_value_one
  left_slope := by rw [loSqueezed_eq, left_slope, c2_div_ratio]
  center_slope_lo := by rw [center_slope, c2_div_ratio]
  center_slope_hi := by rw [center_slope, c2_div_ratio]
  right_slope := by rw [hiSqueezed_eq, right_slope, c2_div_ratio]
  increasing := shape.display_strictMonoOn

end AxisShape

/-- In exact rational arithmetic every coefficient is there, and the pieces they describe join to
one rising curve. -/
theorem coefficients_join_smoothly (shape : AxisShape ℚ) :
    AxisWarp.of (Ratio.of shape.center) (.of shape.shift) (.of shape.ratio) =
        shape.warp.map .of ∧
      shape.warp.Smooth shape.ratio :=
  ⟨warp_of shape.center_pos shape.center_lt shape.shift_gt shape.shift_lt shape.ratio_gt,
    shape.smooth⟩

end HeadsetStream.Foveation
