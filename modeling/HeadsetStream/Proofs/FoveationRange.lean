import HeadsetStream.Foveation.Warp
import HeadsetStream.Proofs.ExactArithmetic
import HeadsetStream.Proofs.WholeNumbers
import HeadsetStream.Settings.Render
import Mathlib.Tactic.FieldSimp

/-!
# Which accepted foveation can be used

Settings for the picture are accepted by their own numbers only. The layout then rounds the edges up
to whole steps, and the center's shift up to whole steps of the edges. Along an axis both must leave
something: the edges a center, by ending before the frame does, and the shift an edge on the right,
by ending before the edges do. Exactly then every number of the layout and of the warp is there and
in its range.
-/

namespace HeadsetStream.Foveation
open Number HeadsetStream.Geometry

variable {α β : Type}

def Config.map (f : α → β) (config : Config α) : Config β where
  centerSize := config.centerSize.map f
  centerShift := config.centerShift.map f
  edgeRatio := config.edgeRatio.map f

def AxisLayout.map (f : α → β) (layout : AxisLayout α) : AxisLayout β where
  sizeRatio := f layout.sizeRatio
  centerSize := f layout.centerSize
  centerShift := f layout.centerShift
  encodedSize := layout.encodedSize

def AxisWarp.map (f : α → β) (warp : AxisWarp α) : AxisWarp β where
  c1 := f warp.c1
  c2 := f warp.c2
  loBound := f warp.loBound
  hiBound := f warp.hiBound
  aLeft := f warp.aLeft
  bLeft := f warp.bLeft
  aRight := f warp.aRight
  bRight := f warp.bRight
  cRight := f warp.cRight

def Layout.xAxis (layout : Layout α) : AxisLayout α where
  sizeRatio := layout.sizeRatio.x
  centerSize := layout.centerSize.x
  centerShift := layout.centerShift.x
  encodedSize := layout.encodedSize.x

def Layout.yAxis (layout : Layout α) : AxisLayout α where
  sizeRatio := layout.sizeRatio.y
  centerSize := layout.centerSize.y
  centerShift := layout.centerShift.y
  encodedSize := layout.encodedSize.y

theorem alignUp_of {step : ℚ} (h : step ≠ 0) (x : ℚ) :
    (alignUp (Ratio.of step) (Ratio.of x) : Ratio) = .of (⌈x / step⌉ * step) := by
  simp [alignUp, Ratio.of_div h]

private theorem alignedCenter_of {step target : ℚ} (hstep : step ≠ 0) (htarget : target ≠ 0)
    (centerSize : ℚ) :
    (alignedCenter (Ratio.of step) (.of target) (.of centerSize) : Ratio) =
      .of (1 - ⌈(target - centerSize * target) / step⌉ * step / target) := by
  simp [alignedCenter, alignUp_of hstep, Ratio.of_div htarget]

private theorem alignedShift_of {step edge : ℚ} (hstep : step ≠ 0) (hedge : edge ≠ 0)
    (centerShift : ℚ) :
    (alignedShift (Ratio.of step) (.of edge) (.of centerShift) : Ratio) =
      .of (⌈centerShift * edge / step⌉ * step / edge) := by
  simp [alignedShift, alignUp_of hstep, Ratio.of_div hedge]

/-- With a center and two edges no coefficient divides by zero. -/
theorem warp_of {center shift ratio : ℚ} (hpos : 0 < center) (hlt : center < 1)
    (hleft : -1 < shift) (hright : shift < 1) (hratio : 1 < ratio) :
    AxisWarp.of (Ratio.of center) (.of shift) (.of ratio) =
      (AxisWarp.of center shift ratio).map .of := by
  have hr : 0 < ratio := by linarith
  have hedge : 0 < (1 - center) / 2 := by linarith
  have hslope : 0 < (ratio - 1) * center + 1 := by nlinarith
  have hlow : 0 < (1 - center) / 2 * (shift + 1) / ((ratio - 1) * center + 1) :=
    div_pos (mul_pos hedge (by linarith)) hslope
  have hrest : 0 < 1 - ((1 - center) / 2 * (shift - 1) / ((ratio - 1) * center + 1) + 1) := by
    have hright : 0 < (1 - center) / 2 * (1 - shift) / ((ratio - 1) * center + 1) :=
      div_pos (mul_pos hedge (by linarith)) hslope
    have hneg : (1 - center) / 2 * (shift - 1) / ((ratio - 1) * center + 1) =
        -((1 - center) / 2 * (1 - shift) / ((ratio - 1) * center + 1)) := by ring
    linarith
  have htwo : (2 : ℚ) ≠ 0 := by norm_num
  simp only [AxisWarp.of, AxisWarp.map, Scalar.ofNat_eq, Ratio.natCast_eq]
  simp only [Nat.cast_one, Nat.cast_ofNat, Ratio.of_sub, Ratio.of_add, Ratio.of_mul,
    Ratio.of_div htwo, Ratio.of_div hr.ne', Ratio.of_div hslope.ne', Ratio.of_div hlow.ne',
    Ratio.of_div (mul_pos hr hlow).ne', Ratio.of_div (mul_pos hr hrest).ne',
    Ratio.of_div (mul_pos (mul_pos hr hrest) hrest).ne']

theorem bounds_lt {center shift ratio : ℚ} (hpos : 0 < center) :
    (AxisWarp.of center shift ratio).loBound < (AxisWarp.of center shift ratio).hiBound := by
  simp only [AxisWarp.of, Scalar.ofNat_eq]
  push_cast
  linarith

/-- What is asked for along an axis of `target` pixels. -/
structure AxisRequest where
  target : ℚ
  centerSize : ℚ
  centerShift : ℚ
  edgeRatio : ℚ

namespace AxisRequest

/-- The ranges that settings are accepted in. -/
structure Accepted (request : AxisRequest) : Prop where
  target_pos : 0 < request.target
  target_le : request.target ≤ 2 ^ 31
  center_pos : 0 < request.centerSize
  center_lt : request.centerSize < 1
  shift_gt : -1 < request.centerShift
  shift_lt : request.centerShift < 1
  ratio_gt : 1 < request.edgeRatio

/-- The same ranges, but for frames of any size. -/
structure Proper (request : AxisRequest) : Prop where
  target_pos : 0 < request.target
  center_pos : 0 < request.centerSize
  center_lt : request.centerSize < 1
  shift_gt : -1 < request.centerShift
  shift_lt : request.centerShift < 1
  ratio_gt : 1 < request.edgeRatio

theorem Accepted.proper {request : AxisRequest} (h : request.Accepted) : request.Proper :=
  ⟨h.target_pos, h.center_pos, h.center_lt, h.shift_gt, h.shift_lt, h.ratio_gt⟩

variable (request : AxisRequest)

def layout : AxisLayout Ratio :=
  .of (Ratio.of request.target) (Ratio.of request.centerSize) (Ratio.of request.centerShift)
    (Ratio.of request.edgeRatio)

def step : ℚ := request.edgeRatio * 2

/-- How many steps the edges are rounded up to. -/
def edgeSteps : ℤ :=
  ⌈(request.target - request.centerSize * request.target) / request.step⌉

/-- How many of them the center's shift is rounded up to. -/
def shiftSteps : ℤ := ⌈request.centerShift * request.edgeSteps⌉

def center : ℚ := 1 - request.edgeSteps * request.step / request.target

def shift : ℚ := request.shiftSteps / request.edgeSteps

/-- The pixels of the squeezed frame. -/
def squeezed : ℚ := (request.center + (1 - request.center) / request.edgeRatio) * request.target

def encoded : Nat := ⌈request.squeezed / blockSize⌉₊ * blockSize

/-- The edges end before the frame does, and the shift before the edges. -/
structure Fits : Prop where
  edges : request.edgeSteps * request.step < request.target
  shift : request.centerShift * request.edgeSteps ≤ request.edgeSteps - 1

variable {request}

namespace Proper

variable (h : request.Proper)
include h

theorem step_pos : 0 < request.step := by
  have hratio := h.ratio_gt
  unfold step
  linarith

theorem edgeSteps_pos : 0 < request.edgeSteps := by
  have hstep := h.step_pos
  have hedge : 0 < request.target - request.centerSize * request.target := by
    nlinarith [h.target_pos, h.center_lt]
  exact Int.ceil_pos.mpr (div_pos hedge hstep)

theorem edge_eq :
    request.target - request.center * request.target = request.edgeSteps * request.step := by
  have htarget := h.target_pos.ne'
  unfold center
  field_simp
  ring

theorem layout_eq :
    request.layout =
      { sizeRatio := Ratio.of request.squeezed / Ratio.of request.encoded
        centerSize := .of request.center
        centerShift := .of request.shift
        encodedSize := request.encoded } := by
  have hstep := h.step_pos.ne'
  have htarget := h.target_pos.ne'
  have hsteps : (request.edgeSteps : ℚ) ≠ 0 := by exact_mod_cast h.edgeSteps_pos.ne'
  have hratio : request.edgeRatio ≠ 0 := by linarith [h.ratio_gt]
  have hblock : (blockSize : ℚ) ≠ 0 := by norm_num [blockSize]
  have hcenter : (alignedCenter (Ratio.of request.step) (.of request.target)
      (.of request.centerSize) : Ratio) = .of request.center :=
    alignedCenter_of hstep htarget _
  have hedge : request.edgeSteps * request.step ≠ 0 := mul_ne_zero hsteps hstep
  have hshift : (alignedShift (Ratio.of request.step) (.of (request.edgeSteps * request.step))
      (.of request.centerShift) : Ratio) = .of request.shift := by
    rw [alignedShift_of hstep hedge, ← mul_assoc, mul_div_cancel_right₀ _ hstep,
      mul_div_mul_right _ _ hstep]
    rfl
  have hstepOf : (Precise.widen (Ratio.of request.edgeRatio) * 2 : Ratio) = .of request.step := rfl
  unfold layout AxisLayout.of
  simp only [hstepOf, hcenter]
  simp only [Ratio.of_mul, Ratio.of_sub, Ratio.of_add, h.edge_eq, hshift, Ratio.ofNat_eq,
    Ratio.natCast_eq, Ratio.of_div hratio, Ratio.of_div hblock, Ratio.ceilNat_of]
  rfl

private theorem edges_pos : 0 < request.edgeSteps * request.step :=
  mul_pos (by exact_mod_cast h.edgeSteps_pos) h.step_pos

theorem center_lt_one : request.center < 1 := by
  have hshare := div_pos h.edges_pos h.target_pos
  unfold center
  linarith

private theorem center_pos_iff :
    0 < request.center ↔ request.edgeSteps * request.step < request.target := by
  unfold center
  rw [sub_pos, div_lt_one h.target_pos]

theorem neg_one_lt_shift : -1 < request.shift := by
  have hsteps : (0 : ℚ) < request.edgeSteps := by exact_mod_cast h.edgeSteps_pos
  have hasked : -(request.edgeSteps : ℚ) < request.centerShift * request.edgeSteps := by
    nlinarith [h.shift_gt]
  have hrounded : request.centerShift * request.edgeSteps ≤ request.shiftSteps := Int.le_ceil _
  unfold shift
  rw [lt_div_iff₀ hsteps]
  linarith

private theorem shift_lt_one_iff :
    request.shift < 1 ↔ request.centerShift * request.edgeSteps ≤ request.edgeSteps - 1 := by
  have hsteps : (0 : ℚ) < request.edgeSteps := by exact_mod_cast h.edgeSteps_pos
  unfold shift
  rw [div_lt_one hsteps, Int.cast_lt, ← Int.le_sub_one_iff, shiftSteps, Int.ceil_le]
  push_cast
  rfl

theorem fits_iff : request.Fits ↔ 0 < request.center ∧ request.shift < 1 := by
  rw [h.center_pos_iff, h.shift_lt_one_iff]
  exact ⟨fun hfits => ⟨hfits.edges, hfits.shift⟩, fun hfits => ⟨hfits.1, hfits.2⟩⟩

/-- The squeezed frame is no larger than the frame. -/
private theorem squeezed_mem (hcenter : 0 < request.center) :
    0 < request.squeezed ∧ request.squeezed ≤ request.target := by
  have hratio : 0 < request.edgeRatio := by linarith [h.ratio_gt]
  have hrest : 0 < 1 - request.center := by linarith [h.center_lt_one]
  have hedge : (1 - request.center) / request.edgeRatio ≤ 1 - request.center :=
    div_le_self hrest.le h.ratio_gt.le
  have hpos := div_pos hrest hratio
  unfold squeezed
  constructor
  · exact mul_pos (by linarith) h.target_pos
  · exact mul_le_of_le_one_left h.target_pos.le (by linarith)

end Proper

theorem encoded_spec (hpos : 0 < request.squeezed) (hle : request.squeezed ≤ 2 ^ 31) :
    0 < request.encoded ∧ blockSize ∣ request.encoded ∧ request.encoded ≤ 2 ^ 31 ∧
      request.squeezed ≤ request.encoded := by
  have hblock : (0 : ℚ) < blockSize := by norm_num [blockSize]
  have hblocks : 0 < ⌈request.squeezed / blockSize⌉₊ := Nat.ceil_pos.mpr (div_pos hpos hblock)
  have hmost : ⌈request.squeezed / blockSize⌉₊ ≤ 2 ^ 26 := by
    rw [Nat.ceil_le, div_le_iff₀ hblock]
    norm_num [blockSize]
    linarith
  refine ⟨Nat.mul_pos hblocks (by decide), Nat.dvd_mul_left .., ?_, ?_⟩
  · exact Nat.mul_le_mul_right blockSize hmost
  · have hceil := Nat.le_ceil (request.squeezed / blockSize)
    rw [div_le_iff₀ hblock] at hceil
    exact_mod_cast hceil

end AxisRequest

/-- The ranges that the numbers of an axis are meant to be in. -/
structure InRange (layout : AxisLayout ℚ) (warp : AxisWarp ℚ) : Prop where
  center_pos : 0 < layout.centerSize
  center_lt : layout.centerSize < 1
  shift_gt : -1 < layout.centerShift
  shift_lt : layout.centerShift < 1
  encoded_pos : 0 < layout.encodedSize
  encoded_blocks : blockSize ∣ layout.encodedSize
  encoded_le : layout.encodedSize ≤ 2 ^ 31
  ratio_pos : 0 < layout.sizeRatio
  ratio_le : layout.sizeRatio ≤ 1
  bounds : warp.loBound < warp.hiBound

/-- All numbers of an axis are there, and in their ranges. -/
def Usable (layout : AxisLayout Ratio) (warp : AxisWarp Ratio) : Prop :=
  ∃ exactLayout exactWarp, layout = exactLayout.map Ratio.of ∧ warp = exactWarp.map Ratio.of ∧
    InRange exactLayout exactWarp

namespace AxisRequest

variable {request : AxisRequest}

def warp (request : AxisRequest) : AxisWarp Ratio :=
  .of request.layout.centerSize request.layout.centerShift (Ratio.of request.edgeRatio)

private theorem Accepted.usable (h : request.Accepted) (hfits : request.Fits) :
    Usable request.layout request.warp := by
  obtain ⟨hcenter, hshift⟩ := h.proper.fits_iff.mp hfits
  obtain ⟨hsqueezed, hle⟩ := h.proper.squeezed_mem hcenter
  obtain ⟨hencoded, hblocks, hmost, hroom⟩ := encoded_spec hsqueezed (hle.trans h.target_le)
  have hencoded' : (0 : ℚ) < request.encoded := by exact_mod_cast hencoded
  refine ⟨⟨request.squeezed / request.encoded, request.center, request.shift, request.encoded⟩,
    .of request.center request.shift request.edgeRatio, ?_, ?_, ?_⟩
  · rw [h.proper.layout_eq, Ratio.of_div hencoded'.ne']
    rfl
  · unfold warp
    rw [h.proper.layout_eq]
    exact warp_of hcenter h.proper.center_lt_one h.proper.neg_one_lt_shift hshift h.ratio_gt
  · exact
      { center_pos := hcenter
        center_lt := h.proper.center_lt_one
        shift_gt := h.proper.neg_one_lt_shift
        shift_lt := hshift
        encoded_pos := hencoded
        encoded_blocks := hblocks
        encoded_le := hmost
        ratio_pos := div_pos hsqueezed hencoded'
        ratio_le := (div_le_one hencoded').mpr hroom
        bounds := bounds_lt hcenter }

/-- Accepted foveation can be used along an axis exactly if both roundings leave something. -/
theorem Accepted.usable_iff (h : request.Accepted) :
    Usable request.layout request.warp ↔ request.Fits := by
  refine ⟨?_, h.usable⟩
  rintro ⟨exactLayout, exactWarp, hlayout, -, hrange⟩
  rw [h.proper.layout_eq] at hlayout
  obtain ⟨-, hcenter, hshift, -⟩ := AxisLayout.mk.inj hlayout
  rw [h.proper.fits_iff, Ratio.of_injective hcenter, Ratio.of_injective hshift]
  exact ⟨hrange.center_pos, hrange.shift_lt⟩

end AxisRequest

end HeadsetStream.Foveation

namespace HeadsetStream.Settings
open Number HeadsetStream.Geometry Foveation

variable {x : Float32}

private theorem value_of_isCenterSize (h : isCenterSize x = true) :
    0 < Single.value x ∧ Single.value x < 1 := by
  simp only [isCenterSize, Bool.and_eq_true, decide_eq_true_eq] at h
  obtain ⟨⟨hfinite, hpos⟩, hlt⟩ := h
  rw [← Single.value_zero, ← Single.value_one, ← Single.lt_iff Single.isFinite_zero hfinite,
    ← Single.lt_iff hfinite Single.isFinite_one]
  exact ⟨hpos, hlt⟩

private theorem value_of_isCenterShift (h : isCenterShift x = true) :
    -1 < Single.value x ∧ Single.value x < 1 := by
  simp only [isCenterShift, Bool.and_eq_true, decide_eq_true_eq] at h
  obtain ⟨hfinite, hlt⟩ := h
  rw [← abs_lt, ← Single.value_abs hfinite, ← Single.value_one,
    ← Single.lt_iff (Single.isFinite_abs hfinite) Single.isFinite_one]
  exact hlt

private theorem value_of_isEdgeRatio (h : isEdgeRatio x = true) : 1 < Single.value x := by
  simp only [isEdgeRatio, Bool.and_eq_true, decide_eq_true_eq] at h
  obtain ⟨hfinite, hgt⟩ := h
  rw [← Single.value_one, ← Single.lt_iff Single.isFinite_one hfinite]
  exact hgt

/-- What settings ask for along an axis, read exactly. -/
def axisRequest (target centerSize centerShift edgeRatio : Float32) : AxisRequest where
  target := Single.value target
  centerSize := Single.value centerSize
  centerShift := Single.value centerShift
  edgeRatio := Single.value edgeRatio

theorem accepted_axisRequest {n : Nat} {size shift ratio : Float32} (hpos : n ≠ 0)
    (hle : n ≤ 2 ^ 31) (hsize : isCenterSize size = true) (hshift : isCenterShift shift = true)
    (hratio : isEdgeRatio ratio = true) :
    (axisRequest (Float32.ofNat n) size shift ratio).Accepted := by
  obtain ⟨-, htarget, hmost⟩ := Single.value_ofNat (Nat.pos_of_ne_zero hpos) hle
  obtain ⟨hcenter, hcenter'⟩ := value_of_isCenterSize hsize
  obtain ⟨hleft, hright⟩ := value_of_isCenterShift hshift
  exact ⟨htarget, hmost, hcenter, hcenter', hleft, hright, value_of_isEdgeRatio hratio⟩

theorem checkFoveation_eq_ok {config : Foveation.Config Float32}
    (h : checkFoveation config = .ok ()) :
    config.centerSize.all isCenterSize = true ∧ config.centerShift.all isCenterShift = true ∧
      config.edgeRatio.all isEdgeRatio = true := by
  unfold checkFoveation at h
  split at h
  · exact nomatch h
  · split at h
    · exact nomatch h
    · split at h
      · exact nomatch h
      · simp_all

namespace RenderSettings

theorem check_eq_ok {render : RenderSettings} (h : render.check = .ok ()) :
    render.eyeWidth ≠ 0 ∧ render.eyeHeight ≠ 0 ∧ 0 < render.refreshRate ∧
      ∀ config, render.foveation = some config → checkFoveation config = .ok () := by
  unfold check at h
  split at h
  · exact nomatch h
  · next hsize =>
    rw [not_or] at hsize
    split at h
    · exact nomatch h
    · next hrate =>
      refine ⟨hsize.1, hsize.2, by simpa using hrate, fun config hconfig => ?_⟩
      rw [hconfig] at h
      exact h

variable (render : RenderSettings) (config : Foveation.Config Float32)

def xRequest : AxisRequest :=
  axisRequest render.eyeSize.x config.centerSize.x config.centerShift.x config.edgeRatio.x

def yRequest : AxisRequest :=
  axisRequest render.eyeSize.y config.centerSize.y config.centerShift.y config.edgeRatio.y

/-- The layout of an eye's picture, worked out exactly. -/
def exactLayout : Layout Ratio :=
  .of (render.eyeSize.map fun x => .of (Single.value x))
    (config.map fun x => .of (Single.value x))

variable {render config}

theorem accepted_requests (hcheck : render.check = .ok ())
    (hfoveation : render.foveation = some config) (hwidth : render.eyeWidth ≤ 2 ^ 31)
    (hheight : render.eyeHeight ≤ 2 ^ 31) :
    (render.xRequest config).Accepted ∧ (render.yRequest config).Accepted := by
  obtain ⟨hx, hy, -, hconfig⟩ := check_eq_ok hcheck
  obtain ⟨hsize, hshift, hratio⟩ := checkFoveation_eq_ok (hconfig config hfoveation)
  simp only [Vec2.all, Bool.and_eq_true] at hsize hshift hratio
  exact ⟨accepted_axisRequest hx hwidth hsize.1 hshift.1 hratio.1,
    accepted_axisRequest hy hheight hsize.2 hshift.2 hratio.2⟩

/-- Of accepted settings exactly those can be used along an axis whose edges, rounded up to whole
steps, end before the picture does, and whose shift, rounded up, before the edges. -/
theorem foveation_usable_iff (render : RenderSettings) (config : Foveation.Config Float32)
    (hcheck : render.check = .ok ()) (hfoveation : render.foveation = some config)
    (hwidth : render.eyeWidth ≤ 2 ^ 31) (hheight : render.eyeHeight ≤ 2 ^ 31) :
    let layout := render.exactLayout config
    let params := DecodeParams.ofLayout layout
    (Usable layout.xAxis params.x ↔ (render.xRequest config).Fits) ∧
      (Usable layout.yAxis params.y ↔ (render.yRequest config).Fits) := by
  obtain ⟨hx, hy⟩ := accepted_requests hcheck hfoveation hwidth hheight
  exact ⟨hx.usable_iff, hy.usable_iff⟩

/-- The standard foveation of the standard picture. -/
theorem standardFoveation_usable :
    let render : RenderSettings := { foveation := some standardFoveation }
    let layout := render.exactLayout standardFoveation
    let params := DecodeParams.ofLayout layout
    render.check = .ok () ∧ render.eyeWidth ≤ 2 ^ 31 ∧ render.eyeHeight ≤ 2 ^ 31 ∧
      Usable layout.xAxis params.x ∧ Usable layout.yAxis params.y := by
  intro render layout params
  have hcheck : render.check = .ok () := by decide +kernel
  have hx : (render.xRequest standardFoveation).Fits := ⟨by decide +kernel, by decide +kernel⟩
  have hy : (render.yRequest standardFoveation).Fits := ⟨by decide +kernel, by decide +kernel⟩
  obtain ⟨hxIff, hyIff⟩ :=
    foveation_usable_iff render standardFoveation hcheck rfl (by decide) (by decide)
  exact ⟨hcheck, by decide, by decide, hxIff.mpr hx, hyIff.mpr hy⟩

/-- Edges of two steps, and a shift by more than half of them. -/
def narrowEdges : Foveation.Config Float32 := ⟨⟨0.984375, 0.5⟩, ⟨0.6, 0.125⟩, ⟨4, 4⟩⟩

/-- The shift is rounded up to all of the edges, and no edge is left on the right. -/
theorem narrowEdges_unusable :
    ¬ ∀ (render : RenderSettings) (config : Foveation.Config Float32),
      render.check = .ok () → render.foveation = some config →
      render.eyeWidth ≤ 2 ^ 31 → render.eyeHeight ≤ 2 ^ 31 →
      let layout := render.exactLayout config
      let params := DecodeParams.ofLayout layout
      Usable layout.xAxis params.x ∧ Usable layout.yAxis params.y := by
  intro hall
  let render : RenderSettings :=
    { eyeWidth := 1024, eyeHeight := 1024, foveation := some narrowEdges }
  have hcheck : render.check = .ok () := by decide +kernel
  obtain ⟨hx, -⟩ := accepted_requests hcheck rfl (by decide) (by decide)
  obtain ⟨-, hshift⟩ :=
    hx.usable_iff.mp (hall render narrowEdges hcheck rfl (by decide) (by decide)).1
  revert hshift
  decide +kernel

end RenderSettings

end HeadsetStream.Settings
