import Mathlib.Analysis.SpecialFunctions.Trigonometric.Inverse
import HeadsetStream.Geometry.Rotation
import HeadsetStream.Proofs.ExactFilters

/-!
# Rotations mixed along the shorter arc

Over the real numbers, mixing two rotations gives a sum of their quaternions with two positive
weights, of which one has the sign that makes the arc the shorter one. The mixture is a rotation,
its sign follows the first of the two, and unless they are the same rotation each share of the way
gives another mixture. If the two are a half turn apart, neither arc is shorter: then, and only
then, the sign of the second decides.
-/

namespace HeadsetStream.Geometry.Quat
open Number Real

section

variable {c s s' : ℝ}

/-- The length that a mixture in a straight line has before it is brought to length one. -/
noncomputable def chord (c s : ℝ) : ℝ := √(s ^ 2 * (1 - c ^ 2) + (c * s + (1 - s)) ^ 2)

theorem chord_eq (c s : ℝ) : chord c s = √((1 - s) ^ 2 + 2 * (1 - s) * s * c + s ^ 2) := by
  rw [chord]
  ring_nf

/-- The weights of two rotations a share `s` of the way from the first to the second, where `c` is
the cosine of the arc between them. -/
noncomputable def weights (c s : ℝ) : ℝ × ℝ :=
  if 0.9995 < c then ((1 - s) / chord c s, s / chord c s)
  else (sin (arccos c * (1 - s)) / sin (arccos c), sin (arccos c * s) / sin (arccos c))

private theorem sin_sq_sum (x y : ℝ) :
    sin x ^ 2 + 2 * sin x * sin y * cos (x + y) + sin y ^ 2 = sin (x + y) ^ 2 := by
  rw [cos_add, sin_add]
  linear_combination -(sin x ^ 2 * sin_sq_add_cos_sq y + sin y ^ 2 * sin_sq_add_cos_sq x)

theorem weights_of_straight (h : 0.9995 < c) :
    weights c s = ((1 - s) / chord c s, s / chord c s) := if_pos h

theorem weights_of_bent (h : ¬ 0.9995 < c) :
    weights c s =
      (sin (arccos c * (1 - s)) / sin (arccos c), sin (arccos c * s) / sin (arccos c)) := if_neg h

theorem arccos_pos_of_bent (h : ¬ 0.9995 < c) : 0 < arccos c :=
  arccos_pos.mpr (lt_of_le_of_lt (not_lt.mp h) (by norm_num))

section

variable (hc : 0 ≤ c) (hs : s ∈ Set.Ioo 0 1)
include hc

theorem sin_arccos_pos_of_bent (h : ¬ 0.9995 < c) : 0 < sin (arccos c) :=
  sin_pos_of_pos_of_lt_pi (arccos_pos_of_bent h)
    ((arccos_le_pi_div_two.mpr hc).trans_lt (half_lt_self pi_pos))

include hs

theorem chord_arg_pos : 0 < (1 - s) ^ 2 + 2 * (1 - s) * s * c + s ^ 2 := by
  obtain ⟨hpos, hlt⟩ := hs
  have hrest := sub_pos.mpr hlt
  have hcross := mul_nonneg (mul_nonneg (mul_nonneg two_pos.le hrest.le) hpos.le) hc
  positivity

theorem chord_pos : 0 < chord c s := by
  rw [chord_eq]
  exact sqrt_pos.mpr (chord_arg_pos hc hs)

/-- A share of the arc is an acute angle. -/
theorem arc_mem (h : ¬ 0.9995 < c) : arccos c * s ∈ Set.Ioo 0 (π / 2) := by
  have harc := arccos_pos_of_bent h
  exact ⟨mul_pos harc hs.1,
    (mul_lt_of_lt_one_right harc hs.2).trans_le (arccos_le_pi_div_two.mpr hc)⟩

theorem sin_arc_pos (h : ¬ 0.9995 < c) : 0 < sin (arccos c * s) := by
  obtain ⟨hpos, hlt⟩ := arc_mem hc hs h
  exact sin_pos_of_pos_of_lt_pi hpos (hlt.trans (half_lt_self pi_pos))

theorem weights_pos : 0 < (weights c s).1 ∧ 0 < (weights c s).2 := by
  have hrest : 1 - s ∈ Set.Ioo (0 : ℝ) 1 := ⟨sub_pos.mpr hs.2, sub_lt_self 1 hs.1⟩
  by_cases h : 0.9995 < c
  · rw [weights_of_straight h]
    exact ⟨div_pos hrest.1 (chord_pos hc hs), div_pos hs.1 (chord_pos hc hs)⟩
  · rw [weights_of_bent h]
    have hwhole := sin_arccos_pos_of_bent hc h
    exact ⟨div_pos (sin_arc_pos hc hrest h) hwhole, div_pos (sin_arc_pos hc hs h) hwhole⟩

/-- The mixture has length one. -/
theorem weights_unit (hle : c ≤ 1) :
    (weights c s).1 ^ 2 + 2 * (weights c s).1 * (weights c s).2 * c + (weights c s).2 ^ 2 = 1 := by
  by_cases h : 0.9995 < c
  · rw [weights_of_straight h]
    have hchord := (chord_pos hc hs).ne'
    have hsq := sq_sqrt (chord_arg_pos hc hs).le
    rw [← chord_eq] at hsq
    field_simp
    linear_combination -hsq
  · rw [weights_of_bent h]
    have hwhole := (sin_arccos_pos_of_bent hc h).ne'
    have hcos : cos (arccos c) = c := cos_arccos (by linarith) hle
    have hsum := sin_sq_sum (arccos c * (1 - s)) (arccos c * s)
    rw [← mul_add, sub_add_cancel, mul_one, hcos] at hsum
    field_simp
    linear_combination hsum

omit hs in
/-- On a bent arc the mixture is a share `s` of the arc away from the first rotation. -/
private theorem weights_cos (h : ¬ 0.9995 < c) (hle : c ≤ 1) :
    (weights c s).1 + c * (weights c s).2 = cos (arccos c * s) := by
  have hwhole := (sin_arccos_pos_of_bent hc h).ne'
  have hcos : cos (arccos c) = c := cos_arccos (by linarith) hle
  have hsub := sin_sub (arccos c) (arccos c * s)
  rw [← mul_one_sub, hcos] at hsub
  rw [weights_of_bent h, hsub]
  field_simp
  ring

theorem weights_injective (hs' : s' ∈ Set.Ioo 0 1) (h : weights c s = weights c s') : s = s' := by
  by_cases hstraight : 0.9995 < c
  · rw [weights_of_straight hstraight, weights_of_straight hstraight] at h
    obtain ⟨hrest, hshare⟩ := Prod.ext_iff.mp h
    have hchord := (chord_pos hc hs).ne'
    have hchord' := (chord_pos hc hs').ne'
    rw [div_eq_div_iff hchord hchord'] at hrest hshare
    have hequal : chord c s = chord c s' := by linear_combination -(hrest + hshare)
    rw [hequal] at hshare
    exact mul_right_cancel₀ hchord' hshare
  · rw [weights_of_bent hstraight, weights_of_bent hstraight] at h
    -- Shares of an acute arc are acute, where different angles have different sines.
    have hwhole := (sin_arccos_pos_of_bent hc hstraight).ne'
    have hsin := (div_left_inj' hwhole).mp (Prod.ext_iff.mp h).2
    have hacute {t : ℝ} (ht : t ∈ Set.Ioo 0 1) : arccos c * t ∈ Set.Icc (-(π / 2)) (π / 2) := by
      obtain ⟨hpos, hlt⟩ := arc_mem hc ht hstraight
      exact ⟨by linarith [pi_pos], hlt.le⟩
    have hangle := injOn_sin (hacute hs) (hacute hs') hsin
    exact mul_left_cancel₀ (arccos_pos_of_bent hstraight).ne' hangle

end

end

attribute [local instance] Angular.real

variable {a b p q : Quat ℝ} {c s s' u v : ℝ}

def IsUnit (q : Quat ℝ) : Prop := q.dot q = 1

attribute [ext] Quat

/-- A quaternion and its opposite are the same rotation. -/
def SameRotation (p q : Quat ℝ) : Prop := p = q ∨ p = -q

@[simp] theorem neg_x : (-q).x = -q.x := rfl

@[simp] theorem neg_y : (-q).y = -q.y := rfl

@[simp] theorem neg_z : (-q).z = -q.z := rfl

@[simp] theorem neg_w : (-q).w = -q.w := rfl

theorem dot_eq (p q : Quat ℝ) : p.dot q = p.x * q.x + p.y * q.y + p.z * q.z + p.w * q.w := by
  unfold dot
  ring

theorem dot_comm (p q : Quat ℝ) : p.dot q = q.dot p := by
  simp only [dot_eq]
  ring

@[simp] theorem dot_neg (p q : Quat ℝ) : p.dot (-q) = -p.dot q := by
  simp only [dot_eq, neg_x, neg_y, neg_z, neg_w]
  ring

@[simp] theorem neg_dot (p q : Quat ℝ) : (-p).dot q = -p.dot q := by
  rw [dot_comm, dot_neg, dot_comm]

instance : InvolutiveNeg (Quat ℝ) where
  neg_neg _ := Quat.ext (neg_neg _) (neg_neg _) (neg_neg _) (neg_neg _)

namespace SameRotation

theorem refl (q : Quat ℝ) : q.SameRotation q := .inl rfl

theorem symm (h : p.SameRotation q) : q.SameRotation p :=
  h.imp Eq.symm fun hneg => neg_eq_iff_eq_neg.mp hneg.symm

private theorem neg_left (h : p.SameRotation q) : (-p).SameRotation q := by
  rcases h with rfl | rfl
  · exact .inr rfl
  · exact .inl (neg_neg q)

theorem neg_right (h : p.SameRotation q) : p.SameRotation (-q) := h.symm.neg_left.symm

end SameRotation

theorem sameRotation_neg_right : p.SameRotation (-q) ↔ p.SameRotation q :=
  ⟨fun h => neg_neg q ▸ h.neg_right, .neg_right⟩

theorem isUnit_neg : (-q).IsUnit ↔ q.IsUnit := by
  rw [IsUnit, dot_neg, neg_dot, neg_neg]
  rfl

theorem isUnit_identity : (identity : Quat ℝ).IsUnit := by
  rw [IsUnit, dot_eq]
  simp [identity, Scalar.ofNat_eq]

theorem identity_dot (q : Quat ℝ) : identity.dot q = q.w := by
  rw [dot_eq]
  simp [identity, Scalar.ofNat_eq]

section

variable (ha : a.IsUnit) (hb : b.IsUnit)
include ha hb

/-- The squared distance of two quaternions of length one. -/
theorem sq_distance :
    (a.x - b.x) ^ 2 + (a.y - b.y) ^ 2 + (a.z - b.z) ^ 2 + (a.w - b.w) ^ 2 = 2 - 2 * a.dot b := by
  simp only [IsUnit, dot_eq] at ha hb ⊢
  linear_combination ha + hb

theorem dot_le_one : a.dot b ≤ 1 := by
  have hdistance := sq_distance ha hb
  have hnonneg : 0 ≤ (a.x - b.x) ^ 2 + (a.y - b.y) ^ 2 + (a.z - b.z) ^ 2 + (a.w - b.w) ^ 2 := by
    positivity
  linarith

theorem abs_dot_le_one : |a.dot b| ≤ 1 := by
  have hneg := dot_le_one (isUnit_neg.mpr ha) hb
  rw [neg_dot] at hneg
  exact abs_le'.mpr ⟨dot_le_one ha hb, hneg⟩

theorem eq_of_dot_eq_one (h : a.dot b = 1) : a = b := by
  have hdistance := sq_distance ha hb
  have hx := sq_nonneg (a.x - b.x)
  have hy := sq_nonneg (a.y - b.y)
  have hz := sq_nonneg (a.z - b.z)
  have hw := sq_nonneg (a.w - b.w)
  ext <;> exact sub_eq_zero.mp (pow_eq_zero_iff two_ne_zero |>.mp (by linarith))

theorem sameRotation_iff : a.SameRotation b ↔ |a.dot b| = 1 := by
  constructor
  · rintro (rfl | rfl)
    · rw [ha, abs_one]
    · rw [neg_dot, hb, abs_neg, abs_one]
  · intro h
    rcases abs_eq one_pos.le |>.mp h with hone | hneg
    · exact .inl (eq_of_dot_eq_one ha hb hone)
    · refine .inr (eq_of_dot_eq_one ha (isUnit_neg.mpr hb) ?_)
      rw [dot_neg, hneg, neg_neg]

end

theorem isUnit_normalize (h : 0 < q.dot q) : q.normalize.IsUnit := by
  have hsq := sq_sqrt h.le
  have hlength := (sqrt_pos.mpr h).ne'
  rw [IsUnit, normalize, dot_eq]
  simp only [map, Angular.real_sqrt]
  field_simp
  rw [hsq, dot_eq]
  ring

/-- A sum with two weights. -/
def mix (a b : Quat ℝ) (u v : ℝ) : Quat ℝ := zipWith (fun p q => p * u + q * v) a b

theorem dot_mix (p a b : Quat ℝ) (u v : ℝ) : p.dot (a.mix b u v) = p.dot a * u + p.dot b * v := by
  simp only [dot_eq, mix, zipWith]
  ring

theorem mix_dot_mix (ha : a.IsUnit) (hb : b.IsUnit) (u v : ℝ) :
    (a.mix b u v).dot (a.mix b u v) = u ^ 2 + 2 * u * v * a.dot b + v ^ 2 := by
  rw [IsUnit] at ha hb
  rw [dot_mix, dot_comm _ a, dot_comm _ b, dot_mix, dot_mix, ha, hb, dot_comm b a]
  ring

private theorem neg_mix_neg (a b : Quat ℝ) (u v : ℝ) : (-a).mix (-b) u v = -a.mix b u v := by
  ext <;> simp only [mix, zipWith, neg_x, neg_y, neg_z, neg_w] <;> ring

/-- The one of `b` and its opposite that is at most a quarter of a circle away from `a`. -/
noncomputable def nearer (a b : Quat ℝ) : Quat ℝ := if a.dot b < 0 then -b else b

theorem dot_nearer (a b : Quat ℝ) : a.dot (a.nearer b) = |a.dot b| := by
  unfold nearer
  split
  · next h => rw [dot_neg, abs_of_neg h]
  · next h => rw [abs_of_nonneg (not_lt.mp h)]

theorem IsUnit.nearer (hb : b.IsUnit) (a : Quat ℝ) : (a.nearer b).IsUnit := by
  unfold Quat.nearer
  split
  · exact isUnit_neg.mpr hb
  · exact hb

private theorem neg_nearer_neg (a b : Quat ℝ) : (-a).nearer (-b) = -a.nearer b := by
  unfold nearer
  rw [neg_dot, dot_neg, neg_neg]
  split <;> rfl

private theorem nearer_neg (h : a.dot b ≠ 0) : a.nearer (-b) = a.nearer b := by
  unfold nearer
  rw [dot_neg, neg_neg]
  rcases lt_or_gt_of_ne h with hneg | hpos
  · rw [if_neg (by linarith), if_pos hneg]
  · rw [if_pos (by linarith), if_neg hpos.not_gt]

private theorem nearer_of_same (h : a.SameRotation b) (hb : b.IsUnit) : a.nearer b = a := by
  rw [IsUnit] at hb
  unfold nearer
  rcases h with rfl | rfl
  · rw [if_neg (by linarith)]
  · rw [if_pos (by rw [neg_dot]; linarith)]

private theorem normalize_mix (ha : a.IsUnit) (hb : b.IsUnit) (u v : ℝ) :
    (a.mix b u v).normalize =
      a.mix b (u / √(u ^ 2 + 2 * u * v * a.dot b + v ^ 2))
        (v / √(u ^ 2 + 2 * u * v * a.dot b + v ^ 2)) := by
  simp only [normalize, mix_dot_mix ha hb, Angular.real_sqrt]
  simp only [map, mix, zipWith]
  congr 1 <;> ring

/-- Mixing is a sum with weights of the first rotation and of the nearer quaternion of the second.
-/
theorem slerp_eq_mix (ha : a.IsUnit) (hb : b.IsUnit) (s : ℝ) :
    a.slerp b s = a.mix (a.nearer b) (weights |a.dot b| s).1 (weights |a.dot b| s).2 := by
  have hend : (if a.dot b < 0 then -b else b) = a.nearer b := rfl
  have hcosine : (if a.dot b < 0 then -a.dot b else a.dot b) = |a.dot b| := by
    split
    · next h => rw [abs_of_neg h]
    · next h => rw [abs_of_nonneg (not_lt.mp h)]
  simp only [slerp, Scalar.ofNat_eq, Nat.cast_zero, Nat.cast_one, Angular.real_lt_iff, hend, hcosine,
    Angular.real_straight, Angular.real_arc, Angular.real_arcSine]
  split
  · next h =>
    have hline : zipWith (fun p q => (q - p) * s + p) a (a.nearer b) =
        a.mix (a.nearer b) (1 - s) s := by
      simp only [mix, zipWith]
      congr 1 <;> ring
    rw [weights_of_straight h, hline, normalize_mix ha (hb.nearer a), dot_nearer, ← chord_eq]
  · next h =>
    rw [weights_of_bent h]
    simp only [mix, zipWith]
    congr 1 <;> ring

section

variable (ha : a.IsUnit) (hb : b.IsUnit)
include ha hb

/-- Opposite quaternions of both rotations give the opposite mixture. -/
theorem slerp_neg_neg (s : ℝ) : (-a).slerp (-b) s = -a.slerp b s := by
  rw [slerp_eq_mix (isUnit_neg.mpr ha) (isUnit_neg.mpr hb), slerp_eq_mix ha hb, neg_nearer_neg,
    neg_dot, dot_neg, neg_neg, neg_mix_neg]

/-- The sign of the second rotation does not matter while one of the arcs is shorter. -/
theorem slerp_neg (h : a.dot b ≠ 0) (s : ℝ) : a.slerp (-b) s = a.slerp b s := by
  rw [slerp_eq_mix ha (isUnit_neg.mpr hb), slerp_eq_mix ha hb, nearer_neg h, dot_neg, abs_neg]

theorem isUnit_slerp (hs : s ∈ Set.Ioo 0 1) : (a.slerp b s).IsUnit := by
  rw [IsUnit, slerp_eq_mix ha hb, mix_dot_mix ha (hb.nearer a), dot_nearer]
  exact weights_unit (abs_nonneg _) hs (abs_dot_le_one ha hb)

theorem dot_slerp_of_bent (h : ¬ 0.9995 < |a.dot b|) (s : ℝ) :
    a.dot (a.slerp b s) = cos (arccos |a.dot b| * s) := by
  have hcos := weights_cos (abs_nonneg _) h (abs_dot_le_one ha hb) (s := s)
  rw [slerp_eq_mix ha hb, dot_mix, dot_nearer, ← hcos]
  rw [IsUnit] at ha
  rw [ha, one_mul]

theorem slerp_of_same (h : a.SameRotation b) (hs : s ∈ Set.Ioo 0 1) : a.slerp b s = a := by
  have hone := (sameRotation_iff ha hb).mp h
  obtain ⟨hu, hv⟩ := weights_pos (abs_nonneg (a.dot b)) hs
  have hunit := weights_unit (abs_nonneg (a.dot b)) hs (abs_dot_le_one ha hb)
  rw [slerp_eq_mix ha hb, nearer_of_same h hb]
  rw [hone] at hu hv hunit ⊢
  have hsum : (weights 1 s).1 + (weights 1 s).2 = 1 := by
    rw [← pow_eq_one_iff_of_nonneg (add_pos hu hv).le two_ne_zero]
    linear_combination hunit
  have hcomponent (x : ℝ) : x * (weights 1 s).1 + x * (weights 1 s).2 = x := by
    rw [← mul_add, hsum, mul_one]
  exact Quat.ext (hcomponent _) (hcomponent _) (hcomponent _) (hcomponent _)

/-- Two sums with positive weights of different rotations that are the same rotation have the same
weights. -/
private theorem weights_eq_of_same {u v u' v' : ℝ} (hu : 0 < u) (hv : 0 < v) (hu' : 0 < u')
    (hv' : 0 < v') (hnonneg : 0 ≤ a.dot b) (hlt : a.dot b < 1)
    (h : (a.mix b u v).SameRotation (a.mix b u' v')) : u = u' ∧ v = v' := by
  rw [IsUnit] at ha hb
  have hequal : a.mix b u v = a.mix b u' v' := by
    refine h.resolve_right fun hneg => ?_
    have hdot := congrArg a.dot hneg
    rw [dot_neg, dot_mix, dot_mix, ha] at hdot
    have hcross := mul_nonneg hnonneg (add_pos hv hv').le
    linarith
  -- Two linear equations for the weights, of which the determinant is not zero.
  have hfirst := congrArg a.dot hequal
  have hsecond := congrArg b.dot hequal
  rw [dot_mix, dot_mix, ha] at hfirst
  rw [dot_mix, dot_mix, hb, dot_comm b a] at hsecond
  have hgap : 1 - a.dot b ^ 2 ≠ 0 := by nlinarith
  constructor
  · apply mul_right_cancel₀ hgap
    linear_combination hfirst - a.dot b * hsecond
  · apply mul_right_cancel₀ hgap
    linear_combination hsecond - a.dot b * hfirst

/-- Each share of the way between different rotations gives another rotation. -/
theorem slerp_injective (hdiffer : ¬ a.SameRotation b) (hs : s ∈ Set.Ioo 0 1)
    (hs' : s' ∈ Set.Ioo 0 1) (h : (a.slerp b s).SameRotation (a.slerp b s')) : s = s' := by
  have hnonneg := abs_nonneg (a.dot b)
  have hlt := (abs_dot_le_one ha hb).lt_of_ne (mt (sameRotation_iff ha hb).mpr hdiffer)
  obtain ⟨hu, hv⟩ := weights_pos hnonneg hs
  obtain ⟨hu', hv'⟩ := weights_pos hnonneg hs'
  rw [slerp_eq_mix ha hb, slerp_eq_mix ha hb] at h
  rw [← dot_nearer] at hnonneg hlt
  obtain ⟨hfirst, hsecond⟩ := weights_eq_of_same ha (hb.nearer a) hu hv hu' hv' hnonneg hlt h
  exact weights_injective (abs_nonneg _) hs hs' (Prod.ext hfirst hsecond)

theorem same_slerp_iff (hs : s ∈ Set.Ioo 0 1) (hs' : s' ∈ Set.Ioo 0 1) :
    (a.slerp b s).SameRotation (a.slerp b s') ↔ a.SameRotation b ∨ s = s' := by
  constructor
  · intro h
    exact or_iff_not_imp_left.mpr fun hdiffer => slerp_injective ha hb hdiffer hs hs' h
  · rintro (hsame | rfl)
    · rw [slerp_of_same ha hb hsame hs, slerp_of_same ha hb hsame hs']
      exact .refl a
    · exact .refl _

/-- A half turn away the two signs of the second rotation lead to different rotations. -/
theorem not_same_slerp_neg (h : a.dot b = 0) (hs : s ∈ Set.Ioo 0 1) (hs' : s' ∈ Set.Ioo 0 1) :
    ¬ (a.slerp b s).SameRotation (a.slerp (-b) s') := by
  obtain ⟨hu, hv⟩ := weights_pos (abs_nonneg (a.dot b)) hs
  obtain ⟨hu', hv'⟩ := weights_pos (abs_nonneg (a.dot b)) hs'
  have hb' := isUnit_neg.mpr hb
  have hnearer : a.nearer b = b := if_neg h.not_lt
  have hnearer' : a.nearer (-b) = -b := if_neg (by rw [dot_neg, h, neg_zero]; exact lt_irrefl 0)
  rw [slerp_eq_mix ha hb, slerp_eq_mix ha hb', hnearer, hnearer', dot_neg, abs_neg]
  rw [h] at hu hv hu' hv'
  rw [IsUnit] at ha hb
  rintro (hequal | hopposite)
  · have hsecond := congrArg b.dot hequal
    rw [dot_mix, dot_mix, dot_neg, hb, dot_comm b a, h] at hsecond
    linarith
  · have hfirst := congrArg a.dot hopposite
    rw [dot_neg, dot_mix, dot_mix, dot_neg, ha, h] at hfirst
    linarith

theorem same_slerp_neg_iff (hs : s ∈ Set.Ioo 0 1) (hs' : s' ∈ Set.Ioo 0 1) :
    (a.slerp b s).SameRotation (a.slerp (-b) s') ↔
      a.SameRotation b ∨ s = s' ∧ a.dot b ≠ 0 := by
  by_cases h : a.dot b = 0
  · have hdiffer : ¬ a.SameRotation b := by
      rw [sameRotation_iff ha hb, h, abs_zero]
      exact zero_ne_one
    exact iff_of_false (not_same_slerp_neg ha hb h hs hs') (by simp [hdiffer, h])
  · rw [slerp_neg ha hb h, same_slerp_iff ha hb hs hs', and_iff_left h]

end

/-- The turn that leads from one rotation to another. -/
noncomputable def turn (a b : Quat ℝ) : Quat ℝ := b * a.inverse

theorem turn_eq (a b : Quat ℝ) : a.turn b =
    { x := b.x * a.w - b.w * a.x - b.y * a.z + b.z * a.y
      y := b.y * a.w - b.w * a.y + b.x * a.z - b.z * a.x
      z := b.z * a.w - b.w * a.z - b.x * a.y + b.y * a.x
      w := a.dot b } := by
  rw [dot_eq]
  show mul b (inverse a) = _
  unfold mul inverse
  congr 1 <;> ring

/-- The cosine of half of the angle. -/
theorem turn_w (a b : Quat ℝ) : (a.turn b).w = a.dot b := by rw [turn_eq]

theorem turn_neg (a b : Quat ℝ) : a.turn (-b) = -a.turn b := by
  rw [turn_eq, turn_eq, dot_neg]
  ext <;> simp only [neg_x, neg_y, neg_z, neg_w] <;> ring

theorem neg_turn (a b : Quat ℝ) : (-a).turn b = -a.turn b := by
  rw [turn_eq, turn_eq, neg_dot]
  ext <;> simp only [neg_x, neg_y, neg_z, neg_w] <;> ring

theorem isUnit_turn (ha : a.IsUnit) (hb : b.IsUnit) : (a.turn b).IsUnit := by
  have hproduct : (a.turn b).dot (a.turn b) = a.dot a * b.dot b := by
    simp only [turn_eq, dot_eq]
    ring
  rw [IsUnit, hproduct, ha, hb, mul_one]

private theorem IsUnit.ne_neg (h : q.IsUnit) : q ≠ -q := by
  intro hequal
  rw [IsUnit] at h
  have hdot := congrArg q.dot hequal
  rw [dot_neg, h] at hdot
  linarith

/-- Rotations that agree up to sign are mixed to the same rotation exactly if they are the same, or
the shares agree and either the turns are the same quaternion or there is a shorter arc. -/
theorem sameRotation_slerp_iff {a' b' : Quat ℝ} (ha : a.IsUnit) (hb : b.IsUnit)
    (hsame : a.SameRotation a') (hsame' : b.SameRotation b') (hs : s ∈ Set.Ioo 0 1)
    (hs' : s' ∈ Set.Ioo 0 1) :
    (a.slerp b s).SameRotation (a'.slerp b' s') ↔
      a.SameRotation b ∨ s = s' ∧ (a.dot b = 0 → a'.turn b' = a.turn b) := by
  have hopposite : (a.dot b = 0 → -a.turn b = a.turn b) ↔ a.dot b ≠ 0 :=
    imp_congr_right fun _ => iff_false_intro (isUnit_turn ha hb).ne_neg.symm
  have hagree : (a.dot b = 0 → a.turn b = a.turn b) := fun _ => rfl
  have hequal := same_slerp_iff ha hb hs hs'
  have hflipped := same_slerp_neg_iff ha hb hs hs'
  -- If both signs differ, the second mixture is the opposite quaternion of the one with neither.
  rcases hsame.symm with rfl | rfl <;> rcases hsame'.symm with rfl | rfl
  · rw [hequal, and_iff_left hagree]
  · rw [hflipped, turn_neg, hopposite]
  · rw [← neg_neg b', slerp_neg_neg ha (isUnit_neg.mpr hb), sameRotation_neg_right, neg_neg,
      hflipped, neg_turn, hopposite]
  · rw [slerp_neg_neg ha hb, sameRotation_neg_right, neg_turn, turn_neg, neg_neg, hequal,
      and_iff_left hagree]

end HeadsetStream.Geometry.Quat
