import Mathlib.Analysis.SpecialFunctions.Trigonometric.Inverse
import HeadsetStream.Proofs.ShorterArc

/-!
# The sign of a sampled rotation

A quaternion and its opposite are the same rotation, and a sample may come as either of them. The
value of the filter is mixed along the shorter arc, so it does not depend on the sign unless the
sample is half a turn away. The rate of change does: it extends the turn to a second in a straight
line from the identity, without taking the nearer quaternion of the turn first, so the opposite
quaternion of a small turn is measured as almost a whole turn. Two filters that are told different
signs therefore stay on the same rotations exactly as long as they smooth each sample to the same
speed.
-/

namespace HeadsetStream.Signal
open Number HeadsetStream.Geometry Real

section

variable {s t t' rate w : ℝ}

private theorem div_sqrt_mem (hs : 0 ≤ s) (t : ℝ) : t / √(s + t ^ 2) ∈ Set.Icc (-1) 1 := by
  have hle : |t| ≤ √(s + t ^ 2) := abs_le_sqrt (le_add_of_nonneg_left hs)
  rw [Set.mem_Icc, ← abs_le, abs_div, abs_of_nonneg (sqrt_nonneg _)]
  exact div_le_one_of_le₀ hle (sqrt_nonneg _)

theorem div_sqrt_injective (hs : 0 < s) (h : t / √(s + t ^ 2) = t' / √(s + t' ^ 2)) : t = t' := by
  have hpos (t : ℝ) : 0 < s + t ^ 2 := by positivity
  have hsq := congrArg (· ^ 2) h
  simp only [div_pow, sq_sqrt (hpos _).le] at hsq
  rw [div_eq_div_iff (hpos t).ne' (hpos t').ne'] at hsq
  have hequal : t ^ 2 = t' ^ 2 := mul_left_cancel₀ hs.ne' (by linear_combination hsq)
  rw [hequal] at h
  exact (div_left_inj' (sqrt_pos.mpr (hpos t')).ne').mp h

/-- The cosine of half of the angle of a rate of change, from the turns in a second and the cosine
of half of the angle of one turn. -/
noncomputable def heading (rate w : ℝ) : ℝ :=
  (w * rate + (1 - rate)) / Quat.chord w rate

/-- A turn of some angle stays off the axis of the identity, however far it is extended. -/
theorem sideways_pos (hrate : 0 < rate) (hw : |w| < 1) : 0 < rate ^ 2 * (1 - w ^ 2) :=
  mul_pos (pow_pos hrate 2) (sub_pos.mpr ((sq_lt_one_iff_abs_lt_one w).mpr hw))

theorem heading_mem (hw : |w| ≤ 1) (rate : ℝ) : heading rate w ∈ Set.Icc (-1) 1 :=
  div_sqrt_mem (mul_nonneg (sq_nonneg _) (sub_nonneg.mpr ((sq_le_one_iff_abs_le_one w).mpr hw))) _

theorem heading_one (rate : ℝ) : heading rate 1 = 1 := by
  simp [heading, Quat.chord]

private theorem abs_heading_le {bound : ℝ} (hbound : 0 ≤ bound) (hrate : 0 < rate) (hw : |w| < 1)
    (h : (w * rate + (1 - rate)) ^ 2 ≤
      bound ^ 2 * (rate ^ 2 * (1 - w ^ 2) + (w * rate + (1 - rate)) ^ 2)) :
    |heading rate w| ≤ bound := by
  have hlength := sqrt_pos.mpr
    (add_pos_of_pos_of_nonneg (sideways_pos hrate hw) (sq_nonneg (w * rate + (1 - rate))))
  rw [heading, Quat.chord, abs_div, abs_of_pos hlength, div_le_iff₀ hlength, ← sqrt_sq hbound,
    ← sqrt_mul (sq_nonneg bound)]
  exact abs_le_sqrt h

private theorem div_abs_eq_one_iff {x : ℝ} : x / |x| = 1 ↔ 0 < x := by
  rcases lt_trichotomy x 0 with hneg | rfl | hpos
  · rw [abs_of_neg hneg, div_neg, div_self hneg.ne]
    exact iff_of_false (by norm_num) hneg.not_gt
  · simp
  · rw [abs_of_pos hpos, div_self hpos.ne']
    exact iff_of_true rfl hpos

theorem heading_neg_one (rate : ℝ) : heading rate (-1) = (1 - 2 * rate) / |1 - 2 * rate| := by
  rw [← sqrt_sq_eq_abs, heading, Quat.chord]
  ring_nf

theorem heading_neg_one_eq_one_iff : heading rate (-1) = 1 ↔ rate < 1 / 2 := by
  rw [heading_neg_one, div_abs_eq_one_iff, sub_pos, lt_div_iff₀ two_pos, mul_comm]

/-- A turn and its opposite quaternion have the same rate exactly if they are half turns, or no
turns at all and the rate is low. -/
private theorem heading_neg_eq_iff (hrate : 0 < rate) (hw : |w| ≤ 1) :
    heading rate (-w) = heading rate w ↔ w = 0 ∨ |w| = 1 ∧ rate < 1 / 2 := by
  -- A turn of no angle is extended to a multiple of the identity, of which only the sign is left.
  rcases hw.lt_or_eq with hlt | hone
  · have hbent : heading rate (-w) = heading rate w ↔ w = 0 := by
      constructor
      · intro h
        rw [heading, heading, Quat.chord, Quat.chord, neg_sq] at h
        have hequal := div_sqrt_injective (sideways_pos hrate hlt) h
        exact (mul_eq_zero_iff_right hrate.ne').mp (by linarith)
      · rintro rfl
        rw [neg_zero]
    rw [hbent, or_iff_left fun h => hlt.ne h.1]
  · have hnonzero : w ≠ 0 := by
      rintro rfl
      exact zero_ne_one (abs_zero.symm.trans hone)
    rw [or_iff_right hnonzero, and_iff_right hone]
    rcases (abs_eq one_pos.le).mp hone with rfl | rfl
    · rw [heading_one, heading_neg_one_eq_one_iff]
    · rw [neg_neg, heading_one, eq_comm, heading_neg_one_eq_one_iff]

/-- At a rate that is not one turn in a second, a turn and its opposite quaternion also have
different angles from the nearer of the identity and its opposite, unless they are half turns. -/
private theorem abs_heading_neg_eq_iff (hrate : 0 < rate) (hw : |w| < 1) :
    |heading rate (-w)| = |heading rate w| ↔ w = 0 ∨ rate = 1 := by
  have habs (w : ℝ) : |heading rate w| = |w * rate + (1 - rate)| /
      √(rate ^ 2 * (1 - w ^ 2) + |w * rate + (1 - rate)| ^ 2) := by
    rw [heading, Quat.chord, abs_div, sq_abs, abs_of_nonneg (sqrt_nonneg _)]
  have hinjective : |heading rate (-w)| = |heading rate w| ↔
      |-w * rate + (1 - rate)| = |w * rate + (1 - rate)| := by
    rw [habs, habs, neg_sq]
    exact ⟨div_sqrt_injective (sideways_pos hrate hw), fun h => by rw [h]⟩
  rw [hinjective, ← sq_eq_sq_iff_abs_eq_abs]
  constructor
  · intro h
    have hproduct : w * (rate * (1 - rate)) = 0 := by linear_combination -h / 4
    rcases mul_eq_zero.mp hproduct with hw | hboth
    · exact .inl hw
    · exact .inr (sub_eq_zero.mp ((mul_eq_zero_iff_left hrate.ne').mp hboth)).symm
  · rintro (rfl | rfl) <;> ring

end

/-- A sample of a rotation, and whether it is reported by the opposite quaternion. -/
structure Report where
  dt : ℝ
  rotation : Quat ℝ
  negated : Bool

namespace Report

variable (report : Report)

noncomputable def quaternion : Quat ℝ :=
  if report.negated then -report.rotation else report.rotation

def plain : Feed (Quat ℝ) := .sample report.dt report.rotation

noncomputable def reported : Feed (Quat ℝ) := .sample report.dt report.quaternion

theorem same_quaternion : report.rotation.SameRotation report.quaternion := by
  unfold quaternion
  split
  · exact .inr (neg_neg _).symm
  · exact .inl rfl

end Report

namespace ExactFilter

attribute [local instance] Angular.real

noncomputable def ofRotations (params : OneEuroParams ℝ) (pi : ℝ) :
    ExactFilter (Quat ℝ) (Quat ℝ) := ⟨Quat.instMoving, params, pi⟩

/-- The speed that leads from `prev` to `x` in `dt` seconds. -/
noncomputable def speedTo (filter : ExactFilter (Quat ℝ) (Quat ℝ)) (prev x : Quat ℝ) (dt : ℝ) : ℝ :=
  filter.moving.speed (filter.moving.rate prev x dt)

variable {params : OneEuroParams ℝ} {pi : ℝ} {prev x : Quat ℝ}

theorem speed_ofRotations {q : Quat ℝ} (hq : q.w ∈ Set.Icc (-1) 1) :
    (ofRotations params pi).moving.speed q = 2 * arccos q.w := by
  have hclamp : clamp q.w (-1) 1 = q.w := by
    simp only [clamp, Angular.real_lt_iff, if_neg hq.1.not_gt, if_neg hq.2.not_gt]
  rw [← Nat.cast_one] at hclamp
  rw [← hclamp, ← Nat.cast_ofNat]
  rfl

/-- The quaternion of a turn, taken so many times in a straight line from the identity. -/
def perSecond (turn : Quat ℝ) (rate : ℝ) : Quat ℝ :=
  ⟨turn.x * rate, turn.y * rate, turn.z * rate, turn.w * rate + (1 - rate)⟩

theorem dot_perSecond {turn : Quat ℝ} (h : turn.IsUnit) (rate : ℝ) :
    (perSecond turn rate).dot (perSecond turn rate) =
      rate ^ 2 * (1 - turn.w ^ 2) + (turn.w * rate + (1 - rate)) ^ 2 := by
  rw [Quat.IsUnit, Quat.dot_eq] at h
  rw [Quat.dot_eq]
  simp only [perSecond]
  linear_combination rate ^ 2 * h

theorem rate_eq (prev x : Quat ℝ) (dt : ℝ) :
    (ofRotations params pi).moving.rate prev x dt =
      (perSecond (prev.turn x) dt⁻¹).normalize := by
  rw [perSecond, ← one_div, ← Nat.cast_one]
  rfl

theorem rate_w (hprev : prev.IsUnit) (hx : x.IsUnit) (dt : ℝ) :
    ((ofRotations params pi).moving.rate prev x dt).w = heading dt⁻¹ (prev.dot x) := by
  rw [rate_eq, heading, Quat.chord, ← Quat.turn_w, ← dot_perSecond (Quat.isUnit_turn hprev hx)]
  rfl

theorem speedTo_eq (hprev : prev.IsUnit) (hx : x.IsUnit) (dt : ℝ) :
    (ofRotations params pi).speedTo prev x dt = 2 * arccos (heading dt⁻¹ (prev.dot x)) := by
  have hmem := heading_mem (Quat.abs_dot_le_one hprev hx) dt⁻¹
  rw [← rate_w hprev hx] at hmem ⊢
  exact speed_ofRotations hmem

/-- The speeds to a sample and to its opposite quaternion are the same exactly if the sample is half
a turn away, or it is where the filter is already and more than two seconds have passed. -/
private theorem speedTo_neg_iff (hprev : prev.IsUnit) (hx : x.IsUnit) {dt : ℝ} (hdt : 0 < dt) :
    (ofRotations params pi).speedTo prev (-x) dt = (ofRotations params pi).speedTo prev x dt ↔
      prev.dot x = 0 ∨ prev.SameRotation x ∧ 2 < dt := by
  have hle := Quat.abs_dot_le_one hprev hx
  have hneg : |-prev.dot x| ≤ 1 := (abs_neg _).trans_le hle
  have hslow : dt⁻¹ < 1 / 2 ↔ 2 < dt := by
    rw [one_div, inv_lt_inv₀ hdt two_pos]
  rw [speedTo_eq hprev (Quat.isUnit_neg.mpr hx), speedTo_eq hprev hx, Quat.dot_neg,
    mul_right_inj' two_ne_zero, arccos_injOn.eq_iff (heading_mem hneg _) (heading_mem hle _),
    heading_neg_eq_iff (inv_pos.mpr hdt) hle, Quat.sameRotation_iff hprev hx, hslow]

theorem ofRotations_proper (hpi : 0 < pi) (hmin : 0 < params.minCutoff) (hbeta : 0 ≤ params.beta)
    (hrate : 0 < params.rateCutoff) : (ofRotations params pi).Proper where
  pi_pos := hpi
  minCutoff_pos := hmin
  beta_nonneg := hbeta
  rateCutoff_pos := hrate
  speed_nonneg q := by
    have htwo : (0 : ℝ) ≤ ((2 : ℕ) : ℝ) := Nat.cast_nonneg 2
    exact mul_nonneg htwo (arccos_nonneg _)

theorem isUnit_step (hproper : (ofRotations params pi).Proper)
    {state : OneEuro (Quat ℝ) (Quat ℝ)} (hlast : ∀ last, state.value.last = some last → last.IsUnit)
    {dt : ℝ} (hdt : 0 < dt) (hx : x.IsUnit) :
    ((ofRotations params pi).step state dt x).1.IsUnit := by
  cases hprev : state.value.last with
  | none => rwa [step_of_none _ hprev]
  | some prev =>
    rw [step_of_some _ hprev]
    exact Quat.isUnit_slerp (hlast prev hprev) hx (hproper.factor_mem state hdt x)

/-- Two filters that had no sample, or whose last outputs are the same rotation. -/
inductive Twins (state state' : OneEuro (Quat ℝ) (Quat ℝ)) : Prop
  | fresh (h : state.value.last = none) (h' : state'.value.last = none)
  | same {last last' : Quat ℝ} (h : state.value.last = some last)
    (h' : state'.value.last = some last') (isUnit : last.IsUnit) (same : last.SameRotation last')

theorem Twins.isUnit {state state' : OneEuro (Quat ℝ) (Quat ℝ)} (h : Twins state state') :
    ∀ last, state.value.last = some last → last.IsUnit := by
  intro last hlast
  cases h with
  | fresh h _ => exact nomatch h.symm.trans hlast
  | same h _ isUnit _ => exact Option.some.inj (h.symm.trans hlast) ▸ isUnit

/-- Two filters, of which the second hears the report, put out the same rotation. -/
def SameOutputs (filter : ExactFilter (Quat ℝ) (Quat ℝ)) (state state' : OneEuro (Quat ℝ) (Quat ℝ))
    (report : Report) : Prop :=
  (filter.step state report.dt report.rotation).1.SameRotation
    (filter.step state' report.dt report.quaternion).1

/-- Two filters, of which the second hears the report, take a sample alike: their last output is
there already, or they smooth it to the same speed and, if it is half a turn away, see the same
turn. -/
def TakesAlike (filter : ExactFilter (Quat ℝ) (Quat ℝ)) (state state' : OneEuro (Quat ℝ) (Quat ℝ))
    (report : Report) : Prop :=
  ∀ last last', state.value.last = some last → state'.value.last = some last' →
    last.SameRotation report.rotation ∨
      filter.smoothedSpeed state report.dt report.rotation =
          filter.smoothedSpeed state' report.dt report.quaternion ∧
        (last.dot report.rotation = 0 →
          last'.turn report.quaternion = last.turn report.rotation)

section

variable {state state' : OneEuro (Quat ℝ) (Quat ℝ)} {report : Report}
  (hproper : (ofRotations params pi).Proper) (htwins : Twins state state') (hdt : 0 < report.dt)
  (hunit : report.rotation.IsUnit)
include hproper htwins hdt hunit

theorem sameOutputs_iff (hbeta : 0 < params.beta) :
    (ofRotations params pi).SameOutputs state state' report ↔
      (ofRotations params pi).TakesAlike state state' report := by
  cases htwins with
  | fresh h h' =>
    rw [SameOutputs, step_of_none _ h, step_of_none _ h']
    exact iff_of_true report.same_quaternion fun _ _ hsome => nomatch h.symm.trans hsome
  | same h h' isUnit same =>
    next last last' =>
    rw [SameOutputs, step_of_some _ h, step_of_some _ h']
    have hmixed := Quat.sameRotation_slerp_iff isUnit hunit same report.same_quaternion
      (hproper.factor_mem state hdt report.rotation)
      (hproper.factor_mem state' hdt report.quaternion)
    rw [hproper.factor_eq_iff hbeta hdt] at hmixed
    refine hmixed.trans ⟨fun hcase => ?_, fun htakes => htakes last last' h h'⟩
    rintro _ _ hlast hlast'
    obtain rfl := Option.some.inj (h.symm.trans hlast)
    obtain rfl := Option.some.inj (h'.symm.trans hlast')
    exact hcase

/-- Filters that put out the same rotation stay twins. -/
private theorem twins_step (hsame : (ofRotations params pi).SameOutputs state state' report) :
    Twins ((ofRotations params pi).step state report.dt report.rotation).2
      ((ofRotations params pi).step state' report.dt report.quaternion).2 :=
  .same (last_step ..) (last_step ..) (isUnit_step hproper htwins.isUnit hdt hunit) hsame

end

theorem forall_split_cons {α : Type} {P : List α → α → Prop} {x : α} {xs : List α} :
    (∀ earlier y later, x :: xs = earlier ++ y :: later → P earlier y) ↔
      P [] x ∧ ∀ earlier y later, xs = earlier ++ y :: later → P (x :: earlier) y := by
  constructor
  · intro h
    exact ⟨h [] x xs rfl, fun earlier y later hsplit => h _ y later (congrArg (x :: ·) hsplit)⟩
  · rintro ⟨hfirst, hlater⟩ earlier y later hsplit
    cases earlier with
    | nil =>
      obtain ⟨rfl, -⟩ := List.cons.inj hsplit
      exact hfirst
    | cons x' earlier =>
      obtain ⟨rfl, hrest⟩ := List.cons.inj hsplit
      exact hlater earlier y later hrest

/-- Twins put out the same rotations as long as they take each sample alike. -/
private theorem same_outputs_iff (hproper : (ofRotations params pi).Proper)
    (hbeta : 0 < params.beta)
    {state state' : OneEuro (Quat ℝ) (Quat ℝ)} (htwins : Twins state state')
    {reports : List Report} (hdt : ∀ report ∈ reports, 0 < report.dt)
    (hunit : ∀ report ∈ reports, report.rotation.IsUnit) :
    List.Forall₂ Quat.SameRotation ((ofRotations params pi).outputs state (reports.map Report.plain))
        ((ofRotations params pi).outputs state' (reports.map Report.reported)) ↔
      ∀ earlier report later, reports = earlier ++ report :: later →
        (ofRotations params pi).TakesAlike
          ((ofRotations params pi).after state (earlier.map Report.plain))
          ((ofRotations params pi).after state' (earlier.map Report.reported)) report := by
  induction reports generalizing state state' with
  | nil => exact iff_of_true .nil fun _ _ _ hsplit => by simp at hsplit
  | cons report rest ih =>
    obtain ⟨hdtFirst, hdtRest⟩ := List.forall_mem_cons.mp hdt
    obtain ⟨hunitFirst, hunitRest⟩ := List.forall_mem_cons.mp hunit
    have hfirst := sameOutputs_iff hproper htwins hdtFirst hunitFirst hbeta
    -- Only while the outputs are the same rotations are the filters twins at the next sample.
    rw [forall_split_cons]
    refine List.forall₂_cons.trans ((and_congr_right fun hsame => ?_).trans (and_congr_left' hfirst))
    exact ih (twins_step hproper htwins hdtFirst hunitFirst hsame) hdtRest hunitRest

section

variable {state : OneEuro (Quat ℝ) (Quat ℝ)} {dt : ℝ}

/-- The same input with the opposite quaternion. -/
def opposed : Feed (Quat ℝ) → Feed (Quat ℝ)
  | .sample dt x => .sample dt (-x)
  | .reset => .reset

/-- The filter that has heard the opposite quaternion of every sample. -/
def opposite (state : OneEuro (Quat ℝ) (Quat ℝ)) : OneEuro (Quat ℝ) (Quat ℝ) :=
  { state with value := ⟨state.value.last.map (-·)⟩ }

/-- The turn from a rotation to another stays the same if both signs change. -/
private theorem rate_neg_neg (prev x : Quat ℝ) (dt : ℝ) :
    (ofRotations params pi).moving.rate (-prev) (-x) dt =
      (ofRotations params pi).moving.rate prev x dt := by
  rw [rate_eq, rate_eq, Quat.turn_neg, Quat.neg_turn, neg_neg]

private theorem rawRate_opposite (state : OneEuro (Quat ℝ) (Quat ℝ)) (dt : ℝ) (x : Quat ℝ) :
    letI := (ofRotations params pi).moving
    (opposite state).rawRate dt (-x) = state.rawRate dt x := by
  cases hlast : state.value.last with
  | none => simp only [OneEuro.rawRate, opposite, hlast, Option.map_none]
  | some prev =>
    simp only [OneEuro.rawRate, opposite, hlast, Option.map_some]
    exact rate_neg_neg prev x dt

theorem smoothedRate_opposite (state : OneEuro (Quat ℝ) (Quat ℝ)) (dt : ℝ) (x : Quat ℝ) :
    (ofRotations params pi).smoothedRate (opposite state) dt (-x) =
      (ofRotations params pi).smoothedRate state dt x := by
  rw [smoothedRate, rawRate_opposite]
  rfl

variable (hproper : (ofRotations params pi).Proper)
  (hlast : ∀ last, state.value.last = some last → last.IsUnit)

include hlast in
private theorem step_opposite (hx : x.IsUnit) (dt : ℝ) :
    (ofRotations params pi).step (opposite state) dt (-x) =
      (-((ofRotations params pi).step state dt x).1,
        opposite ((ofRotations params pi).step state dt x).2) := by
  have hrate : ((ofRotations params pi).step (opposite state) dt (-x)).2.rate =
      ((ofRotations params pi).step state dt x).2.rate :=
    congrArg (LowPass.mk ∘ some) (smoothedRate_opposite state dt x)
  have hfactor : (ofRotations params pi).factor (opposite state) dt (-x) =
      (ofRotations params pi).factor state dt x := by
    rw [factor, smoothedSpeed, smoothedRate_opposite]
    rfl
  have hout : ((ofRotations params pi).step (opposite state) dt (-x)).1 =
      -((ofRotations params pi).step state dt x).1 := by
    cases hprev : state.value.last with
    | none =>
      have hnone : (opposite state).value.last = none := congrArg (Option.map _) hprev
      rw [step_of_none _ hprev, step_of_none _ hnone]
    | some prev =>
      have hsome : (opposite state).value.last = some (-prev) := congrArg (Option.map _) hprev
      rw [step_of_some _ hprev, step_of_some _ hsome, hfactor]
      exact Quat.slerp_neg_neg (hlast prev hprev) hx _
  refine Prod.ext hout (OneEuro.mk.injEq .. |>.mpr ⟨?_, hrate⟩)
  exact congrArg (LowPass.mk ∘ some) hout

include hproper hlast in
/-- The opposite quaternions of all samples give the opposite quaternions of all outputs. -/
theorem outputs_opposed {inputs : List (Feed (Quat ℝ))}
    (hinputs : ∀ dt x, Feed.sample dt x ∈ inputs → 0 < dt ∧ x.IsUnit) :
    (ofRotations params pi).outputs (opposite state) (inputs.map opposed) =
      ((ofRotations params pi).outputs state inputs).map (-·) := by
  induction inputs generalizing state with
  | nil => rfl
  | cons input rest ih =>
    have hrest : ∀ dt x, Feed.sample dt x ∈ rest → 0 < dt ∧ x.IsUnit :=
      fun dt x hmem => hinputs dt x (List.mem_cons_of_mem _ hmem)
    cases input with
    | sample dt x =>
      obtain ⟨hdt, hx⟩ := hinputs dt x List.mem_cons_self
      have hunit := isUnit_step hproper hlast hdt hx
      have hlater := @ih ((ofRotations params pi).step state dt x).2
        (fun last h => Option.some.inj h ▸ hunit) hrest
      rw [List.map_cons, opposed, outputs, step_opposite hlast hx, hlater]
      rfl
    | reset => exact @ih .empty (fun _ h => nomatch h) hrest

end

private theorem isUnit_rate (hprev : prev.IsUnit) (hx : x.IsUnit) (hturned : |prev.dot x| < 1)
    {dt : ℝ} (hdt : 0 < dt) : ((ofRotations params pi).moving.rate prev x dt).IsUnit := by
  rw [rate_eq]
  apply Quat.isUnit_normalize
  rw [dot_perSecond (Quat.isUnit_turn hprev hx), Quat.turn_w]
  exact add_pos_of_pos_of_nonneg (sideways_pos (inv_pos.mpr hdt) hturned) (sq_nonneg _)

/-- The speed that a filter smooths for its second sample. -/
theorem smoothedSpeed_second (hprev : prev.IsUnit) (hx : x.IsUnit) (hturned : |prev.dot x| < 1)
    (first : ℝ) {dt : ℝ} (hdt : 0 < dt) (hproper : (ofRotations params pi).Proper)
    (hbent : |heading dt⁻¹ (prev.dot x)| ≤ 0.9995) :
    (ofRotations params pi).smoothedSpeed
        ((ofRotations params pi).after .empty [.sample first prev]) dt x =
      2 * (arccos |heading dt⁻¹ (prev.dot x)| *
        (ofRotations params pi).smoothing dt params.rateCutoff) := by
  let filter := ofRotations params pi
  let rate := filter.moving.rate prev x dt
  let share := filter.smoothing dt params.rateCutoff
  have hunit : rate.IsUnit := isUnit_rate hprev hx hturned hdt
  have hshare : share ∈ Set.Ioo 0 1 := hproper.smoothing_mem hdt hproper.rateCutoff_pos
  have hrate : |Quat.identity.dot rate| = |heading dt⁻¹ (prev.dot x)| := by
    rw [Quat.identity_dot, rate_w hprev hx]
  have hw : (Quat.identity.slerp rate share).w =
      cos (arccos |heading dt⁻¹ (prev.dot x)| * share) := by
    rw [← Quat.identity_dot, ← hrate]
    exact Quat.dot_slerp_of_bent Quat.isUnit_identity hunit (by rw [hrate]; exact hbent.not_gt) share
  have hmem : (Quat.identity.slerp rate share).w ∈ Set.Icc (-1) 1 := by
    rw [hw]
    exact ⟨neg_one_le_cos _, cos_le_one _⟩
  -- The first sample has left the rate of a rotation at rest.
  have hspeed : filter.smoothedSpeed (filter.after .empty [.sample first prev]) dt x =
      filter.moving.speed (Quat.identity.slerp rate share) := rfl
  rw [hspeed, speed_ofRotations hmem, hw, arccos_cos]
  · exact mul_nonneg (arccos_nonneg _) hshare.1.le
  · exact (mul_le_of_le_one_right (arccos_nonneg _) hshare.2.le).trans (arccos_le_pi _)

/-- A second sample and its opposite quaternion are smoothed to one speed exactly if the sample is
half a turn away or one second has passed. -/
private theorem smoothedSpeed_second_neg_iff (hprev : prev.IsUnit) (hx : x.IsUnit)
    (hturned : |prev.dot x| < 1) (first : ℝ) {dt : ℝ} (hdt : 0 < dt)
    (hproper : (ofRotations params pi).Proper) (hbent : |heading dt⁻¹ (prev.dot x)| ≤ 0.9995)
    (hbent' : |heading dt⁻¹ (-prev.dot x)| ≤ 0.9995) :
    let filter := ofRotations params pi
    let state := filter.after .empty [.sample first prev]
    filter.smoothedSpeed state dt x = filter.smoothedSpeed state dt (-x) ↔
      prev.dot x = 0 ∨ dt = 1 := by
  intro filter state
  have hx' := Quat.isUnit_neg.mpr hx
  have hturned' : |prev.dot (-x)| < 1 := by rwa [Quat.dot_neg, abs_neg]
  rw [← Quat.dot_neg] at hbent'
  have hshare : filter.smoothing dt params.rateCutoff ≠ 0 :=
    (hproper.smoothing_mem hdt hproper.rateCutoff_pos).1.ne'
  have hmem (w : ℝ) (hw : |w| ≤ 0.9995) : |w| ∈ Set.Icc (-1) 1 :=
    ⟨neg_one_lt_zero.le.trans (abs_nonneg w), hw.trans (by norm_num)⟩
  rw [smoothedSpeed_second hprev hx hturned first hdt hproper hbent,
    smoothedSpeed_second hprev hx' hturned' first hdt hproper hbent', mul_right_inj' two_ne_zero,
    mul_left_inj' hshare, arccos_injOn.eq_iff (hmem _ hbent) (hmem _ hbent'), Quat.dot_neg, eq_comm,
    abs_heading_neg_eq_iff (inv_pos.mpr hdt) hturned, inv_eq_one]

/-- A second sample that is some turn away and its opposite quaternion lead to the same rotation
exactly if one second has passed and the turn is not a half turn. -/
private theorem second_outputs_neg_iff (hprev : prev.IsUnit) (hx : x.IsUnit)
    (hturned : |prev.dot x| < 1)
    (first : ℝ) {dt : ℝ} (hdt : 0 < dt) (hproper : (ofRotations params pi).Proper)
    (hbeta : 0 < params.beta) (hbent : |heading dt⁻¹ (prev.dot x)| ≤ 0.9995)
    (hbent' : |heading dt⁻¹ (-prev.dot x)| ≤ 0.9995) :
    let filter := ofRotations params pi
    List.Forall₂ Quat.SameRotation
        (filter.outputs .empty [.sample first prev, .sample dt x])
        (filter.outputs .empty [.sample first prev, .sample dt (-x)]) ↔
      dt = 1 ∧ prev.dot x ≠ 0 := by
  intro filter
  let state := filter.after .empty [.sample first prev]
  have hdiffer : ¬ prev.SameRotation x := fun hsame =>
    hturned.ne ((Quat.sameRotation_iff hprev hx).mp hsame)
  have hspeed : filter.smoothedSpeed state dt x = filter.smoothedSpeed state dt (-x) ↔
      prev.dot x = 0 ∨ dt = 1 :=
    smoothedSpeed_second_neg_iff hprev hx hturned first hdt hproper hbent hbent'
  have htakes := Quat.same_slerp_neg_iff hprev hx (hproper.factor_mem state hdt x)
    (hproper.factor_mem state hdt (-x))
  rw [hproper.factor_eq_iff hbeta hdt, hspeed, or_iff_right hdiffer] at htakes
  have houtputs : List.Forall₂ Quat.SameRotation
      (filter.outputs .empty [.sample first prev, .sample dt x])
      (filter.outputs .empty [.sample first prev, .sample dt (-x)]) ↔
      (prev.slerp x (filter.factor state dt x)).SameRotation
        (prev.slerp (-x) (filter.factor state dt (-x))) :=
    ⟨fun h => (List.forall₂_cons.mp (List.forall₂_cons.mp h).2).1,
      fun h => .cons (.refl prev) (.cons h .nil)⟩
  rw [houtputs, htakes]
  exact ⟨fun ⟨hcase, hnonzero⟩ => ⟨hcase.resolve_left hnonzero, hnonzero⟩,
    fun ⟨hone, hnonzero⟩ => ⟨.inr hone, hnonzero⟩⟩

/-- The filter for rotations when no parameters are given. -/
noncomputable def standardRotations : ExactFilter (Quat ℝ) (Quat ℝ) :=
  ofRotations .exact Real.pi

theorem beta_exact_pos : 0 < OneEuroParams.exact.beta := by
  norm_num [OneEuroParams.exact]

theorem standardRotations_proper : standardRotations.Proper :=
  ofRotations_proper pi_pos one_pos beta_exact_pos.le one_pos

/-- Reports by quaternions of any sign give the same rotations exactly if each of them is taken like
its sample. The speed to a sample and to its opposite quaternion is the same exactly if the sample
is half a turn away, or it is where the filter is already and more than two seconds have passed. -/
theorem signs_unseen_iff {params : OneEuroParams ℝ} {pi : ℝ} (hpi : 0 < pi)
    (hmin : 0 < params.minCutoff) (hbeta : 0 < params.beta) (hrate : 0 < params.rateCutoff)
    {reports : List Report} (hdt : ∀ report ∈ reports, 0 < report.dt)
    (hunit : ∀ report ∈ reports, report.rotation.IsUnit) :
    let filter := ofRotations params pi
    (List.Forall₂ Quat.SameRotation (filter.outputs .empty (reports.map Report.plain))
        (filter.outputs .empty (reports.map Report.reported)) ↔
      ∀ earlier report later, reports = earlier ++ report :: later →
        filter.TakesAlike (filter.after .empty (earlier.map Report.plain))
          (filter.after .empty (earlier.map Report.reported)) report) ∧
      ∀ (prev x : Quat ℝ) (dt : ℝ), prev.IsUnit → x.IsUnit → 0 < dt →
        (filter.speedTo prev (-x) dt = filter.speedTo prev x dt ↔
          prev.dot x = 0 ∨ prev.SameRotation x ∧ 2 < dt) := by
  intro filter
  have hproper := ofRotations_proper hpi hmin hbeta.le hrate
  exact ⟨same_outputs_iff hproper hbeta (.fresh rfl rfl) hdt hunit,
    fun prev x dt hprev hx hpos => speedTo_neg_iff hprev hx hpos⟩

/-- A rotation at rest that is reported by its opposite quaternion stays where it is, though the
speed to the report is not that to the sample. -/
theorem opposite_report_at_rest :
    let reports : List Report := [⟨90⁻¹, .identity, false⟩, ⟨90⁻¹, .identity, true⟩]
    (∀ report ∈ reports, 0 < report.dt) ∧ (∀ report ∈ reports, report.rotation.IsUnit) ∧
      List.Forall₂ Quat.SameRotation (standardRotations.outputs .empty (reports.map Report.plain))
        (standardRotations.outputs .empty (reports.map Report.reported)) ∧
      standardRotations.speedTo .identity (-.identity) 90⁻¹ ≠
        standardRotations.speedTo .identity .identity 90⁻¹ := by
  intro reports
  have hdt : ∀ report ∈ reports, 0 < report.dt := by simp [reports]
  have hunit : ∀ report ∈ reports, report.rotation.IsUnit := by simp [reports, Quat.isUnit_identity]
  have hmin : 0 < standardRotations.params.minCutoff := one_pos
  have hbeta : 0 < standardRotations.params.beta := beta_exact_pos
  have hrate : 0 < standardRotations.params.rateCutoff := one_pos
  obtain ⟨hsame, hspeed⟩ := signs_unseen_iff pi_pos hmin hbeta hrate hdt hunit
  refine ⟨hdt, hunit, hsame.mpr ?_, ?_⟩
  · refine forall_split_cons.mpr ⟨?_, forall_split_cons.mpr ⟨?_, ?_⟩⟩
    · exact fun _ _ hlast => nomatch hlast
    · intro last _ hlast _
      obtain rfl := Option.some.inj hlast
      exact .inl (.refl _)
    · exact fun _ _ _ hsplit => by simp at hsplit
  · intro hequal
    have hspeeds := hspeed .identity .identity 90⁻¹ Quat.isUnit_identity Quat.isUnit_identity
      (by norm_num)
    rcases hspeeds.mp hequal with hzero | ⟨-, hslow⟩
    · exact one_ne_zero (Quat.isUnit_identity.symm.trans hzero)
    · norm_num at hslow

/-- A turn of 0.15 radians in a ninetieth of a second that is reported by its opposite quaternion
leads to another rotation, and a rotation at rest is measured as a whole turn a second. -/
theorem opposite_report_changes_rotation :
    let turned : Quat ℝ := ⟨0, 0.07584, 0, 0.99712⟩
    turned.IsUnit ∧
      ¬ List.Forall₂ Quat.SameRotation
        (standardRotations.outputs .empty [.sample 90⁻¹ .identity, .sample 90⁻¹ turned])
        (standardRotations.outputs .empty [.sample 90⁻¹ .identity, .sample 90⁻¹ (-turned)]) ∧
      standardRotations.speedTo .identity .identity 90⁻¹ = 0 ∧
      standardRotations.speedTo .identity (-.identity) 90⁻¹ = 2 * Real.pi := by
  intro turned
  have hunit : turned.IsUnit := by
    rw [Quat.IsUnit, Quat.dot_eq]
    norm_num [turned]
  have hdot : Quat.identity.dot turned = 0.99712 := Quat.identity_dot turned
  have habs : |Quat.identity.dot turned| = 0.99712 := by
    rw [hdot]
    norm_num [abs_of_pos]
  have hbent (w : ℝ) (hw : |w| = 0.99712) : |heading 90⁻¹⁻¹ w| ≤ 0.9995 := by
    apply abs_heading_le (by norm_num) (by norm_num) (by rw [hw]; norm_num)
    rcases (abs_eq (by norm_num)).mp hw with rfl | rfl <;> norm_num
  refine ⟨hunit, fun hsame => ?_, ?_, ?_⟩
  · have hsecond := (second_outputs_neg_iff Quat.isUnit_identity hunit (by rw [habs]; norm_num) 90⁻¹
      (by norm_num) standardRotations_proper beta_exact_pos (hbent _ habs)
      (hbent _ ((abs_neg _).trans habs))).mp hsame
    norm_num at hsecond
  · rw [standardRotations, speedTo_eq Quat.isUnit_identity Quat.isUnit_identity,
      Quat.isUnit_identity, heading_one, arccos_one, mul_zero]
  · have hhalf : heading 90⁻¹⁻¹ (-1) = -1 := by
      rw [heading_neg_one]
      norm_num [abs_of_neg]
    rw [standardRotations,
      speedTo_eq Quat.isUnit_identity (Quat.isUnit_neg.mpr Quat.isUnit_identity),
      Quat.dot_neg, Quat.isUnit_identity, hhalf, arccos_neg_one]

end ExactFilter

end HeadsetStream.Signal
