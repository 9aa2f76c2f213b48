import HeadsetStream.Signal.OneEuro
import HeadsetStream.Proofs.ExactArithmetic
import Mathlib.Analysis.SpecialFunctions.Trigonometric.Inverse

/-!
# Filters over the real numbers

The formulas of the one euro filter, read over the real numbers, where no step is rounded. Every
smoothing factor of a filter with positive cutoffs lies strictly between 0 and 1 and grows with the
cutoff, and as the cutoff never falls below that of a signal at rest, the factor used for a value
never falls below the one at rest.
-/

namespace HeadsetStream.Number

/-- The number taken for the ratio of a circle is given: floating point has only one near it. -/
noncomputable abbrev Precise.real (pi : ℝ) : Precise ℝ ℝ where
  toScalar := .ofField ℝ
  wide := .ofField ℝ
  widen := id
  narrow := id
  pi := pi
  ceil x := ⌈x⌉
  ceilNat x := ⌈x⌉₊

noncomputable abbrev Angular.real : Angular ℝ where
  toScalar := .ofField ℝ
  sqrt := Real.sqrt
  lt a b := decide (a < b)
  sin := Real.sin
  cos := Real.cos
  acos := Real.arccos
  arc := Real.arccos
  arcSine := Real.sin
  straight := 0.9995

namespace Angular

variable (x y : ℝ)

@[simp] theorem real_sqrt : @Rooted.sqrt ℝ Angular.real.toRooted x = √x := rfl

@[simp] theorem real_lt_iff : @Rooted.lt ℝ Angular.real.toRooted x y = true ↔ x < y :=
  decide_eq_true_iff

@[simp] theorem real_arc : @Angular.arc ℝ .real x = Real.arccos x := rfl

@[simp] theorem real_arcSine : @Angular.arcSine ℝ .real x = Real.sin x := rfl

@[simp] theorem real_straight : @Angular.straight ℝ .real = 0.9995 := rfl

end Angular

end HeadsetStream.Number

namespace HeadsetStream.Signal
open Number

/-- What reaches a filter: a sample taken `dt` seconds after the one before it, or a reset. -/
inductive Feed (σ : Type) where
  | sample (dt : ℝ) (x : σ)
  | reset

/-- The outputs of a low-pass filter whose smoothing factor depends on the time between samples. -/
def LowPass.outputs {σ : Type} [Blend ℝ σ] (factor : ℝ → ℝ) (filter : LowPass σ) :
    List (Feed σ) → List σ
  | [] => []
  | .sample dt x :: rest =>
    (filter.step x (factor dt)).1 :: outputs factor (filter.step x (factor dt)).2 rest
  | .reset :: rest => outputs factor empty rest

/-- The parameters when none are given. -/
noncomputable def OneEuroParams.exact : OneEuroParams ℝ := ⟨1, 0.5, 1⟩

/-- A one euro filter over the real numbers, with what it takes for the ratio of a circle. -/
structure ExactFilter (σ δ : Type) where
  moving : Moving ℝ δ σ
  params : OneEuroParams ℝ
  pi : ℝ

namespace ExactFilter

variable {σ δ : Type} (filter : ExactFilter σ δ) (state : OneEuro σ δ) {dt : ℝ} {x : σ}

noncomputable def smoothing (dt cutoff : ℝ) : ℝ :=
  @Signal.smoothing ℝ ℝ (.real filter.pi) dt cutoff

noncomputable def step (dt : ℝ) (x : σ) : σ × OneEuro σ δ :=
  @OneEuro.step ℝ ℝ σ δ (.real filter.pi) filter.moving filter.params state dt x

/-- The filter after an input. -/
noncomputable def feed (state : OneEuro σ δ) : Feed σ → OneEuro σ δ
  | .sample dt x => (filter.step state dt x).2
  | .reset => .empty

noncomputable def after (inputs : List (Feed σ)) : OneEuro σ δ := inputs.foldl filter.feed state

noncomputable def outputs (state : OneEuro σ δ) : List (Feed σ) → List σ
  | [] => []
  | .sample dt x :: rest => (filter.step state dt x).1 :: outputs (filter.step state dt x).2 rest
  | .reset :: rest => outputs .empty rest

/-- The rate of change that a sample brings, smoothed. -/
noncomputable def smoothedRate (dt : ℝ) (x : σ) : δ :=
  letI := filter.moving
  (state.rate.step (state.rawRate dt x) (filter.smoothing dt filter.params.rateCutoff)).1

noncomputable def smoothedSpeed (dt : ℝ) (x : σ) : ℝ :=
  filter.moving.speed (filter.smoothedRate state dt x)

/-- The smoothing factor that the value of a sample is filtered with. -/
noncomputable def factor (dt : ℝ) (x : σ) : ℝ :=
  filter.smoothing dt (filter.params.minCutoff + filter.params.beta * filter.smoothedSpeed state dt x)

/-- Parameters in their range, and speeds that are not negative. -/
structure Proper : Prop where
  pi_pos : 0 < filter.pi
  minCutoff_pos : 0 < filter.params.minCutoff
  beta_nonneg : 0 ≤ filter.params.beta
  rateCutoff_pos : 0 < filter.params.rateCutoff
  speed_nonneg : ∀ rate, 0 ≤ filter.moving.speed rate

theorem smoothing_eq (dt cutoff : ℝ) :
    filter.smoothing dt cutoff = 1 / (1 + 1 / (2 * filter.pi * cutoff) / dt) := by
  simp only [smoothing, Signal.smoothing, Scalar.ofNat_eq]
  push_cast
  rfl

theorem after_append_singleton (inputs : List (Feed σ)) (input : Feed σ) :
    filter.after state (inputs ++ [input]) = filter.feed (filter.after state inputs) input :=
  List.foldl_append

/-- The value is filtered by itself, with a factor that depends on the rate. -/
theorem step_value (dt : ℝ) (x : σ) :
    letI := filter.moving
    ((filter.step state dt x).1, (filter.step state dt x).2.value) =
      state.value.step x (filter.factor state dt x) := rfl

theorem last_step (dt : ℝ) (x : σ) :
    (filter.step state dt x).2.value.last = some (filter.step state dt x).1 := rfl

variable {state}

theorem step_of_none (h : state.value.last = none) (dt : ℝ) (x : σ) :
    (filter.step state dt x).1 = x := by
  have hvalue := congrArg Prod.fst (filter.step_value state dt x)
  simpa only [LowPass.step, h] using hvalue

theorem step_of_some {prev : σ} (h : state.value.last = some prev) (dt : ℝ) (x : σ) :
    (filter.step state dt x).1 = filter.moving.blend prev x (filter.factor state dt x) := by
  have hvalue := congrArg Prod.fst (filter.step_value state dt x)
  simpa only [LowPass.step, h] using hvalue

namespace Proper

variable {filter} (h : filter.Proper) {cutoff : ℝ}
include h

theorem smoothing_mem (hdt : 0 < dt) (hcutoff : 0 < cutoff) :
    filter.smoothing dt cutoff ∈ Set.Ioo 0 1 := by
  have hlag : 0 < 1 / (2 * filter.pi * cutoff) / dt :=
    div_pos (one_div_pos.mpr (mul_pos (mul_pos two_pos h.pi_pos) hcutoff)) hdt
  rw [smoothing_eq]
  exact ⟨one_div_pos.mpr (by linarith), (div_lt_one (by linarith)).mpr (by linarith)⟩

/-- A filter with a higher cutoff follows more closely. -/
theorem smoothing_strictMonoOn (hdt : 0 < dt) :
    StrictMonoOn (filter.smoothing dt) (Set.Ioi 0) := by
  intro low hlow high hhigh hlt
  have hscale : 0 < 2 * filter.pi := mul_pos two_pos h.pi_pos
  have hperiods : 1 / (2 * filter.pi * high) < 1 / (2 * filter.pi * low) :=
    one_div_lt_one_div_of_lt (mul_pos hscale hlow) (mul_lt_mul_of_pos_left hlt hscale)
  have hlags := div_lt_div_of_pos_right hperiods hdt
  have hlag : 0 < 1 / (2 * filter.pi * high) / dt :=
    div_pos (one_div_pos.mpr (mul_pos hscale hhigh)) hdt
  rw [smoothing_eq, smoothing_eq]
  exact one_div_lt_one_div_of_lt (by linarith) (by linarith)

theorem cutoff_ge (state : OneEuro σ δ) (dt : ℝ) (x : σ) : filter.params.minCutoff ≤
    filter.params.minCutoff + filter.params.beta * filter.smoothedSpeed state dt x :=
  le_add_of_nonneg_right (mul_nonneg h.beta_nonneg (h.speed_nonneg _))

theorem factor_mem (state : OneEuro σ δ) (hdt : 0 < dt) (x : σ) :
    filter.factor state dt x ∈ Set.Ioo 0 1 :=
  h.smoothing_mem hdt (h.minCutoff_pos.trans_le (h.cutoff_ge state dt x))

/-- A signal that moves is followed at least as closely as one at rest. -/
theorem smoothing_le_factor (state : OneEuro σ δ) (hdt : 0 < dt) (x : σ) :
    filter.smoothing dt filter.params.minCutoff ≤ filter.factor state dt x :=
  (h.smoothing_strictMonoOn hdt).monotoneOn h.minCutoff_pos
    (h.minCutoff_pos.trans_le (h.cutoff_ge state dt x)) (h.cutoff_ge state dt x)

theorem factor_eq_iff (hbeta : 0 < filter.params.beta) (hdt : 0 < dt) (state state' : OneEuro σ δ)
    (x x' : σ) : filter.factor state dt x = filter.factor state' dt x' ↔
      filter.smoothedSpeed state dt x = filter.smoothedSpeed state' dt x' := by
  have hpos (state : OneEuro σ δ) (x : σ) := h.minCutoff_pos.trans_le (h.cutoff_ge state dt x)
  rw [factor, factor,
    (h.smoothing_strictMonoOn hdt).injOn.eq_iff (hpos state x) (hpos state' x'), add_right_inj,
    mul_right_inj' hbeta.ne']

end Proper

end ExactFilter

end HeadsetStream.Signal
