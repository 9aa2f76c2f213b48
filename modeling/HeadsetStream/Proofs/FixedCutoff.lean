import HeadsetStream.Proofs.ExactFilters

/-!
# A cutoff that does not rise with the speed

A one euro filter whose cutoff does not depend on the speed is a plain low-pass filter. It still
measures and smooths the rate of change at every step, but nothing of that reaches an output.
-/

namespace HeadsetStream.Signal
open Number HeadsetStream.Geometry

namespace ExactFilter

section

variable {σ δ : Type} {filter : ExactFilter σ δ} (hbeta : filter.params.beta = 0)
include hbeta

private theorem factor_of_beta_zero (state : OneEuro σ δ) (dt : ℝ) (x : σ) :
    filter.factor state dt x = filter.smoothing dt filter.params.minCutoff := by
  rw [factor, hbeta, zero_mul, add_zero]

/-- The value goes through the steps of the plain filter, whatever the rate does. -/
theorem outputs_of_beta_zero (state : OneEuro σ δ) (inputs : List (Feed σ)) :
    filter.outputs state inputs =
      @LowPass.outputs σ filter.moving.toBlend (filter.smoothing · filter.params.minCutoff)
        state.value inputs := by
  let := filter.moving
  induction inputs generalizing state with
  | nil => rfl
  | cons input rest ih =>
    cases input with
    | sample dt x =>
      have hvalue := filter.step_value state dt x
      rw [factor_of_beta_zero hbeta] at hvalue
      obtain ⟨hout, hafter⟩ := Prod.ext_iff.mp hvalue
      rw [outputs, LowPass.outputs, ih]
      exact congrArg₂ _ hout (congrArg (LowPass.outputs _ · rest) hafter)
    | reset => exact ih .empty

end

/-- If the cutoff does not rise with the speed, the outputs are those of a plain low-pass filter
with that cutoff and the same last output. Another filter of this kind that mixes samples in the
same way puts out the same, however it measures rates and speeds and whatever its cutoff for the
rate. -/
theorem outputs_eq_lowPass {σ δ : Type} {filter : ExactFilter σ δ} (hbeta : filter.params.beta = 0)
    (state : OneEuro σ δ) (inputs : List (Feed σ)) :
    filter.outputs state inputs =
        @LowPass.outputs σ filter.moving.toBlend (filter.smoothing · filter.params.minCutoff)
          state.value inputs ∧
      ∀ (δ' : Type) (moving : Moving ℝ δ' σ) (rateCutoff : ℝ) (state' : OneEuro σ δ'),
        moving.toBlend = filter.moving.toBlend → state'.value = state.value →
          (ExactFilter.mk moving { filter.params with rateCutoff } filter.pi).outputs state' inputs =
            filter.outputs state inputs := by
  have hplain := outputs_of_beta_zero hbeta state inputs
  refine ⟨hplain, ?_⟩
  intro δ' moving rateCutoff state' hblend hvalue
  let other : ExactFilter σ δ' := ⟨moving, { filter.params with rateCutoff }, filter.pi⟩
  have hother : other.params.beta = 0 := hbeta
  rw [hplain, outputs_of_beta_zero hother, hblend, hvalue]
  rfl

/-- A rotation that is sampled, reset and sampled again. -/
theorem rotation_outputs_eq_lowPass :
    let filter : ExactFilter (Quat ℝ) (Quat ℝ) := ⟨@Quat.instMoving ℝ .real, ⟨2, 0, 1⟩, Real.pi⟩
    let inputs : List (Feed (Quat ℝ)) := [.sample (1 / 90) ⟨0, 0, 0, 1⟩,
      .sample (1 / 90) ⟨0, 3 / 5, 0, 4 / 5⟩, .reset, .sample (1 / 90) ⟨0, 0, 1, 0⟩]
    filter.params.beta = 0 ∧
      filter.outputs .empty inputs =
        @LowPass.outputs _ (@Quat.instBlend ℝ .real) (filter.smoothing · 2) .empty inputs := by
  intro filter inputs
  have hbeta : filter.params.beta = 0 := rfl
  exact ⟨hbeta, (outputs_eq_lowPass hbeta .empty inputs).1⟩

end ExactFilter

end HeadsetStream.Signal
