import HeadsetStream.Number.Scalar

/-!
# Low-pass filters

An exponential low-pass filter mixes each sample into its last output by a smoothing factor; its
first sample passes unchanged. `smoothing` is the factor of a filter with a given cutoff frequency.
-/

namespace HeadsetStream.Signal
open Number

/-- Signals that can be mixed: `blend prev x s` is `prev` for `s = 0` and `x` for `s = 1`. -/
class Blend (α : outParam Type) (σ : Type) where
  blend : (prev x : σ) → α → σ

/-- The last output of a low-pass filter, if it has had a sample. -/
structure LowPass (σ : Type) where
  last : Option σ := none
  deriving Repr, Inhabited

namespace LowPass

variable {α σ : Type} [Blend α σ]

def empty : LowPass σ := {}

/-- The output for a sample, and the filter after it. -/
def step (filter : LowPass σ) (x : σ) (s : α) : σ × LowPass σ :=
  let out := match filter.last with
    | some prev => Blend.blend prev x s
    | none => x
  (out, ⟨some out⟩)

@[simp] theorem step_empty (x : σ) (s : α) : (empty : LowPass σ).step x s = (x, ⟨some x⟩) := rfl

@[simp] theorem step_some (prev x : σ) (s : α) :
    (LowPass.mk (some prev)).step x s =
      (Blend.blend prev x s, ⟨some (Blend.blend prev x s)⟩) := rfl

@[simp] theorem last_step (filter : LowPass σ) (x : σ) (s : α) :
    (filter.step x s).2.last = some (filter.step x s).1 := rfl

end LowPass

/-- Smoothing factor of a low-pass filter with this cutoff in hertz, for samples `dt` seconds
apart. The time constant is worked out in the wide scalar. -/
def smoothing {α β : Type} [Precise α β] (dt cutoff : α) : α :=
  let tau : α := Precise.narrow (1 / (2 * Precise.pi α * Precise.widen cutoff) : β)
  1 / (1 + tau / dt)

end HeadsetStream.Signal
