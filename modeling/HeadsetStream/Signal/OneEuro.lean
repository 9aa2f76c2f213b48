import HeadsetStream.Signal.LowPass
import HeadsetStream.Geometry.Rotation

/-!
# The one euro filter

A low-pass filter whose cutoff rises with the speed of the signal: slow motion is smoothed hard,
fast motion follows closely. The speed is that of the step from the last output to the new sample,
itself smoothed by a low-pass filter. Positions and rotations are such signals.
-/

namespace HeadsetStream.Signal
open Number HeadsetStream.Geometry

/-- Signals with a rate of change that can be smoothed and measured. -/
class Moving (α δ : outParam Type) (σ : Type) extends Blend α σ where
  blendRate : Blend α δ
  /-- The rate of a signal that stands still. -/
  still : δ
  rate : (prev x : σ) → (dt : α) → δ
  speed : δ → α

attribute [reducible, instance] Moving.blendRate

section Vec3

variable {α : Type}

instance Vec3.instBlend [Scalar α] : Blend α (Vec3 α) where
  blend prev x s := x.scale s + prev.scale (1 - s)

instance Vec3.instMoving [Rooted α] : Moving α (Vec3 α) (Vec3 α) where
  blendRate := inferInstance
  still := .zero
  rate prev x dt := (x - prev).scale (1 / dt)
  speed := Vec3.length

end Vec3

section Quat

variable {α : Type} [Angular α]

instance Quat.instBlend : Blend α (Quat α) where
  blend := Quat.slerp

/-- The rate of a rotation is the turn it would make in one second, taken in a straight line from
the identity and brought to length one. Its speed is the angle of that turn. -/
instance Quat.instMoving : Moving α (Quat α) (Quat α) where
  blendRate := inferInstance
  still := .identity
  rate prev x dt :=
    let perSecond := 1 / dt
    let turn := x * prev.inverse
    (Quat.mk (turn.x * perSecond) (turn.y * perSecond) (turn.z * perSecond)
      (turn.w * perSecond + (1 - perSecond))).normalize
  speed turn := 2 * Angular.acos (clamp turn.w (-1) 1)

end Quat

/-- Cutoff frequencies, in hertz, for the value at rest and for the speed, and how much the cutoff
rises with the speed. -/
structure OneEuroParams (α : Type) where
  minCutoff : α
  beta : α
  rateCutoff : α
  deriving DecidableEq, Repr, Inhabited

/-- The two low-pass filters of a one euro filter. -/
structure OneEuro (σ δ : Type) where
  value : LowPass σ := {}
  rate : LowPass δ := {}
  deriving Repr, Inhabited

namespace OneEuro

variable {α β σ δ : Type} [Precise α β] [Moving α δ σ]

def empty : OneEuro σ δ := {}

/-- The rate of change that a sample brings, before it is smoothed. -/
def rawRate (filter : OneEuro σ δ) (dt : α) (x : σ) : δ :=
  match filter.value.last with
  | some prev => Moving.rate prev x dt
  | none => Moving.still σ

/-- The cutoff for the value at a smoothed rate of change. -/
def cutoff (σ : Type) [Moving α δ σ] (params : OneEuroParams α) (rate : δ) : α :=
  params.minCutoff + params.beta * Moving.speed σ rate

/-- The output for a sample taken `dt` seconds after the one before it, and the filter after it. -/
def step (params : OneEuroParams α) (filter : OneEuro σ δ) (dt : α) (x : σ) : σ × OneEuro σ δ :=
  let (rate, rateFilter) :=
    filter.rate.step (filter.rawRate dt x) (smoothing dt params.rateCutoff)
  let (out, valueFilter) :=
    filter.value.step x (smoothing dt (cutoff σ params rate))
  (out, ⟨valueFilter, rateFilter⟩)

end OneEuro

end HeadsetStream.Signal
