import HeadsetStream.Signal.OneEuro
import HeadsetStream.Geometry.Pose

/-!
# Filtering poses

A pose is filtered as two independent signals, each with its own parameters: rotation speeds are in
radians per second and position speeds in meters per second.
-/

namespace HeadsetStream.Signal
open HeadsetStream.Geometry

/-- Parameters of a one euro filter when none are given. -/
def OneEuroParams.standard : OneEuroParams Float32 := ⟨1, 0.5, 1⟩

structure PoseFilterParams where
  rotation : OneEuroParams Float32 := .standard
  position : OneEuroParams Float32 := .standard
  deriving DecidableEq, Repr, Inhabited

/-- The filters of one tracked device. -/
structure PoseFilter where
  rotation : OneEuro (Quat Float32) (Quat Float32) := {}
  position : OneEuro (Vec3 Float32) (Vec3 Float32) := {}
  deriving Repr, Inhabited

namespace PoseFilter

def empty : PoseFilter := {}

/-- The filtered pose, and the filters after it. -/
def step (params : PoseFilterParams) (filter : PoseFilter) (dt : Float32) (pose : Pose) :
    Pose × PoseFilter :=
  let (orientation, rotation) := filter.rotation.step params.rotation dt pose.orientation
  let (position, positionFilter) := filter.position.step params.position dt pose.position
  (⟨position, orientation⟩, ⟨rotation, positionFilter⟩)

@[simp] theorem step_empty (params : PoseFilterParams) (dt : Float32) (pose : Pose) :
    ((empty : PoseFilter).step params dt pose).1 = pose := rfl

end PoseFilter

end HeadsetStream.Signal
