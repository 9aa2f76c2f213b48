import HeadsetStream.Geometry.Rotation
import HeadsetStream.Number.Single

/-!
# Where devices are and what the eyes see

A tracking sample holds the pose of the head and of each hand that is tracked, at a time in
microseconds. The view of a headset is the field of view of each eye and the distance between them.
-/

namespace HeadsetStream.Geometry

structure Pose where
  position : Vec3 Float32
  orientation : Quat Float32
  deriving DecidableEq, Repr, Inhabited

def Pose.identity : Pose := ⟨.zero, .identity⟩

/-- Angles, in radians, from straight ahead to the edges of an eye's field of view. -/
structure EyeFov where
  left : Float32
  right : Float32
  top : Float32
  bottom : Float32
  deriving DecidableEq, Repr, Inhabited

/-- The fields of view of the left and the right eye, and the distance of the eyes in meters. -/
structure EyeInfo where
  leftEye : EyeFov
  rightEye : EyeFov
  ipd : Float32
  deriving DecidableEq, Repr, Inhabited

namespace EyeInfo

def zero : EyeInfo := ⟨⟨0, 0, 0, 0⟩, ⟨0, 0, 0, 0⟩, 0⟩

/-- Whether two views are more than `threshold` apart in what a headset adjusts while it is worn:
the distance of the eyes and each eye's left angle. -/
def differsFrom (a b : EyeInfo) (threshold : Float32) : Bool :=
  threshold < (a.ipd - b.ipd).abs ||
  threshold < (a.leftEye.left - b.leftEye.left).abs ||
  threshold < (a.rightEye.left - b.rightEye.left).abs

end EyeInfo

/-- A sample of the tracked devices; a hand that is not tracked has no pose. -/
structure TrackingInfo where
  targetTime : Nat
  head : Pose
  leftHand : Option Pose
  rightHand : Option Pose
  deriving DecidableEq, Repr, Inhabited

end HeadsetStream.Geometry
