import HeadsetStream.Geometry.Pose
import HeadsetStream.Number.Decimal

/-!
# The record of a sent view

Each view that is sent is put on record: the distance of the eyes in millimeters and the fields of
view in degrees, with two places.
-/

namespace HeadsetStream.Tracking
open HeadsetStream.Geometry Number

/-- An angle in degrees. -/
def degrees (radians : Float32) : Float32 := radians * 57.29577951308232

def degreesText (radians : Float32) : String := fixedText 2 (degrees radians)

def fovText (fov : EyeFov) : String :=
  "\x7b left: " ++ degreesText fov.left ++ ", right: " ++ degreesText fov.right ++ ", top: " ++
    degreesText fov.top ++ ", bottom: " ++ degreesText fov.bottom ++ " \x7d"

structure ViewRecord where
  ipdMillimeters : Float32
  leftEye : String
  rightEye : String
  deriving DecidableEq, Repr, Inhabited

def ViewRecord.of (view : EyeInfo) : ViewRecord :=
  ⟨view.ipd * 1000, fovText view.leftEye, fovText view.rightEye⟩

end HeadsetStream.Tracking
