import HeadsetStream.Notice
import HeadsetStream.Number.Single
import HeadsetStream.Video.TextureRing

/-!
# A headset without hardware

A headset for trials: its graphics device only keeps the images it is given, and its tracking
follows a script. The head sways and turns slowly, and the hands stay in front of it.
-/

namespace HeadsetStream.Headset
open HeadsetStream.Geometry Video

/-- The fields of view and the distance of the eyes when no one has adjusted the headset. -/
def standardView : EyeInfo :=
  ⟨⟨-0.942, 0.698, 0.768, -0.855⟩, ⟨-0.698, 0.942, 0.768, -0.855⟩, 0.064⟩

/-- How far ahead a sample looks, in microseconds: one frame at 90 hertz. -/
def lookahead : Nat := 11111

/-- The head's pose after `t` seconds. -/
def headAt (t : Float32) : Pose :=
  ⟨⟨0.05 * (t * 0.5).sin, 1.6, 0.02 * t.cos⟩, .aroundY (0.3 * (t * 0.25).sin)⟩

/-- The pose of a hand beside the head: to the left for `-1`, to the right for `1`. -/
def handBeside (head : Pose) (side : Float32) : Pose :=
  ⟨head.position + ⟨0.2 * side, -0.4, -0.3⟩, head.orientation⟩

/-- The tracking sample at a time in microseconds. -/
def trackingAt (now : Nat) (prediction : Bool) : TrackingInfo :=
  let target := if prediction then now + lookahead else now
  let head := headAt (Float32.ofNat target * 1e-6)
  ⟨target, head, some (handBeside head (-1)), some (handBeside head 1)⟩

structure Simulated where
  mode : RenderMode := .lobby
  view : EyeInfo := standardView
  /-- How often the controls were read. -/
  polls : Nat := 0
  textures : TextureRing := {}
  /-- How many images came. -/
  images : Nat := 0
  foveation : Option (Foveation.DecodeParams Float32) := none
  deriving Inhabited

namespace Simulated

/-- The headset once a notice was given. -/
def observe (headset : Simulated) : Notice → Simulated
  | .renderMode mode => { headset with mode }
  | .poll => { headset with polls := headset.polls + 1 }
  | .image image =>
    { headset with textures := headset.textures.update image, images := headset.images + 1 }
  | .clear => { headset with textures := headset.textures.clear }
  | .foveation params => { headset with foveation := params }
  | _ => headset

/-- The headset once all of these notices were given. -/
def observeAll (headset : Simulated) (notices : List Notice) : Simulated :=
  notices.foldl observe headset

/-- The frame that a render shows: none in the lobby. -/
def shown (headset : Simulated) : Option FrameIndex :=
  match headset.mode with
  | .lobby => none
  | .video => headset.textures.frame

end Simulated

end HeadsetStream.Headset
