import HeadsetStream.Foveation.Warp
import HeadsetStream.Geometry.Pose
import HeadsetStream.Video.Image
import HeadsetStream.Wire.Packet

/-!
# What the client tells its surroundings

The client acts on the headset, the server, the latency figures and the decoder by telling them what
to do. An operation is a pure function: its outcome is a value together with the notices it gave, in
the order it gave them. How the surroundings take a notice is for them to say.
-/

namespace HeadsetStream
open HeadsetStream.Geometry Video

/-- What the headset shows: its own scene, or the video. -/
inductive RenderMode where
  | lobby
  | video
  deriving DecidableEq, Repr, Inhabited

/-- The marks on a buffer that is submitted to a decoder. -/
structure BufferFlags where
  keyframe : Bool := false
  configuration : Bool := false
  deriving DecidableEq, Repr, Inhabited

inductive Notice where
  /-- To the headset: what to show from now on. -/
  | renderMode (mode : RenderMode)
  /-- To the headset: read the controls. -/
  | poll
  /-- To the headset: take a tracking sample, looking ahead if `prediction`. -/
  | sample (prediction : Bool)
  /-- To the headset: draw a frame. -/
  | render
  /-- To the graphics device: an image to show. -/
  | image (image : DecodedImage)
  /-- To the graphics device: forget all images. -/
  | clear
  /-- To the graphics device: how to undo foveation, if there is any. -/
  | foveation (params : Option (Foveation.DecodeParams Float32))
  /-- To the server: the next frame should be a keyframe. -/
  | requestKeyframe
  | tracking (info : TrackingInfo)
  | view (eyes : EyeInfo)
  | timeSync (sync : Wire.TimeSync)
  /-- Whether a keyframe is asked for and not yet here. -/
  | waiting (value : Bool)
  /-- To the latency figures: a frame goes into the decoder. -/
  | decoderInput (frame : FrameIndex)
  /-- To the latency figures: a frame comes out of the decoder. -/
  | decoderOutput (frame : FrameIndex)
  /-- To the decoder's session: how large is an input buffer? -/
  | inputCapacity (buffer : Nat)
  /-- To the decoder's session: decode a buffer. -/
  | submit (buffer : Nat) (data : Bytes) (pts : Nat) (flags : BufferFlags)
  /-- To the decoder's session: an output buffer is free again. -/
  | release (buffer : Nat) (render : Bool)
  deriving DecidableEq, Repr

/-- A value and the notices given on the way to it. -/
structure Outcome (α : Type) where
  value : α
  notices : List Notice := []
  deriving Repr

namespace Outcome

variable {α β : Type}

instance : Monad Outcome where
  pure a := ⟨a, []⟩
  bind x f := ⟨(f x.value).value, x.notices ++ (f x.value).notices⟩

/-- Gives one notice. -/
def say (notice : Notice) : Outcome Unit := ⟨(), [notice]⟩

/-- Gives a notice to someone who may not be there. -/
def sayIf (there : Bool) (notice : Notice) : Outcome Unit :=
  if there then say notice else pure ()

@[simp] theorem value_pure (a : α) : (pure a : Outcome α).value = a := rfl

@[simp] theorem notices_pure (a : α) : (pure a : Outcome α).notices = [] := rfl

@[simp] theorem value_bind (x : Outcome α) (f : α → Outcome β) :
    (x >>= f).value = (f x.value).value := rfl

@[simp] theorem notices_bind (x : Outcome α) (f : α → Outcome β) :
    (x >>= f).notices = x.notices ++ (f x.value).notices := rfl

@[simp] theorem notices_say (notice : Notice) : (say notice).notices = [notice] := rfl

@[simp] theorem notices_sayIf (there : Bool) (notice : Notice) :
    (sayIf there notice).notices = if there then [notice] else [] := by
  cases there <;> rfl

end Outcome

end HeadsetStream
