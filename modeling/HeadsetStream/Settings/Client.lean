import HeadsetStream.Settings.Stream
import HeadsetStream.Signal.PoseFilter

/-!
# Settings of the client

What a configuration file can set. Everything has a default; the settings of the stream are made
from those of the client.
-/

namespace HeadsetStream.Settings
open Signal

/-- The decoders that the client can be told to use. -/
inductive Backend where
  /-- Decodes nothing, but hands an image on for every packet. -/
  | loopback
  | gstreamer
  deriving DecidableEq, Repr, Inhabited

namespace Backend

/-- The name that settings have for a decoder. -/
def name : Backend → String
  | .loopback => "loopback"
  | .gstreamer => "gstreamer"

/-- The decoder of a name. -/
def ofName? : String → Option Backend
  | "loopback" => some .loopback
  | "gstreamer" => some .gstreamer
  | _ => none

@[simp] theorem ofName?_name (backend : Backend) : ofName? backend.name = some backend := by
  cases backend <;> rfl

/-- The name that log records have for a decoder. -/
def label : Backend → String
  | .loopback => "Loopback"
  | .gstreamer => "GStreamer"

end Backend

/-- Foveation as a file sets it: the numbers have effect only if it is enabled. -/
structure FoveationSettings where
  enabled : Bool := false
  centerSizeX : Float32 := standardFoveation.centerSize.x
  centerSizeY : Float32 := standardFoveation.centerSize.y
  centerShiftX : Float32 := standardFoveation.centerShift.x
  centerShiftY : Float32 := standardFoveation.centerShift.y
  edgeRatioX : Float32 := standardFoveation.edgeRatio.x
  edgeRatioY : Float32 := standardFoveation.edgeRatio.y
  deriving DecidableEq, Repr, Inhabited

/-- The foveation asked for, if any. -/
def FoveationSettings.config? (s : FoveationSettings) : Option (Foveation.Config Float32) :=
  if s.enabled then
    some ⟨⟨s.centerSizeX, s.centerSizeY⟩, ⟨s.centerShiftX, s.centerShiftY⟩,
      ⟨s.edgeRatioX, s.edgeRatioY⟩⟩
  else none

structure ClientSettings where
  codec : Bitstream.Codec := .h264
  backend : Backend := .loopback
  realtimePriority : Bool := true
  foveation : FoveationSettings := {}
  eyeWidth : Nat := 1440
  eyeHeight : Nat := 1584
  refreshRate : Float32 := 90
  clientPrediction : Bool := false
  decoderOptions : DecoderOptions := {}
  frameIndexCapacity : Nat := 4096
  poseFilter : PoseFilterParams := {}
  verbose : Bool := false
  deriving DecidableEq, Repr, Inhabited

/-- What is wrong with the settings of a client. -/
inductive SettingsError where
  | noFrameIndices
  | render (error : RenderError)
  deriving DecidableEq, Repr

def SettingsError.message : SettingsError → String
  | .noFrameIndices => "frame_index_capacity must be non-zero"
  | .render error => "invalid render configuration: " ++ error.message

namespace ClientSettings

/-- The settings of the stream that the client asks for. -/
def stream (client : ClientSettings) : StreamSettings where
  render :=
    { eyeWidth := client.eyeWidth
      eyeHeight := client.eyeHeight
      refreshRate := client.refreshRate
      foveation := client.foveation.config? }
  decoder :=
    { codec := client.codec
      realtimePriority := client.realtimePriority
      options := client.decoderOptions
      frameIndexCapacity := client.frameIndexCapacity }
  clientPrediction := client.clientPrediction

/-- Accepts settings, or says what is wrong with them first. -/
def check (client : ClientSettings) : Except SettingsError Unit :=
  if client.frameIndexCapacity = 0 then .error .noFrameIndices
  else client.stream.render.check.mapError .render

end ClientSettings

end HeadsetStream.Settings
