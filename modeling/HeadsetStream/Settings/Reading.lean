import HeadsetStream.Json.Reader
import HeadsetStream.Json.Record
import HeadsetStream.Json.Scalar
import HeadsetStream.Settings.Client

/-!
# Reading settings from JSON

One reader for each type of the settings and of tracking data. A record whose fields have defaults
takes them for what is not given; of any other record all fields have to be given.
`ClientSettings.ofFile` reads and checks a configuration file.
-/

namespace HeadsetStream.Settings
open Json HeadsetStream.Geometry Signal

namespace Reading

def codec (value : Value) : Option Bitstream.Codec :=
  value.choice?.bind Bitstream.Codec.ofName?

def backend (value : Value) : Option Backend :=
  value.choice?.bind Backend.ofName?

def vec2 (value : Value) : Option (Vec2 Float32) := do
  match ← (← value.items? 2).mapM Value.single? with
  | [x, y] => return ⟨x, y⟩
  | _ => none

def vec3 (value : Value) : Option (Vec3 Float32) := do
  match ← (← value.items? 3).mapM Value.single? with
  | [x, y, z] => return ⟨x, y, z⟩
  | _ => none

def quat (value : Value) : Option (Quat Float32) := do
  match ← (← value.items? 4).mapM Value.single? with
  | [x, y, z, w] => return ⟨x, y, z, w⟩
  | _ => none

def pose (value : Value) : Option Pose := do
  let record ← Record.of? ["position", "orientation"] value
  return {
    position := ← record.get? "position" vec3
    orientation := ← record.get? "orientation" quat }

def eyeFov (value : Value) : Option EyeFov := do
  let record ← Record.of? ["left", "right", "top", "bottom"] value
  return {
    left := ← record.get? "left" Value.single?
    right := ← record.get? "right" Value.single?
    top := ← record.get? "top" Value.single?
    bottom := ← record.get? "bottom" Value.single? }

def eyes (value : Value) : Option (EyeFov × EyeFov) := do
  match ← (← value.items? 2).mapM eyeFov with
  | [left, right] => return (left, right)
  | _ => none

def eyeInfo (value : Value) : Option EyeInfo := do
  let record ← Record.of? ["eye_fov", "ipd"] value
  let (left, right) ← record.get? "eye_fov" eyes
  return ⟨left, right, ← record.get? "ipd" Value.single?⟩

def hands (value : Value) : Option (Option Pose × Option Pose) := do
  match ← (← value.items? 2).mapM (Value.orNull? pose) with
  | [left, right] => return (left, right)
  | _ => none

def trackingInfo (value : Value) : Option TrackingInfo := do
  let record ← Record.of? ["target_timestamp_us", "head", "hands"] value
  let targetTime ← record.get? "target_timestamp_us" (Value.natBelow? 64)
  let head ← record.get? "head" pose
  let (left, right) ← record.get? "hands" hands
  return ⟨targetTime, head, left, right⟩

def oneEuroParams (value : Value) : Option (OneEuroParams Float32) := do
  let base := OneEuroParams.standard
  let record ← Record.of? ["min_cutoff", "beta", "derivative_cutoff"] value
  return {
    minCutoff := ← record.getD? "min_cutoff" Value.single? base.minCutoff
    beta := ← record.getD? "beta" Value.single? base.beta
    rateCutoff := ← record.getD? "derivative_cutoff" Value.single? base.rateCutoff }

def poseFilterParams (value : Value) : Option PoseFilterParams := do
  let base : PoseFilterParams := {}
  let record ← Record.of? ["rotation", "position"] value
  return {
    rotation := ← record.getD? "rotation" oneEuroParams base.rotation
    position := ← record.getD? "position" oneEuroParams base.position }

def foveationConfig (value : Value) : Option (Foveation.Config Float32) := do
  let record ← Record.of? ["center_size", "center_shift", "edge_ratio"] value
  return {
    centerSize := ← record.get? "center_size" vec2
    centerShift := ← record.get? "center_shift" vec2
    edgeRatio := ← record.get? "edge_ratio" vec2 }

def foveationSettings (value : Value) : Option FoveationSettings := do
  let base : FoveationSettings := {}
  let record ← Record.of? ["enabled", "center_size_x", "center_size_y", "center_shift_x",
    "center_shift_y", "edge_ratio_x", "edge_ratio_y"] value
  return {
    enabled := ← record.getD? "enabled" Value.bool? base.enabled
    centerSizeX := ← record.getD? "center_size_x" Value.single? base.centerSizeX
    centerSizeY := ← record.getD? "center_size_y" Value.single? base.centerSizeY
    centerShiftX := ← record.getD? "center_shift_x" Value.single? base.centerShiftX
    centerShiftY := ← record.getD? "center_shift_y" Value.single? base.centerShiftY
    edgeRatioX := ← record.getD? "edge_ratio_x" Value.single? base.edgeRatioX
    edgeRatioY := ← record.getD? "edge_ratio_y" Value.single? base.edgeRatioY }

def renderSettings (value : Value) : Option RenderSettings := do
  let record ← Record.of? ["eye_width", "eye_height", "refresh_rate", "foveation"] value
  return {
    eyeWidth := ← record.get? "eye_width" (Value.natBelow? 32)
    eyeHeight := ← record.get? "eye_height" (Value.natBelow? 32)
    refreshRate := ← record.get? "refresh_rate" Value.single?
    foveation := ← record.getNullable? "foveation" foveationConfig }

/-- A table whose entries may come in any order. -/
def table {α : Type} (read : Value → Option α) (value : Value) : Option (Table α) :=
  (value.entries? read).map Table.ofList

def decoderOptions (value : Value) : Option DecoderOptions := do
  let base : DecoderOptions := {}
  let record ← Record.of? ["string", "float", "int64", "int32"] value
  return {
    string := ← record.getD? "string" (table Value.text?) base.string
    float := ← record.getD? "float" (table Value.single?) base.float
    int64 := ← record.getD? "int64" (table (Value.signed? 64)) base.int64
    int32 := ← record.getD? "int32" (table (Value.signed? 32)) base.int32 }

def decoderSettings (value : Value) : Option DecoderSettings := do
  let record ← Record.of? ["codec", "realtime_priority", "options", "frame_index_capacity"] value
  return {
    codec := ← record.get? "codec" codec
    realtimePriority := ← record.get? "realtime_priority" Value.bool?
    options := ← record.get? "options" decoderOptions
    frameIndexCapacity := ← record.get? "frame_index_capacity" (Value.natBelow? 64) }

def streamSettings (value : Value) : Option StreamSettings := do
  let record ← Record.of? ["render", "decoder", "client_prediction"] value
  return {
    render := ← record.get? "render" renderSettings
    decoder := ← record.get? "decoder" decoderSettings
    clientPrediction := ← record.get? "client_prediction" Value.bool? }

def clientSettings (value : Value) : Option ClientSettings := do
  let base : ClientSettings := {}
  let record ← Record.of? ["codec", "backend", "realtime_priority", "foveation", "eye_width",
    "eye_height", "refresh_rate", "client_prediction", "decoder_options", "frame_index_capacity",
    "pose_filter", "verbose"] value
  return {
    codec := ← record.getD? "codec" codec base.codec
    backend := ← record.getD? "backend" backend base.backend
    realtimePriority := ← record.getD? "realtime_priority" Value.bool? base.realtimePriority
    foveation := ← record.getD? "foveation" foveationSettings base.foveation
    eyeWidth := ← record.getD? "eye_width" (Value.natBelow? 32) base.eyeWidth
    eyeHeight := ← record.getD? "eye_height" (Value.natBelow? 32) base.eyeHeight
    refreshRate := ← record.getD? "refresh_rate" Value.single? base.refreshRate
    clientPrediction := ← record.getD? "client_prediction" Value.bool? base.clientPrediction
    decoderOptions := ← record.getD? "decoder_options" decoderOptions base.decoderOptions
    frameIndexCapacity :=
      ← record.getD? "frame_index_capacity" (Value.natBelow? 64) base.frameIndexCapacity
    poseFilter := ← record.getD? "pose_filter" poseFilterParams base.poseFilter
    verbose := ← record.getD? "verbose" Value.bool? base.verbose }

end Reading

/-- Why a configuration file gives no settings. -/
inductive LoadError where
  | unreadable
  | malformed
  | invalid (error : SettingsError)
  deriving DecidableEq, Repr

namespace ClientSettings

/-- The settings that a text writes. -/
def ofText? (text : String) : Option ClientSettings :=
  (Value.ofText text).bind Reading.clientSettings

/-- Reads and checks the content of a configuration file, if there is such a file. -/
def ofFile (content : Option ByteArray) : Except LoadError ClientSettings :=
  match content.bind String.fromUTF8? with
  | none => .error .unreadable
  | some text =>
    match ofText? text with
    | none => .error .malformed
    | some settings =>
      match settings.check with
      | .ok () => .ok settings
      | .error error => .error (.invalid error)

end ClientSettings

end HeadsetStream.Settings
