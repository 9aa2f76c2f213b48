import HeadsetStream.Json.Value
import HeadsetStream.Number.Decimal
import HeadsetStream.Settings.Client

/-!
# Writing settings as JSON

One writer for each type that `Reading` has a reader for: a record is an object with all its fields,
and a choice is its name. A number of single precision is written with the fewest digits that read
back as it, always as a fraction; one that is not finite is written as null.
-/

namespace HeadsetStream.Settings
open Json Number HeadsetStream.Geometry Signal

namespace Writing

/-- An object with these fields. -/
def record (fields : List (String × Value)) : Value :=
  .object (fields.map fun (name, value) => (some name, value))

def text (s : String) : Value := .string (some s)

/-- A whole number. -/
def integer (i : Int) : Value := .number ⟨i < 0, i.natAbs, 0, true⟩

def single (x : Float32) : Value :=
  match Exact.of x with
  | .finite negative m e =>
    let digits := Decimal.shortest m e
    .number ⟨negative, digits.coefficient, digits.exponent, false⟩
  | _ => .null

/-- A value, or null for none. -/
def orNull {α : Type} (write : α → Value) : Option α → Value
  | some value => write value
  | none => .null

/-- The fields of a record whose values are of single precision. -/
def singles (fields : List (String × Float32)) : List (String × Value) :=
  fields.map fun (name, x) => (name, single x)

def codec (c : Bitstream.Codec) : Value := text c.name

def backend (b : Backend) : Value := text b.name

def vec2 (v : Vec2 Float32) : Value := .array [single v.x, single v.y]

def vec3 (v : Vec3 Float32) : Value := .array [single v.x, single v.y, single v.z]

def quat (q : Quat Float32) : Value := .array [single q.x, single q.y, single q.z, single q.w]

def pose (p : Pose) : Value :=
  record [("position", vec3 p.position), ("orientation", quat p.orientation)]

def eyeFov (f : EyeFov) : Value :=
  record (singles [("left", f.left), ("right", f.right), ("top", f.top), ("bottom", f.bottom)])

def eyeInfo (view : EyeInfo) : Value :=
  record [("eye_fov", .array [eyeFov view.leftEye, eyeFov view.rightEye]), ("ipd", single view.ipd)]

def trackingInfo (info : TrackingInfo) : Value :=
  record [("target_timestamp_us", integer info.targetTime), ("head", pose info.head),
    ("hands", .array [orNull pose info.leftHand, orNull pose info.rightHand])]

def oneEuroParams (p : OneEuroParams Float32) : Value :=
  record (singles [("min_cutoff", p.minCutoff), ("beta", p.beta),
    ("derivative_cutoff", p.rateCutoff)])

def poseFilterParams (p : PoseFilterParams) : Value :=
  record [("rotation", oneEuroParams p.rotation), ("position", oneEuroParams p.position)]

def foveationConfig (c : Foveation.Config Float32) : Value :=
  record [("center_size", vec2 c.centerSize), ("center_shift", vec2 c.centerShift),
    ("edge_ratio", vec2 c.edgeRatio)]

def foveationSettings (s : FoveationSettings) : Value :=
  record (("enabled", .bool s.enabled) :: singles [("center_size_x", s.centerSizeX),
    ("center_size_y", s.centerSizeY), ("center_shift_x", s.centerShiftX),
    ("center_shift_y", s.centerShiftY), ("edge_ratio_x", s.edgeRatioX),
    ("edge_ratio_y", s.edgeRatioY)])

def renderSettings (s : RenderSettings) : Value :=
  record [("eye_width", integer s.eyeWidth), ("eye_height", integer s.eyeHeight),
    ("refresh_rate", single s.refreshRate), ("foveation", orNull foveationConfig s.foveation)]

def table {α : Type} (write : α → Value) (t : Table α) : Value :=
  record (t.entries.map fun (key, value) => (key, write value))

def decoderOptions (o : DecoderOptions) : Value :=
  record [("string", table text o.string), ("float", table single o.float),
    ("int64", table integer o.int64), ("int32", table integer o.int32)]

def decoderSettings (s : DecoderSettings) : Value :=
  record [("codec", codec s.codec), ("realtime_priority", .bool s.realtimePriority),
    ("options", decoderOptions s.options), ("frame_index_capacity", integer s.frameIndexCapacity)]

def streamSettings (s : StreamSettings) : Value :=
  record [("render", renderSettings s.render), ("decoder", decoderSettings s.decoder),
    ("client_prediction", .bool s.clientPrediction)]

def clientSettings (s : ClientSettings) : Value :=
  record [("codec", codec s.codec), ("backend", backend s.backend),
    ("realtime_priority", .bool s.realtimePriority), ("foveation", foveationSettings s.foveation),
    ("eye_width", integer s.eyeWidth), ("eye_height", integer s.eyeHeight),
    ("refresh_rate", single s.refreshRate), ("client_prediction", .bool s.clientPrediction),
    ("decoder_options", decoderOptions s.decoderOptions),
    ("frame_index_capacity", integer s.frameIndexCapacity),
    ("pose_filter", poseFilterParams s.poseFilter), ("verbose", .bool s.verbose)]

end Writing

end HeadsetStream.Settings
