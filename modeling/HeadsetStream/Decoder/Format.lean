import HeadsetStream.Settings.Stream

/-!
# What a decoder is configured with

A media format is a table of typed values. The format of a video stream names the media type and a
size that holds until the decoder reports the real one, hands the free options on, and sets what the
client insists on: low latency, the highest rate, and the stream's parameter sets. A later entry
replaces an earlier one under the same name.
-/

namespace HeadsetStream.Decoder
open Settings

inductive FormatValue where
  | string (value : String)
  | float (value : Float32)
  | int64 (value : Int)
  | int32 (value : Int)
  | buffer (value : Bytes)
  deriving DecidableEq, Repr, Inhabited

abbrev MediaFormat := Table FormatValue

namespace MediaFormat

/-- The width until the decoder reports the real one. -/
def initialWidth : Int := 512

/-- The height until the decoder reports the real one. -/
def initialHeight : Int := 1024

/-- As fast as the decoder can. -/
def operatingRate : Int := 32767

/-- Media type and size, which the options may replace. -/
def base (codec : Bitstream.Codec) : MediaFormat :=
  Table.ofList [("mime", .string codec.mime), ("width", .int32 initialWidth),
    ("height", .int32 initialHeight)]

/-- The entries that no option replaces; a lower priority is more urgent. -/
def fixed (csd : Bytes) (realtime : Bool) : MediaFormat :=
  Table.ofList [("operating-rate", .int32 operatingRate),
    ("priority", .int32 (if realtime then 0 else 1)), ("low-latency", .int32 1),
    ("csd-0", .buffer csd)]

/-- The options under the name they are given, the later kinds on top of the earlier ones. -/
def withOptions (format : MediaFormat) (options : DecoderOptions) : MediaFormat :=
  format.overlay .string options.string
    |>.overlay .float options.float
    |>.overlay .int64 options.int64
    |>.overlay .int32 options.int32

/-- The format of a video stream with these parameter sets. -/
def video (settings : DecoderSettings) (csd : Bytes) : MediaFormat :=
  ((base settings.codec).withOptions settings.options).overlay id
    (fixed csd settings.realtimePriority)

/-- The number under a name, if there is a 32-bit one. -/
def int32? (format : MediaFormat) (key : String) : Option Int :=
  match format.get? key with
  | some (.int32 value) => some value
  | _ => none

/-- The text under a name, if there is one. -/
def string? (format : MediaFormat) (key : String) : Option String :=
  match format.get? key with
  | some (.string value) => some value
  | _ => none

/-- The bytes under a name, if there are any. -/
def buffer? (format : MediaFormat) (key : String) : Option Bytes :=
  match format.get? key with
  | some (.buffer value) => some value
  | _ => none

end MediaFormat

end HeadsetStream.Decoder
