import HeadsetStream.Bytes

/-!
# Video codecs and their NAL unit types

Both codecs cut their bitstream into NAL units and name the kind of a unit in its first byte. What
differs is where the kind sits in that byte and which kinds are parameter sets or keyframe slices.
-/

namespace HeadsetStream.Bitstream

inductive Codec where
  | h264
  | hevc
  deriving DecidableEq, Repr, Inhabited

namespace Codec

/-- The name that settings have for a codec. -/
def name : Codec → String
  | .h264 => "h264"
  | .hevc => "hevc"

/-- The codec of a name. -/
def ofName? : String → Option Codec
  | "h264" => some .h264
  | "hevc" => some .hevc
  | _ => none

@[simp] theorem ofName?_name (codec : Codec) : ofName? codec.name = some codec := by
  cases codec <;> rfl

/-- The name that log records have for a codec. -/
def label : Codec → String
  | .h264 => "H264"
  | .hevc => "Hevc"

/-- The media type a decoder is asked for. -/
def mime : Codec → String
  | .h264 => "video/avc"
  | .hevc => "video/hevc"

/-- The unit type in a unit's first byte: its low five bits in H.264, bits one to six in HEVC. -/
def unitType : Codec → UInt8 → UInt8
  | .h264, header => header &&& 0x1F
  | .hevc, header => (header >>> 1) &&& 0x3F

/-- Parameter sets: sequence and picture sets, and in HEVC also video sets. -/
def isParameterSet : Codec → (type : UInt8) → Bool
  | .h264, type => type == 7 || type == 8
  | .hevc, type => type == 32 || type == 33 || type == 34

/-- Slices of a picture that decodes without any other. -/
def isKeyframeSlice : Codec → (type : UInt8) → Bool
  | .h264, type => type == 5
  | .hevc, type => type == 19 || type == 20

/-- No unit type is both a parameter set and a keyframe slice. -/
theorem isKeyframeSlice_eq_false {codec : Codec} {type : UInt8}
    (h : codec.isParameterSet type = true) : codec.isKeyframeSlice type = false := by
  cases codec <;> simp [isParameterSet, isKeyframeSlice] at h ⊢ <;> grind

end Codec

end HeadsetStream.Bitstream
