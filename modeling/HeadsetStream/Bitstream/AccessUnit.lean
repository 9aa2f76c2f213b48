import HeadsetStream.Bitstream.Unit

/-!
# What a packet of bitstream carries

A packet may open with parameter sets, which configure a decoder, and goes on with the slices of a
picture. The configuration prefix is the leading run of parameter sets; by it and by the slices a
packet is configuration only, a keyframe, or a picture that depends on earlier ones.
-/

namespace HeadsetStream.Bitstream

inductive PacketKind where
  | configuration
  | keyframe
  | delta
  deriving DecidableEq, Repr, Inhabited

/-- Length of the leading run of parameter sets. It is zero unless the packet's first byte starts
one, and ends at the first unit that is none. -/
def configurationLength (codec : Codec) (data : Bytes) : Nat :=
  match units codec data with
  | [] => 0
  | first :: rest =>
    if first.offset == 0 && first.isParameterSet codec then
      match rest.find? (!·.isParameterSet codec) with
      | some unit => unit.offset
      | none => data.length
    else 0

/-- The leading run of parameter sets. -/
def configurationPrefix (codec : Codec) (data : Bytes) : Bytes :=
  data.take (configurationLength codec data)

/-- What follows the leading run of parameter sets. -/
def pictureData (codec : Codec) (data : Bytes) : Bytes :=
  data.drop (configurationLength codec data)

/-- Whether the first unit, wherever it starts, is a parameter set. -/
def opensWithParameterSet (codec : Codec) (data : Bytes) : Bool :=
  match units codec data with
  | [] => false
  | first :: _ => first.isParameterSet codec

/-- Whether some unit is a keyframe slice. -/
def hasKeyframeSlice (codec : Codec) (data : Bytes) : Bool :=
  (units codec data).any (·.isKeyframeSlice codec)

/-- A packet is configuration if all of it is the configuration prefix, and a keyframe if what
follows the prefix has a keyframe slice. -/
def PacketKind.of (codec : Codec) (data : Bytes) : PacketKind :=
  let head := configurationPrefix codec data
  if head ≠ [] ∧ head.length = data.length then .configuration
  else if hasKeyframeSlice codec (data.drop head.length) then .keyframe
  else .delta

@[simp] theorem configurationPrefix_append (codec : Codec) (data : Bytes) :
    configurationPrefix codec data ++ pictureData codec data = data :=
  List.take_append_drop ..

@[simp] theorem configurationPrefix_nil (codec : Codec) : configurationPrefix codec [] = [] := by
  simp [configurationPrefix]

end HeadsetStream.Bitstream
