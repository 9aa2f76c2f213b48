import HeadsetStream.Bitstream.Codec

/-!
# A bitstream for trials

Access units that a decoder classifies as a real stream's would be, though their pictures are
empty: a keyframe with its parameter sets at a fixed interval or on demand, a small delta picture
otherwise.
-/

namespace HeadsetStream.Bitstream

/-- The next access unit is number `frame`; every `keyframeInterval`-th is a keyframe. -/
structure TestPattern where
  codec : Codec
  frame : Nat
  keyframeInterval : Nat
  deriving Repr

namespace TestPattern

/-- The parameter sets of the stream. -/
def parameterSets : Codec → Bytes
  | .h264 => [0, 0, 0, 1, 0x67, 0x42, 0xc0, 0x1f, 0, 0, 0, 1, 0x68, 0xce, 0x3c, 0x80]
  | .hevc => [0, 0, 0, 1, 0x40, 0x01, 0x0c, 0, 0, 0, 1, 0x42, 0x01, 0x01, 0, 0, 0, 1, 0x44, 0x01,
      0xc1]

def keyframeSlice : Codec → Bytes
  | .h264 => [0, 0, 0, 1, 0x65, 0x88, 0x84, 0x00]
  | .hevc => [0, 0, 0, 1, 0x26, 0x01, 0xaf]

def deltaSlice : Codec → Bytes
  | .h264 => [0, 0, 0, 1, 0x41, 0x9a, 0x02]
  | .hevc => [0, 0, 0, 1, 0x02, 0x01, 0xd0]

/-- Whether the next access unit is a keyframe. -/
def atKeyframe (pattern : TestPattern) (forced : Bool) : Bool :=
  forced || pattern.frame % pattern.keyframeInterval == 0

/-- The next access unit, a keyframe if it is due or `forced`, and the pattern after it. -/
def next (pattern : TestPattern) (forced : Bool) : Bytes × TestPattern :=
  let unit :=
    if pattern.atKeyframe forced then parameterSets pattern.codec ++ keyframeSlice pattern.codec
    else deltaSlice pattern.codec
  (unit, { pattern with frame := pattern.frame + 1 })

@[simp] theorem next_frame (pattern : TestPattern) (forced : Bool) :
    (pattern.next forced).2.frame = pattern.frame + 1 := rfl

end TestPattern

end HeadsetStream.Bitstream
