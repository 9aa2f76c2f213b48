import HeadsetStream.Bitstream.Codec
import HeadsetStream.Settings.Render
import HeadsetStream.Settings.Table

/-!
# Settings of one stream

What the decoder and the renderer have to know of a stream before its first packet.
-/

namespace HeadsetStream.Settings

/-- Free options that are handed on to the decoder, by the type of their values. -/
structure DecoderOptions where
  string : Table String := .empty
  float : Table Float32 := .empty
  int64 : Table Int := .empty
  int32 : Table Int := .empty
  deriving DecidableEq, Repr, Inhabited

def DecoderOptions.isEmpty (options : DecoderOptions) : Bool :=
  options.string.isEmpty && options.float.isEmpty && options.int64.isEmpty &&
    options.int32.isEmpty

structure DecoderSettings where
  codec : Bitstream.Codec := .h264
  realtimePriority : Bool := true
  options : DecoderOptions := {}
  /-- How many timestamps the decoder can tell apart at once. -/
  frameIndexCapacity : Nat := 4096
  deriving DecidableEq, Repr, Inhabited

structure StreamSettings where
  render : RenderSettings := {}
  decoder : DecoderSettings := {}
  clientPrediction : Bool := false
  deriving DecidableEq, Repr, Inhabited

end HeadsetStream.Settings
