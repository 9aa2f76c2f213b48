import HeadsetStream.Decoder.Error
import HeadsetStream.Decoder.Format
import HeadsetStream.Notice

/-!
# Decoding engines

An engine opens sessions, one for each format it is asked for. A session takes buffers of bitstream
and reports back when an input buffer is free, when a picture is decoded, when its format changes,
when it fails, and when an image is on the surface. A call to a session answers with what the
session reported meanwhile, in order.
-/

namespace HeadsetStream.Decoder
open Video

/-- What a session reports to whoever drains its output. -/
inductive Event where
  /-- A picture that was submitted with a timestamp is in an output buffer. -/
  | output (buffer pts : Nat)
  | formatChanged
  | fault
  deriving DecidableEq, Repr

inductive Callback where
  | inputFree (buffer : Nat)
  | event (event : Event)
  | image (image : SurfaceImage)
  deriving DecidableEq, Repr

/-- A session's answer: the session after the call, what it reported, and how the call ended. -/
structure Reply (σ ρ : Type) where
  session : σ
  reports : List ρ := []
  result : Except DecoderError Unit := .ok ()

class Engine (ε : Type) (σ : outParam Type) where
  name : ε → String
  /-- Opens a session. -/
  create : ε → MediaFormat → ε × Except DecoderError σ
  start : σ → Reply σ Callback
  /-- The bytes that an input buffer holds. -/
  capacity : σ → (buffer : Nat) → Except DecoderError Nat
  submit : σ → (buffer : Nat) → Bytes → (pts : Nat) → BufferFlags → Reply σ Callback
  /-- Gives an output buffer back, its picture to be shown if `render`. -/
  release : σ → (buffer : Nat) → (render : Bool) → Reply σ SurfaceImage
  stop : σ → σ

end HeadsetStream.Decoder
