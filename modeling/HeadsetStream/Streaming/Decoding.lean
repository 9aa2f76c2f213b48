import HeadsetStream.Decoder.Pipeline
import HeadsetStream.Wire.Packet

/-!
# Decoding a stream

While a stream is decoded its packets go into a pipeline of its own, and what the pipeline has
decoded is drained at once. The packets are counted by the server; a gap in the count is a loss, and
on the first loss a keyframe is requested. Until it is here no other one is.
-/

namespace HeadsetStream.Streaming
open Decoder Settings Video Wire

structure Decoding (ε σ : Type) where
  pipeline : Option (Pipeline ε σ) := none
  /-- When the pipeline was made, in nanoseconds. -/
  started : Nat := 0
  /-- The count of the stream's last packet. -/
  lastCounter : Option UInt32 := none

namespace Decoding

variable {ε σ : Type}

/-- Whether a stream is decoded. -/
def isRunning (decoding : Decoding ε σ) : Bool := decoding.pipeline.isSome

/-- Whether a packet with this count comes right after the last one. -/
def follows (decoding : Decoding ε σ) (counter : UInt32) : Bool :=
  match decoding.lastCounter with
  | some last => counter = last + 1
  | none => true

/-- Ends the stream. -/
def stop (decoding : Decoding ε σ) : Decoding ε σ := { decoding with pipeline := none }

/-- Begins a new stream, if there is an engine to decode it. Without a graphics device the stream
has nowhere to go, and no session is opened for it. -/
def start (decoding : Decoding ε σ) (now : Nat) (graphics : Bool) (engine : Except DecoderError ε)
    (settings : DecoderSettings) : Decoding ε σ :=
  match engine with
  | .ok engine => { pipeline := some { settings, engine, links := { graphics } }, started := now }
  | .error _ => decoding.stop

/-- Requests a keyframe after a loss, unless one is asked for already. -/
def noticeLoss (decoding : Decoding ε σ) (waiting : Bool) (counter : UInt32) : Outcome Unit := do
  if !decoding.follows counter && !waiting then
    .say (.waiting true)
    .say .requestKeyframe

/-- Takes a video packet, and says whether it went into the engine. The time `now` is in
nanoseconds; `waiting` says whether a keyframe is asked for and not yet here. -/
def queue [Engine ε σ] (decoding : Decoding ε σ) (now : Nat) (waiting : Bool)
    (header : VideoHeader) (payload : Bytes) : Outcome (Bool × Decoding ε σ) :=
  match decoding.pipeline with
  | none => return (false, decoding)
  | some pipeline => do
    decoding.noticeLoss waiting header.counter
    let (queued, pipeline) ←
      pipeline.queue ((now - decoding.started) / 1000) payload header.frame
    let pipeline ← pipeline.drain
    return (queued, { decoding with
      pipeline := some pipeline
      lastCounter := some header.counter })

end Decoding

end HeadsetStream.Streaming
