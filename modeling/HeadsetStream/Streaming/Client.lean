import HeadsetStream.Streaming.Decoding
import HeadsetStream.Latency.Collector
import HeadsetStream.Tracking.Sampler

/-!
# The client

The client stands between the server and the headset. It takes the server's packets, has the video
decoded and shown, samples the headset for the server, and keeps the latency figures. Times are in
nanoseconds since the client was made.
-/

namespace HeadsetStream.Streaming
open Decoder Settings Signal Tracking Video Wire

structure Client (ε σ : Type) where
  /-- What each stream is decoded with, or why there is nothing. -/
  engine : Except DecoderError ε
  latency : Latency.Collector Float := {}
  decoding : Decoding ε σ := {}
  sampler : Sampler
  /-- The settings of the stream, once there was one. -/
  settings : Option StreamSettings := none

/-- The latency figures once a notice was given. -/
def observeLatency (now : Nat) (latency : Latency.Collector Float) :
    Notice → Latency.Collector Float
  | .decoderInput frame => latency.decoderInput now frame
  | .decoderOutput frame => latency.decoderOutput now frame
  | _ => latency

namespace Client

variable {ε σ : Type}

/-- A client that samples the headset, but has no stream yet. -/
def new (engine : Except DecoderError ε) (filter : PoseFilterParams) : Client ε σ :=
  { engine, sampler := (Sampler.new filter).start 0 }

/-- The time in microseconds, in which the latency figures are. -/
def micros (now : Nat) : Nat := now / 1000

/-- Begins a stream: nothing of an earlier one is shown any more, and the server counts as
connected. -/
def setStream (client : Client ε σ) (now : Nat) (graphics : Bool) (settings : StreamSettings) :
    Outcome (Client ε σ) := do
  if graphics then
    .say (.renderMode .lobby)
    .say .clear
    .say (.foveation (settings.render.foveation.map (.of settings.render.eyeSize)))
  let sampler := { client.sampler.setRate settings.render.refreshRate with
    prediction := settings.clientPrediction }
  return { client with
    decoding := client.decoding.start now graphics client.engine settings.decoder
    sampler := sampler.setConnected true
    settings := some settings }

/-- The server has gone: its video is shown no more, and nothing is sent to it. -/
def disconnect (client : Client ε σ) : Outcome (Client ε σ) := do
  .say (.renderMode .lobby)
  return { client with sampler := client.sampler.setConnected false }

/-- Takes a video packet, and says whether it went into the decoder. -/
def receiveVideo [Engine ε σ] (client : Client ε σ) (now : Nat) (waiting : Bool)
    (header : VideoHeader) (payload : Bytes) : Outcome (Bool × Client ε σ) :=
  let latency := client.latency.received (micros now) header.frame
  let queued := client.decoding.queue now waiting header payload
  { value :=
      (queued.value.1,
        { client with
          decoding := queued.value.2
          latency := queued.notices.foldl (observeLatency (micros now)) latency })
    notices := queued.notices }

/-- Takes a time sync, and answers it if it asks for that. -/
def receiveTimeSync (client : Client ε σ) (now : Nat) (sync : TimeSync) :
    Outcome (Client ε σ) := do
  let (answer, latency) := client.latency.timeSync (micros now) sync
  if let some answer := answer then
    .say (.timeSync answer)
  return { client with latency }

/-- Takes a packet, and says whether it was video that went into the decoder. -/
def receive [Engine ε σ] (client : Client ε σ) (now : Nat) (waiting : Bool) (packet : Bytes) :
    Outcome (Except PacketError Bool × Client ε σ) :=
  match Packet.ofBytes packet with
  | .error error => return (.error error, client)
  | .ok (.video header payload) => do
    let (queued, client) ← client.receiveVideo now waiting header payload
    return (.ok queued, client)
  | .ok (.timeSync sync) => return (.ok false, ← client.receiveTimeSync now sync)

/-- Has a frame drawn; `shown` is the video frame that the headset shows then. -/
def render (client : Client ε σ) (now : Nat) (shown : Option FrameIndex) :
    Outcome (Option FrameIndex × Client ε σ) := do
  .say .render
  match shown with
  | some frame =>
    return (shown, { client with latency := client.latency.rendered (micros now) frame })
  | none => return (none, client)

/-- Samples the headset, if the sampler is running, and says how long it sleeps then. -/
def tick (client : Client ε σ) (now : Nat) (sensors : Sensors) :
    Outcome (Option Nat × Client ε σ) := do
  let (sleep, sampler) ← client.sampler.tick now sensors
  return (sleep, { client with sampler })

/-- Ends sampling and decoding. -/
def shutdown (client : Client ε σ) (graphics : Bool) : Outcome (Client ε σ) := do
  .sayIf graphics .clear
  return { client with sampler := client.sampler.stop, decoding := client.decoding.stop }

end Client

end HeadsetStream.Streaming
