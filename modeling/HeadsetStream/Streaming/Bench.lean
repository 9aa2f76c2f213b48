import HeadsetStream.Streaming.Client
import HeadsetStream.Streaming.ServerLink
import HeadsetStream.Decoder.Simulated
import HeadsetStream.Headset.Simulated

/-!
# The client on a bench

A client with everything around it simulated: a headset without hardware, an engine without a
decoder, and a link to the server from which someone fetches the messages. What the client notices
reaches the headset and the link before the next operation.
-/

namespace HeadsetStream.Streaming
open Decoder HeadsetStream.Geometry Settings Signal Tracking Video Wire

abbrev BenchClient := Client SimulatedEngine SimulatedSession

structure Bench where
  client : BenchClient
  headset : Headset.Simulated := {}
  link : ServerLink

namespace Bench

/-- How many messages the link holds. -/
def linkCapacity : Nat := 1024

def new (backend : Backend) (filter : PoseFilterParams) : Bench where
  client := .new (SimulatedEngine.ofBackend backend) filter
  link := { capacity := linkCapacity }

/-- What the headset has to be read. -/
def sensors (bench : Bench) (now : Nat) : Sensors where
  view := some bench.headset.view
  tracking prediction := some (Headset.trackingAt (Client.micros now) prediction)

/-- The bench once the client has done something. -/
def after {α : Type} (bench : Bench) (done : Outcome (α × BenchClient)) : Outcome (α × Bench) where
  value :=
    (done.value.1,
      { client := done.value.2
        headset := bench.headset.observeAll done.notices
        link := bench.link.observeAll done.notices })
  notices := done.notices

/-- The same for what has no result. -/
def afterwards (bench : Bench) (done : Outcome BenchClient) : Outcome Bench := do
  return (← bench.after (return ((), ← done))).2

def setStream (bench : Bench) (now : Nat) (settings : StreamSettings) : Outcome Bench :=
  bench.afterwards (bench.client.setStream now true settings)

def disconnect (bench : Bench) : Outcome Bench :=
  bench.afterwards bench.client.disconnect

def receive (bench : Bench) (now : Nat) (packet : Bytes) :
    Outcome (Except PacketError Bool × Bench) :=
  bench.after (bench.client.receive now bench.link.waiting packet)

def render (bench : Bench) (now : Nat) : Outcome (Option FrameIndex × Bench) :=
  bench.after (bench.client.render now bench.headset.shown)

def tick (bench : Bench) (now : Nat) : Outcome (Option Nat × Bench) :=
  bench.after (bench.client.tick now (bench.sensors now))

def shutdown (bench : Bench) : Outcome Bench :=
  bench.afterwards (bench.client.shutdown true)

/-- Fetches the messages to the server. -/
def fetch (bench : Bench) : List Message × Bench :=
  let (messages, link) := bench.link.fetch
  (messages, { bench with link })

end Bench

end HeadsetStream.Streaming
