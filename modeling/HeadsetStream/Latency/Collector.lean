import HeadsetStream.Latency.FrameTimes
import HeadsetStream.Number.Scalar
import HeadsetStream.Wire.Packet

/-!
# Latency figures

The collector counts frames on their way through the client and measures how long they take: in the
decoder, averaged exponentially, and from receipt to display. From the time sync it knows the round
trip to the server and how far the server's clock is ahead. All times are in microseconds on the
client's clock; differences with an earlier clock reading stop at zero.
-/

namespace HeadsetStream.Latency
open Number Video Wire

structure Stats (α : Type) where
  received : Nat := 0
  decoded : Nat := 0
  rendered : Nat := 0
  lastDecode : Option Nat := none
  averageDecode : Option α := none
  /-- From receipt to display of the frame displayed last. -/
  lastTotal : Option Nat := none
  roundTrip : Option Nat := none
  /-- The server's clock minus the client's. -/
  clockOffset : Option Int := none
  deriving Repr, Inhabited

structure Collector (α : Type) where
  frames : FrameLog := {}
  stats : Stats α := {}
  deriving Inhabited

/-- A 64-bit signed number as near as there is one. -/
def clampInt64 (i : Int) : Int := max (-0x8000000000000000) (min i 0x7FFFFFFFFFFFFFFF)

/-- The server's clock minus the client's, if its message left halfway through the round trip. -/
def clockOffset (serverTime clientTime roundTrip : Nat) : Int :=
  clampInt64 ((serverTime : Int) - ((clientTime : Int) + (roundTrip / 2 : Nat)))

namespace Collector

variable {α : Type}

def empty : Collector α := {}

/-- A frame came from the server. -/
def received (collector : Collector α) (now : Nat) (frame : FrameIndex) : Collector α where
  frames := collector.frames.record frame ({ · with received := some now })
  stats := { collector.stats with received := collector.stats.received + 1 }

/-- A frame goes into the decoder. -/
def decoderInput (collector : Collector α) (now : Nat) (frame : FrameIndex) : Collector α :=
  { collector with frames := collector.frames.record frame ({ · with decoderInput := some now }) }

/-- The average with one more decode time folded in: a tenth of the way towards it. -/
def average [Scalar α] (last : Option α) (time : Nat) : α :=
  match last with
  | some average => average + ((time : α) - average) * (1 / 10)
  | none => time

/-- The figures with one more decode time, if it is known. -/
def decoded [Scalar α] (stats : Stats α) (time : Option Nat) : Stats α :=
  let stats := { stats with decoded := stats.decoded + 1 }
  match time with
  | some time =>
    { stats with
      lastDecode := some time
      averageDecode := some (average stats.averageDecode time) }
  | none => stats

/-- A frame comes out of the decoder. -/
def decoderOutput [Scalar α] (collector : Collector α) (now : Nat) (frame : FrameIndex) :
    Collector α :=
  let input := (collector.frames.times? frame).bind (·.decoderInput)
  { collector with stats := decoded collector.stats (input.map (now - ·)) }

/-- A frame was displayed. -/
def rendered (collector : Collector α) (now : Nat) (frame : FrameIndex) : Collector α :=
  let received := (collector.frames.times? frame).bind (·.received)
  let stats := { collector.stats with rendered := collector.stats.rendered + 1 }
  match received with
  | some received => { collector with stats := { stats with lastTotal := some (now - received) } }
  | none => { collector with stats }

/-- A time sync came from the server: the answer to it, if it asks for one. -/
def timeSync (collector : Collector α) (now : Nat) (sync : TimeSync) :
    Option TimeSync × Collector α :=
  if sync.mode = TimeSync.ping then
    (some { sync with mode := TimeSync.reply, clientTime := UInt64.ofNat now }, collector)
  else if sync.mode = TimeSync.result then
    let roundTrip := now - sync.clientTime.toNat
    let offset := clockOffset sync.serverTime.toNat sync.clientTime.toNat roundTrip
    (none, { collector with
      stats := { collector.stats with roundTrip := some roundTrip, clockOffset := some offset } })
  else (none, collector)

end Collector

end HeadsetStream.Latency
