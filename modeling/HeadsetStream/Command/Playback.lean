import HeadsetStream.Bitstream.AccessUnit
import HeadsetStream.Bitstream.TestPattern
import HeadsetStream.Streaming.Bench
import HeadsetStream.Number.Exact

/-!
# Playing a test stream

A test pattern is sent to a client on a bench, frame by frame, and the client draws each frame. Now
and then a packet is dropped; the keyframe that the client requests then comes next. Time is
simulated: it stands still except between frames, when the sampler wakes at its own times. Times are
in nanoseconds.
-/

namespace HeadsetStream.Command
open Bitstream Number Settings Streaming Tracking Video Wire

/-- The time between frames at a display rate: the quotient is rounded to single precision, and its
exact value to the nearest nanosecond. It is none if the rate is too low for that, or no rate. -/
def framePeriod (rate : Float32) : Option Nat :=
  match Exact.of (1 / rate) with
  | .finite false m e =>
    let (two, half) := twoPow e
    let period := roundDiv (m * two * nanosPerSecond) half
    if period < 0x10000000000000000 * nanosPerSecond then some period else none
  | .finite true 0 _ => some 0
  | _ => none

/-- The frames from one keyframe to the next: about two seconds. -/
def keyframeInterval (rate : Float32) : Nat := max rate.toUInt64.toNat 1 * 2

/-- A packet that the client was given. -/
structure Delivery where
  /-- What is in the packet; none for a time sync. -/
  kind : Option PacketKind
  accepted : Bool
  deriving DecidableEq, Repr, Inhabited

/-- What happened, the last first. -/
structure Journal where
  deliveries : List Delivery := []
  /-- The frames drawn: when, and what was shown. -/
  shown : List (Nat × Option FrameIndex) := []
  keyframeRequests : Nat := 0
  trackingSent : Nat := 0
  deriving Repr, Inhabited

/-- The journal once messages to the server were fetched. -/
def Journal.count (journal : Journal) (messages : List Message) : Journal :=
  messages.foldl (fun journal message =>
    match message with
    | .requestKeyframe => { journal with keyframeRequests := journal.keyframeRequests + 1 }
    | .tracking _ => { journal with trackingSent := journal.trackingSent + 1 }
    | _ => journal) journal

structure Playback where
  /-- One packet of so many is dropped; none if it is zero. -/
  dropInterval : Nat
  period : Nat
  now : Nat := 0
  bench : Bench
  pattern : TestPattern
  counter : UInt32 := 0
  frame : FrameIndex := 0
  /-- Whether the next frame is to be a keyframe. -/
  forceKeyframe : Bool := false
  journal : Journal := {}

namespace Playback

/-- Fetches and counts the messages to the server. -/
def fetch (playback : Playback) : Playback :=
  let (messages, bench) := playback.bench.fetch
  { playback with bench, journal := playback.journal.count messages }

/-- Gives the client a packet. -/
def deliver (playback : Playback) (kind : Option PacketKind) (packet : Bytes) : Playback :=
  let (result, bench) := (playback.bench.receive playback.now packet).value
  let delivery := ⟨kind, result matches .ok true⟩
  { playback with
    bench
    journal :=
      { playback.journal with deliveries := delivery :: playback.journal.deliveries } }.fetch

/-- The time in microseconds, as packets have it. -/
def sentTime (playback : Playback) : UInt64 := UInt64.ofNat (Client.micros playback.now)

/-- Sends the next frame of the pattern, unless its packet is the one that is dropped. -/
def sendFrame (playback : Playback) : Playback :=
  let (payload, pattern) := playback.pattern.next playback.forceKeyframe
  let header : VideoHeader :=
    { counter := playback.counter
      frame := playback.frame
      videoFrame := UInt64.ofNat pattern.frame
      sentTime := playback.sentTime
      frameSize := UInt32.ofNat payload.length
      flags := 0 }
  let counter := playback.counter + 1
  let dropped := 0 < playback.dropInterval && counter.toNat % playback.dropInterval == 0
  let playback :=
    { playback with pattern, counter, frame := playback.frame + 1, forceKeyframe := false }
  if dropped then playback
  else playback.deliver (some (PacketKind.of pattern.codec payload)) (header.toBytes payload)

/-- How many frames there are to a time sync. -/
def pingInterval : Nat := 30

/-- Sends a time sync if it is due. -/
def sendPing (playback : Playback) : Playback :=
  let number := playback.pattern.frame
  if number % pingInterval = 0 then
    playback.deliver none
      (TimeSync.toBytes ⟨TimeSync.ping, UInt64.ofNat number, playback.sentTime, 0⟩)
  else playback

/-- Has the client draw. -/
def draw (playback : Playback) : Playback :=
  let (shown, bench) := (playback.bench.render playback.now).value
  { playback with
    bench
    journal :=
      { playback.journal with
        shown := (playback.now, shown) :: playback.journal.shown } }.fetch

/-- Has the client's sampler wake each time it is due, up to the time `finish`. A wake time is
always later than the one before, so as many steps as there are nanoseconds are enough. -/
def wakeUntil (finish : Nat) : (steps : Nat) → Playback → Playback
  | 0, playback => playback
  | steps + 1, playback =>
    match playback.bench.client.sampler.wake with
    | some wake =>
      if wake ≤ finish then
        wakeUntil finish steps
          { playback with bench := (playback.bench.tick wake).value.2 }.fetch
      else playback
    | none => playback

/-- Lets a frame's time pass. -/
def rest (playback : Playback) : Playback :=
  let finish := playback.now + playback.period
  { wakeUntil finish (finish + 1) playback with now := finish }

/-- One frame, and the time until the next. A keyframe that was requested meanwhile comes next. -/
def step (playback : Playback) : Playback :=
  let after := playback.sendFrame.sendPing.draw
  let requested := after.journal.keyframeRequests ≠ playback.journal.keyframeRequests
  { after with forceKeyframe := requested }.rest

/-- Plays until `deadline`. If a frame takes a nanosecond or more, as many steps as the deadline has
nanoseconds are enough. If it takes no time, there are never enough. -/
def playUntil (playback : Playback) (deadline : Nat) : (steps : Nat) → Playback
  | 0 => playback
  | steps + 1 =>
    if playback.now < deadline then playback.step.playUntil deadline steps else playback

/-- The playback before its first frame. The client has sampled once by then, before it was told of
the stream. -/
def start (settings : ClientSettings) (dropInterval period : Nat) : Playback :=
  let bench := ((Bench.new settings.backend settings.poseFilter).tick 0).value.2
  { dropInterval
    period
    bench := (bench.setStream 0 settings.stream).value
    pattern := ⟨settings.codec, 0, keyframeInterval settings.refreshRate⟩ }

/-- Plays a stream of so many seconds, if there is a time between its frames. -/
def run (settings : ClientSettings) (seconds dropInterval : Nat) : Option Playback :=
  let deadline := seconds * nanosPerSecond
  (framePeriod settings.refreshRate).map fun period =>
    (start settings dropInterval period).playUntil deadline deadline

end Playback

end HeadsetStream.Command
