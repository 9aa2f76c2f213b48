import HeadsetStream.Decoder.Engine
import HeadsetStream.Settings.Client

/-!
# An engine without a decoder

An engine for trials. In loopback every buffer that is submitted comes back as an output buffer at
once, and as a small black image when that is released. In manual operation the engine only keeps
what it is given, and someone else decides what it reports and when.
-/

namespace HeadsetStream.Decoder
open Video Settings

inductive SimulatedMode where
  | loopback
  | manual
  deriving DecidableEq, Repr, Inhabited

structure SimulatedEngine where
  mode : SimulatedMode
  /-- How many input buffers a session has. -/
  inputBuffers : Nat := 4
  /-- Whether the next session fails to open. -/
  failNext : Bool := false
  deriving DecidableEq, Repr, Inhabited

/-- A buffer as it was submitted. -/
structure Submission where
  buffer : Nat
  data : Bytes
  pts : Nat
  flags : BufferFlags
  deriving DecidableEq, Repr, Inhabited

structure SimulatedSession where
  mode : SimulatedMode
  inputBuffers : Nat
  format : MediaFormat
  stopped : Bool := false
  formatReported : Bool := false
  /-- The number of the next output buffer. -/
  nextOutput : Nat := 0
  submitted : Array Submission := #[]
  /-- The output buffers that are not given back yet, with their timestamps. -/
  pending : List (Nat × Nat) := []
  released : Array (Nat × Bool) := #[]
  deriving DecidableEq, Repr, Inhabited

namespace SimulatedSession

/-- How many bytes an input buffer holds. -/
def bufferSize : Nat := 0x100000

def imageWidth : Nat := 64

def imageHeight : Nat := 32

def imageStride : Nat := 4 * imageWidth

def blackPixels : Bytes := List.replicate (imageStride * imageHeight) 0

/-- The image of a timestamp. Its nanoseconds are counted in full; 64 bits have room for those of
584 years. -/
def imageAt (pts : Nat) : SurfaceImage where
  timestampNs := pts * 1000
  width := imageWidth
  height := imageHeight
  stride := imageStride
  data := blackPixels

/-- Reports a picture as decoded, the first time after the format; gives its output buffer. -/
def complete (session : SimulatedSession) (pts : Nat) : Nat × Reply SimulatedSession Callback :=
  let buffer := session.nextOutput
  let output := Callback.event (.output buffer pts)
  (buffer,
    { session :=
        { session with
          formatReported := true
          nextOutput := buffer + 1
          pending := (buffer, pts) :: session.pending }
      reports := if session.formatReported then [output] else [.event .formatChanged, output] })

/-- Offers all input buffers. -/
def start (session : SimulatedSession) : Reply SimulatedSession Callback :=
  if session.stopped then { session, result := .error .sessionStopped }
  else { session, reports := (List.range session.inputBuffers).map .inputFree }

/-- Every input buffer is of the same size. -/
def capacity (session : SimulatedSession) : Except DecoderError Nat :=
  if session.stopped then .error .sessionStopped else .ok bufferSize

/-- Keeps a buffer. In loopback a picture comes back, and the buffer is free again. -/
def submit (session : SimulatedSession) (buffer : Nat) (data : Bytes) (pts : Nat)
    (flags : BufferFlags) : Reply SimulatedSession Callback :=
  if session.stopped then { session, result := .error .sessionStopped }
  else
    let session := { session with submitted := session.submitted.push ⟨buffer, data, pts, flags⟩ }
    match session.mode with
    | .manual => { session }
    | .loopback =>
      if flags.configuration then { session, reports := [.inputFree buffer] }
      else
        let reply := (session.complete pts).2
        { reply with reports := reply.reports ++ [.inputFree buffer] }

/-- Takes an output buffer back. In loopback its image is presented. -/
def release (session : SimulatedSession) (buffer : Nat) (render : Bool) :
    Reply SimulatedSession SurfaceImage :=
  if session.stopped then { session, result := .error .sessionStopped }
  else
    match session.pending.lookup buffer with
    | none => { session, result := .error (.unknownBuffer buffer) }
    | some pts =>
      { session :=
          { session with
            pending := session.pending.filter (·.1 ≠ buffer)
            released := session.released.push (buffer, render) }
        reports := if session.mode = .loopback && render then [imageAt pts] else [] }

end SimulatedSession

namespace SimulatedEngine

def loopback : SimulatedEngine := { mode := .loopback }

def name (engine : SimulatedEngine) : String :=
  match engine.mode with
  | .loopback => "dummy-loopback"
  | .manual => "dummy-manual"

/-- Opens a session, unless the engine was told to fail. -/
def create (engine : SimulatedEngine) (format : MediaFormat) :
    SimulatedEngine × Except DecoderError SimulatedSession :=
  if engine.failNext then
    ({ engine with failNext := false }, .error (.codec (-1) "injected configure failure"))
  else (engine, .ok { mode := engine.mode, inputBuffers := engine.inputBuffers, format })

instance : Engine SimulatedEngine SimulatedSession where
  name := name
  create := create
  start := SimulatedSession.start
  capacity session _ := session.capacity
  submit := SimulatedSession.submit
  release := SimulatedSession.release
  stop session := { session with stopped := true }

/-- The engine of a setting, if this program has it. -/
def ofBackend : Backend → Except DecoderError SimulatedEngine
  | .loopback => .ok loopback
  | .gstreamer =>
    .error (.configuration ("gstreamer backend not compiled in " ++
      "(enable the \x60gstreamer\x60 feature on linux)"))

end SimulatedEngine

end HeadsetStream.Decoder
