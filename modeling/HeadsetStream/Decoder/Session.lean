import HeadsetStream.Decoder.Engine
import HeadsetStream.Decoder.Surface

/-!
# Sessions

A session is one life of the decoder: it was opened for certain parameter sets and ends when they
change, when it fails or when it is stopped. Beside the engine's part it has the input buffers that
are free, the events that no one has handled yet, and a surface of its own. Both queues are bounded;
what finds a queue full is dropped after a wait.
-/

namespace HeadsetStream.Decoder
open Video

inductive SessionState where
  | uninitialized
  | configuring
  | running
  | error
  | stopped
  deriving DecidableEq, Repr, Inhabited

/-- A state once a fault was reported: what is stopped stays stopped. -/
def SessionState.degrade : SessionState → SessionState
  | .stopped => .stopped
  | _ => .error

structure Session (σ : Type) where
  /-- The parameter sets that the session was opened for. -/
  csd : Bytes
  /-- The engine's part. -/
  engine : σ
  state : SessionState := .configuring
  /-- The free input buffers, the one that is used next first. -/
  inputs : List Nat := []
  /-- The events still to be handled, oldest first. -/
  events : List Event := []
  surface : Surface

namespace Session

/-- How many input buffers or events a session can hold. -/
def queueDepth : Nat := 120

/-- How long, in microseconds, a report waits for room before it is dropped. -/
def reportWait : Nat := 50000

variable {ε σ : Type}

/-- The session with one more event, if there is room. -/
def push (session : Session σ) (event : Event) : Bool × Session σ :=
  if session.events.length < queueDepth then
    (true, { session with events := session.events ++ [event] })
  else (false, session)

/-- Takes an event: a fault degrades the session at once. -/
def take (session : Session σ) (event : Event) : Bool × Session σ :=
  match event with
  | .fault => { session with state := session.state.degrade }.push event
  | _ => session.push event

/-- Takes a report of the engine, and says whether there was room for it. A session whose surface is
closed takes none. -/
def hear (session : Session σ) (report : Callback) : Outcome (Bool × Session σ) :=
  if session.surface.closed then return (false, session)
  else match report with
  | .inputFree buffer =>
    if session.inputs.length < queueDepth then
      return (true, { session with inputs := session.inputs ++ [buffer] })
    else return (false, session)
  | .event event => return session.take event
  | .image image => do
    let (taken, surface) ← session.surface.offer image
    return (taken, { session with surface })

/-- Lets the surface take over the images that wait on it. -/
def settle (session : Session σ) : Outcome (Session σ) :=
  return { session with surface := ← session.surface.settle }

/-- Takes reports one after the other, and counts those that were dropped. -/
def hearAll (session : Session σ) (reports : List Callback) : Outcome (Nat × Session σ) :=
  reports.foldlM (fun (dropped, session) report => do
    let (taken, session) ← session.hear report
    return (if taken then dropped else dropped + 1, session)) (0, session)

section

variable [Engine ε σ]

/-- Starts the engine, and says how many reports were dropped meanwhile. -/
def start (session : Session σ) : Outcome (Except DecoderError Unit × Nat × Session σ) := do
  let reply := Engine.start ε session.engine
  let (dropped, session) ← { session with engine := reply.session }.hearAll reply.reports
  return (reply.result, dropped, session)

/-- The bytes that an input buffer holds. -/
def capacity (session : Session σ) (buffer : Nat) : Outcome (Except DecoderError Nat) := do
  .say (.inputCapacity buffer)
  return Engine.capacity ε session.engine buffer

/-- Has a buffer decoded. -/
def submit (session : Session σ) (buffer : Nat) (data : Bytes) (pts : Nat) (flags : BufferFlags) :
    Outcome (Except DecoderError Unit × Session σ) := do
  .say (.submit buffer data pts flags)
  let reply := Engine.submit ε session.engine buffer data pts flags
  let (_, session) ← { session with engine := reply.session }.hearAll reply.reports
  return (reply.result, session)

/-- Gives an output buffer back; the images that the engine presents then wait on the surface. Says
how many of them were dropped. -/
def release (session : Session σ) (buffer : Nat) (render : Bool) :
    Outcome (Except DecoderError Unit × Nat × Session σ) := do
  .say (.release buffer render)
  let reply := Engine.release ε session.engine buffer render
  let (dropped, session) ←
    { session with engine := reply.session }.hearAll (reply.reports.map .image)
  return (reply.result, dropped, session)

/-- Handles an event, and says whether an image was dropped for it. A picture's frame is reported,
but not forgotten: its image is still to come, so a later event of the same slot may report the same
frame again. -/
def handle (latency : Bool) (session : Session σ) (event : Event) :
    Outcome (Bool × Session σ) :=
  match event with
  | .output buffer pts => do
    if let some frame := session.surface.frames.get? pts then
      .sayIf latency (.decoderOutput frame)
    let (_, dropped, session) ← session.release (ε := ε) buffer true
    return (dropped ≠ 0, session)
  | .formatChanged | .fault => return (false, session)

/-- Handles these events, oldest first, until an image is dropped: a surface without room ends the
round, and the events behind it stay. -/
def handleAll (latency : Bool) (session : Session σ) : List Event → Outcome (Session σ)
  | [] => return { session with events := [] }
  | event :: rest => do
    let (dropped, session) ← session.handle (ε := ε) latency event
    if dropped then return { session with events := rest }
    else session.handleAll latency rest

/-- Handles the events that are there, as long as the surface has room, and then lets the surface
take over the images. -/
def drain (latency : Bool) (session : Session σ) : Outcome (Session σ) := do
  (← session.handleAll (ε := ε) latency session.events).settle

/-- The session with its engine's part over, if its surface is closed. -/
def finish (session : Session σ) : Session σ :=
  if session.surface.closed then { session with engine := Engine.stop ε session.engine }
  else session

/-- The session once it is over: as soon as its surface is closed, nothing it reports has an effect
any more. -/
def shutdown (session : Session σ) : Session σ :=
  { session with state := .stopped, surface := session.surface.close }.finish (ε := ε)

/-- Lets the session's images go on. One that is over finishes now if it had to wait for them. -/
def resume (session : Session σ) : Outcome (Session σ) := do
  let resumed := { session with surface := ← session.surface.resume }
  return if session.surface.closing then resumed.finish (ε := ε) else resumed

end

theorem hear_closed {session : Session σ} (h : session.surface.closed = true)
    (report : Callback) : session.hear report = pure (false, session) := by
  simp [hear, h]

end Session

end HeadsetStream.Decoder
