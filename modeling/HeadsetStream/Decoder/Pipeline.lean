import HeadsetStream.Bitstream.AccessUnit
import HeadsetStream.Decoder.Session

/-!
# The decoding pipeline

The pipeline puts packets into the current session of its engine and drains what the session
decodes. A packet that opens with new parameter sets, or with any if the last session is no longer
running, has a session opened for them. Packets that find no running session, or no free input
buffer, are dropped. Timestamps come from a clock that never gives the same one twice, so that they
tell apart the packets of all sessions.
-/

namespace HeadsetStream.Decoder
open Video Bitstream Settings

/-- Who of the pipeline's surroundings is there. -/
structure Links where
  graphics : Bool := true
  client : Bool := true
  latency : Bool := true
  deriving DecidableEq, Repr, Inhabited

/-- A clock in microseconds that never gives the same time twice. -/
structure PtsClock where
  last : Nat := 0
  deriving DecidableEq, Repr, Inhabited

/-- The next timestamp: the time `now`, or the first after the last timestamp if that is later. -/
def PtsClock.next (clock : PtsClock) (now : Nat) : Nat × PtsClock :=
  let pts := max now (clock.last + 1)
  (pts, ⟨pts⟩)

theorem PtsClock.last_lt_next (clock : PtsClock) (now : Nat) :
    clock.last < (clock.next now).1 :=
  Nat.lt_of_lt_of_le (Nat.lt_succ_self _) (Nat.le_max_right ..)

structure Pipeline (ε σ : Type) where
  settings : DecoderSettings
  links : Links := {}
  engine : ε
  clock : PtsClock := {}
  /-- The sessions before the current one, oldest first. -/
  past : List (Session σ) := []
  current : Option (Session σ) := none
  /-- The state while there is no current session. -/
  idle : SessionState := .uninitialized
  /-- Whether the graphics device takes its time over images. -/
  busy : Bool := false

namespace Pipeline

variable {ε σ : Type}

/-- The state of the current session, if there is one. -/
def state (pipeline : Pipeline ε σ) : SessionState :=
  match pipeline.current with
  | some session => session.state
  | none => pipeline.idle

/-- All sessions that were opened, oldest first. -/
def sessions (pipeline : Pipeline ε σ) : List (Session σ) :=
  pipeline.past ++ pipeline.current.toList

/-- Whether a packet that opens with these parameter sets has a session opened for them. -/
def needsSession (pipeline : Pipeline ε σ) (csd : Bytes) : Bool :=
  csd ≠ [] &&
    match pipeline.current with
    | none => true
    | some session =>
      session.state = .error || session.state = .stopped || session.csd ≠ csd

/-- What of a packet goes into an input buffer: the parameter sets in front have gone out with the
format, unless they are all there is. -/
def payload (csd packet : Bytes) : Bytes :=
  if csd.length = packet.length then packet else packet.drop csd.length

/-- Holds back the images of all sessions. -/
def hold (pipeline : Pipeline ε σ) : Pipeline ε σ :=
  { pipeline with
    busy := true
    past := pipeline.past.map fun session => { session with surface := session.surface.hold }
    current := pipeline.current.map fun session =>
      { session with surface := session.surface.hold } }

/-- Something is done with one of the sessions, if there is one of that number; then its surface
takes over the images that wait on it. -/
def withSession {α : Type} (pipeline : Pipeline ε σ) (number : Nat)
    (act : Session σ → Outcome (α × Session σ)) : Outcome (Option α × Pipeline ε σ) :=
  match pipeline.past[number]? with
  | some session => do
    let (result, session) ← act session
    let session ← session.settle
    return (some result, { pipeline with past := pipeline.past.set number session })
  | none =>
    match pipeline.current with
    | some session =>
      if number = pipeline.past.length then do
        let (result, session) ← act session
        return (some result, { pipeline with current := some (← session.settle) })
      else return (none, pipeline)
    | none => return (none, pipeline)

section

variable [Engine ε σ]

/-- Lets the images of all sessions go on. -/
def resume (pipeline : Pipeline ε σ) : Outcome (Pipeline ε σ) := do
  let past ← pipeline.past.mapM (Session.resume (ε := ε))
  let current ← pipeline.current.mapM (Session.resume (ε := ε))
  return { pipeline with busy := false, past, current }

/-- The pipeline with its current session over. -/
def retire (pipeline : Pipeline ε σ) : Pipeline ε σ :=
  match pipeline.current with
  | some session =>
    { pipeline with past := pipeline.past ++ [session.shutdown (ε := ε)], current := none }
  | none => pipeline

/-- Starts a session that the engine has opened. One that fails to start, or reports a fault
meanwhile, is over at once. Says how many reports were dropped meanwhile. -/
def launch (pipeline : Pipeline ε σ) (session : Session σ) : Outcome (Nat × Pipeline ε σ) := do
  let (result, dropped, session) ← session.start (ε := ε)
  if result.isOk && session.state = .configuring then
    .say (.renderMode .video)
    return (dropped, { pipeline with current := some { session with state := .running } })
  else
    return (dropped, { pipeline with
      past := pipeline.past ++ [session.shutdown (ε := ε)]
      idle := .error })

/-- Opens a session for these parameter sets. -/
def openSession (pipeline : Pipeline ε σ) (csd : Bytes) : Outcome (Nat × Pipeline ε σ) :=
  if !pipeline.links.graphics then return (0, { pipeline with idle := .error })
  else
    let format := MediaFormat.video pipeline.settings csd
    match Engine.create pipeline.engine format with
    | (engine, .error _) => return (0, { pipeline with engine, idle := .error })
    | (engine, .ok opened) =>
      let frames := FrameMap.empty pipeline.settings.frameIndexCapacity
      let pipeline := { pipeline with engine, idle := .configuring }
      pipeline.launch { csd, engine := opened, surface := { frames, busy := pipeline.busy } }

/-- Puts a packet's payload into an input buffer of the running session, and says whether the
engine took it. -/
def submit (pipeline : Pipeline ε σ) (session : Session σ) (buffer now : Nat) (payload : Bytes)
    (frame : FrameIndex) : Outcome (Bool × Pipeline ε σ) := do
  let codec := pipeline.settings.codec
  let keyframe := hasKeyframeSlice codec payload
  let configuration := opensWithParameterSet codec payload
  .sayIf (keyframe && pipeline.links.client) (.waiting false)
  .sayIf (!configuration && pipeline.links.latency) (.decoderInput frame)
  match ← session.capacity (ε := ε) buffer with
  | .error _ => return (false, { pipeline with current := some session })
  | .ok capacity =>
    let data := payload.take capacity
    if configuration then
      let (result, session) ←
        session.submit (ε := ε) buffer data 0 { configuration := true }
      return (result.isOk, { pipeline with current := some session })
    else
      let (pts, clock) := pipeline.clock.next now
      let surface := { session.surface with frames := session.surface.frames.set pts frame }
      let (result, session) ←
        { session with surface }.submit (ε := ε) buffer data pts { keyframe }
      return (result.isOk, { pipeline with clock, current := some session })

/-- Puts a packet of the frame `frame` into the current session, and says whether the engine took
it. The time `now` is in microseconds since the pipeline was made. -/
def queue (pipeline : Pipeline ε σ) (now : Nat) (packet : Bytes) (frame : FrameIndex) :
    Outcome (Bool × Pipeline ε σ) := do
  let csd := configurationPrefix pipeline.settings.codec packet
  let (dropped, pipeline) ←
    if pipeline.needsSession csd then (pipeline.retire).openSession csd else pure (0, pipeline)
  match pipeline.current with
  | none => return (false, pipeline)
  | some session =>
    if session.state ≠ .running then return (false, pipeline)
    else match session.inputs with
    | [] => return (false, pipeline)
    | buffer :: inputs =>
      pipeline.submit { session with inputs } buffer (now + dropped * Session.reportWait)
        (payload csd packet) frame

/-- Handles what the current session has decoded. -/
def drain (pipeline : Pipeline ε σ) : Outcome (Pipeline ε σ) := do
  match pipeline.current with
  | none => return pipeline
  | some session =>
    return { pipeline with
      current := some (← session.drain (ε := ε) pipeline.links.latency) }

/-- Ends the current session, and with it decoding. -/
def stop (pipeline : Pipeline ε σ) : Pipeline ε σ :=
  { pipeline.retire with idle := .stopped }

end

end Pipeline

end HeadsetStream.Decoder
