import HeadsetStream.Decoder.Pipeline
import HeadsetStream.Proofs.SurfaceAtRest

/-!
# A packet on its way into a session

Queueing a packet has two halves. First a session is opened if the packet's parameter sets ask for
one; then the packet is delivered to the current session, if that is running and has a free input
buffer. The lemmas here say what each half does, for any engine, as a value and its notices.
-/

namespace HeadsetStream.Decoder
open Video Bitstream Settings

namespace Pipeline

variable {ε σ : Type} [Engine ε σ]

/-- The pipeline with a session opened for these parameter sets, if they ask for one. -/
def prepare (pipeline : Pipeline ε σ) (csd : Bytes) : Outcome (Nat × Pipeline ε σ) :=
  if pipeline.needsSession csd then pipeline.retire.openSession csd else pure (0, pipeline)

theorem retire_of_none {pipeline : Pipeline ε σ} (h : pipeline.current = none) :
    pipeline.retire = pipeline := by
  simp [retire, h]

theorem retire_of_some {pipeline : Pipeline ε σ} {session : Session σ}
    (h : pipeline.current = some session) :
    pipeline.retire =
      { pipeline with past := pipeline.past ++ [session.shutdown (ε := ε)], current := none } := by
  simp [retire, h]

@[simp] theorem retire_current (pipeline : Pipeline ε σ) : pipeline.retire.current = none := by
  cases h : pipeline.current with
  | none => rw [retire_of_none h, h]
  | some session => rw [retire_of_some h]

/-- Puts a payload into the current session, if it takes any. -/
def deliver (pipeline : Pipeline ε σ) (now : Nat) (payload : Bytes) (frame : FrameIndex) :
    Outcome (Bool × Pipeline ε σ) :=
  match pipeline.current with
  | none => return (false, pipeline)
  | some session =>
    if session.state ≠ .running then return (false, pipeline)
    else match session.inputs with
    | [] => return (false, pipeline)
    | buffer :: inputs => pipeline.submit { session with inputs } buffer now payload frame

/-- The time at which a packet is submitted that came while reports were dropped. -/
def delayed (now dropped : Nat) : Nat := now + dropped * Session.reportWait

theorem queue_eq (pipeline : Pipeline ε σ) (now : Nat) (packet : Bytes) (frame : FrameIndex) :
    pipeline.queue now packet frame =
      (let csd := configurationPrefix pipeline.settings.codec packet
      pipeline.prepare csd >>= fun opened =>
        opened.2.deliver (delayed now opened.1) (payload csd packet) frame) := by
  by_cases h : pipeline.needsSession (configurationPrefix pipeline.settings.codec packet)
  · simp only [queue, prepare, h, if_true]
    rfl
  · simp only [queue, prepare, h, if_false, Bool.false_eq_true]
    rfl

/-- A packet that has no session opened goes where the last one went. -/
theorem queue_of_current {pipeline : Pipeline ε σ} {now : Nat} {packet : Bytes}
    {frame : FrameIndex}
    (h : pipeline.needsSession (configurationPrefix pipeline.settings.codec packet) = false) :
    pipeline.queue now packet frame =
      pipeline.deliver now (payload (configurationPrefix pipeline.settings.codec packet) packet)
        frame := by
  rw [queue_eq]
  simp only [prepare, h, Bool.false_eq_true, if_false]
  show pipeline.deliver (delayed now 0) _ frame = _
  rw [delayed, Nat.zero_mul, Nat.add_zero]

/-- Whether the current session is running and has a free input buffer. -/
def hasRoom (pipeline : Pipeline ε σ) : Bool :=
  pipeline.current.any fun session => session.state = .running && session.inputs ≠ []

omit [Engine ε σ] in
theorem hasRoom_iff {pipeline : Pipeline ε σ} :
    pipeline.hasRoom = true ↔ ∃ session buffer inputs, pipeline.current = some session ∧
      session.state = .running ∧ session.inputs = buffer :: inputs := by
  unfold hasRoom
  cases pipeline.current with
  | none => simp
  | some session => cases hinputs : session.inputs <;> simp [hinputs]

theorem deliver_of_no_room {pipeline : Pipeline ε σ} (h : pipeline.hasRoom = false) (now : Nat)
    (payload : Bytes) (frame : FrameIndex) :
    pipeline.deliver now payload frame = pure (false, pipeline) := by
  unfold deliver
  split
  case h_1 => rfl
  case h_2 session hcurrent =>
    split
    · rfl
    · next hstate =>
      split
      case h_1 => rfl
      case h_2 buffer inputs hinputs =>
        have hroom := hasRoom_iff.mpr
          ⟨session, buffer, inputs, hcurrent, not_not.mp hstate, hinputs⟩
        exact absurd (h.symm.trans hroom) Bool.false_ne_true

theorem deliver_of_room {pipeline : Pipeline ε σ} {session : Session σ} {buffer : Nat}
    {inputs : List Nat} (hcurrent : pipeline.current = some session)
    (hrunning : session.state = .running) (hinputs : session.inputs = buffer :: inputs) (now : Nat)
    (payload : Bytes) (frame : FrameIndex) :
    pipeline.deliver now payload frame =
      pipeline.submit { session with inputs } buffer now payload frame := by
  simp only [deliver, hcurrent, hrunning, hinputs, ne_eq, not_true_eq_false, if_false]

/-- A packet is dropped without a notice, or goes into a free buffer of the running session. -/
theorem deliver_cases (pipeline : Pipeline ε σ) (now : Nat) (payload : Bytes) (frame : FrameIndex) :
    pipeline.deliver now payload frame = pure (false, pipeline) ∨
      ∃ session buffer inputs, pipeline.current = some session ∧ session.state = .running ∧
        session.inputs = buffer :: inputs ∧
        pipeline.deliver now payload frame =
          pipeline.submit { session with inputs } buffer now payload frame := by
  cases hroom : pipeline.hasRoom with
  | false => exact .inl (deliver_of_no_room hroom now payload frame)
  | true =>
    obtain ⟨session, buffer, inputs, hcurrent, hrunning, hinputs⟩ := hasRoom_iff.mp hroom
    exact .inr ⟨session, buffer, inputs, hcurrent, hrunning, hinputs,
      deliver_of_room hcurrent hrunning hinputs now payload frame⟩

section

variable (pipeline : Pipeline ε σ) (session : Session σ) (buffer now : Nat) (payload : Bytes)
  (frame : FrameIndex)

/-- What is said of a payload before its buffer is filled. -/
def announcements : List Notice :=
  (if hasKeyframeSlice pipeline.settings.codec payload && pipeline.links.client then
    [.waiting false] else []) ++
  (if !opensWithParameterSet pipeline.settings.codec payload && pipeline.links.latency then
    [.decoderInput frame] else []) ++
  [.inputCapacity buffer]

omit [Engine ε σ] in
@[simp] theorem imagesOf_announcements :
    imagesOf (pipeline.announcements buffer payload frame) = [] := by
  unfold announcements
  split <;> split <;> rfl

variable {pipeline session buffer now payload frame}

theorem submit_of_error {error : DecoderError}
    (h : Engine.capacity ε session.engine buffer = .error error) :
    pipeline.submit session buffer now payload frame =
      ⟨(false, { pipeline with current := some session }),
        pipeline.announcements buffer payload frame⟩ := by
  apply Outcome.ext
  · simp [submit, Session.capacity, h]
  · simp [submit, Session.capacity, h, announcements]

/-- Parameter sets go out as configuration, without a timestamp or a frame. -/
theorem submit_configuration {capacity : Nat}
    (h : Engine.capacity ε session.engine buffer = .ok capacity)
    (hconf : opensWithParameterSet pipeline.settings.codec payload = true) :
    pipeline.submit session buffer now payload frame =
      (let done := session.submit (ε := ε) buffer (payload.take capacity) 0
        { configuration := true }
      ⟨(done.value.1.isOk, { pipeline with current := some done.value.2 }),
        pipeline.announcements buffer payload frame ++ done.notices⟩) := by
  apply Outcome.ext
  · simp [submit, Session.capacity, h, hconf]
  · simp [submit, Session.capacity, h, hconf, announcements]

/-- A picture goes out with a new timestamp, and its frame is in the slot of that. -/
theorem submit_picture {capacity : Nat}
    (h : Engine.capacity ε session.engine buffer = .ok capacity)
    (hconf : opensWithParameterSet pipeline.settings.codec payload = false) :
    pipeline.submit session buffer now payload frame =
      (let pts := (pipeline.clock.next now).1
      let done := (session.withFrames (session.surface.frames.set pts frame)).submit (ε := ε)
        buffer (payload.take capacity) pts
        { keyframe := hasKeyframeSlice pipeline.settings.codec payload }
      ⟨(done.value.1.isOk,
          { pipeline with clock := (pipeline.clock.next now).2, current := some done.value.2 }),
        pipeline.announcements buffer payload frame ++ done.notices⟩) := by
  apply Outcome.ext
  · simp [submit, Session.capacity, h, hconf, Session.withFrames]
  · simp [submit, Session.capacity, h, hconf, announcements, Session.withFrames]

end

/-- What delivering a payload may come to. What goes into the engine comes from the running session,
without the input buffer that it takes. -/
inductive Delivered (pipeline : Pipeline ε σ) (now : Nat) (payload : Bytes) (frame : FrameIndex) :
    Outcome (Bool × Pipeline ε σ) → Prop where
  | dropped : Delivered pipeline now payload frame (pure (false, pipeline))
  | refused (session : Session σ) (buffer : Nat) (inputs : List Nat)
      (hcurrent : pipeline.current = some session) :
      Delivered pipeline now payload frame
        ⟨(false, { pipeline with current := some { session with inputs } }),
          pipeline.announcements buffer payload frame⟩
  | configuration (session : Session σ) (buffer capacity : Nat) (inputs : List Nat)
      (sent : Outcome (Except DecoderError Unit × Session σ))
      (hcurrent : pipeline.current = some session)
      (hconf : opensWithParameterSet pipeline.settings.codec payload = true)
      (hsent : sent = ({ session with inputs } : Session σ).submit (ε := ε) buffer
        (payload.take capacity) 0 { configuration := true }) :
      Delivered pipeline now payload frame
        ⟨(sent.value.1.isOk, { pipeline with current := some sent.value.2 }),
          pipeline.announcements buffer payload frame ++ sent.notices⟩
  | picture (session : Session σ) (buffer capacity : Nat) (inputs : List Nat)
      (sent : Outcome (Except DecoderError Unit × Session σ))
      (hcurrent : pipeline.current = some session)
      (hconf : opensWithParameterSet pipeline.settings.codec payload = false)
      (hsent : sent = (({ session with inputs } : Session σ).withFrames
          (session.surface.frames.set (pipeline.clock.next now).1 frame)).submit (ε := ε) buffer
        (payload.take capacity) (pipeline.clock.next now).1
        { keyframe := hasKeyframeSlice pipeline.settings.codec payload }) :
      Delivered pipeline now payload frame
        ⟨(sent.value.1.isOk,
            { pipeline with clock := (pipeline.clock.next now).2, current := some sent.value.2 }),
          pipeline.announcements buffer payload frame ++ sent.notices⟩

theorem deliver_delivered (pipeline : Pipeline ε σ) (now : Nat) (payload : Bytes)
    (frame : FrameIndex) :
    pipeline.Delivered now payload frame (pipeline.deliver now payload frame) := by
  obtain hdrop | ⟨session, buffer, inputs, hcurrent, -, -, hsubmit⟩ :=
    pipeline.deliver_cases now payload frame
  · rw [hdrop]
    exact .dropped
  rw [hsubmit]
  let fed : Session σ := { session with inputs }
  cases hcapacity : Engine.capacity ε fed.engine buffer with
  | error error =>
    rw [submit_of_error hcapacity]
    exact .refused session buffer inputs hcurrent
  | ok capacity =>
    cases hconf : opensWithParameterSet pipeline.settings.codec payload with
    | true =>
      rw [submit_configuration hcapacity hconf]
      exact .configuration session buffer capacity inputs _ hcurrent hconf rfl
    | false =>
      rw [submit_picture hcapacity hconf]
      exact .picture session buffer capacity inputs _ hcurrent hconf rfl

end Pipeline

namespace Session

variable {ε σ : Type} [Engine ε σ]

/-- What submitting a buffer does, read off the engine's reply. -/
theorem submit_eq (session : Session σ) (buffer : Nat) (data : Bytes) (pts : Nat)
    (flags : BufferFlags) :
    session.submit (ε := ε) buffer data pts flags =
      (let reply := Engine.submit ε session.engine buffer data pts flags
      let heard := ({ session with engine := reply.session } : Session σ).hearAll reply.reports
      ⟨(reply.result, heard.value.2), .submit buffer data pts flags :: heard.notices⟩) := by
  apply Outcome.ext
  · rfl
  · simp [submit]

/-- An output that is handled has its frame reported, if its slot holds one, and is given back. -/
theorem handle_output (session : Session σ) (latency : Bool) (buffer pts : Nat) :
    session.handle (ε := ε) latency (.output buffer pts) =
      (let done := session.release (ε := ε) buffer true
      let reported := if latency then (session.surface.frames.get? pts).toList else []
      ⟨(done.value.2.1 ≠ 0, done.value.2.2), reported.map .decoderOutput ++ done.notices⟩) := by
  cases hframe : session.surface.frames.get? pts with
  | none => apply Outcome.ext <;> simp [handle, hframe]
  | some frame => cases latency <;> apply Outcome.ext <;> simp [handle, hframe]

end Session

end HeadsetStream.Decoder
