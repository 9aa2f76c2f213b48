import HeadsetStream.Proofs.SurfaceFrames

/-!
# What a session has noticed

While a session takes a buffer or handles its events, all that is noticed tells of the session: of
its buffers, of the pictures it decodes and of their images. What else is noticed when a packet is
queued comes before its buffer is filled: that a session has started, and the announcements of the
payload.
-/

namespace HeadsetStream

/-- Tells of a session's buffers, of a picture that it decoded or of an image. -/
def Notice.ofSession : Notice → Bool
  | .image _ | .decoderOutput _ | .inputCapacity _ | .submit .. | .release .. => true
  | _ => false

theorem Notice.Shows.ofSession {owned : Video.FrameIndex → Prop} {notice : Notice}
    (h : notice.Shows owned) : notice.ofSession = true := by
  obtain ⟨decoded, rfl, -⟩ := h
  rfl

end HeadsetStream

namespace HeadsetStream.Decoder
open Video Bitstream

/-- All that is noticed tells of a session. -/
def TellsOfSession {α : Type} (outcome : Outcome α) : Prop :=
  outcome.Ensures (fun _ => True) fun notice => notice.ofSession = true

namespace Session

variable {ε σ : Type}

theorem hearAll_tells (session : Session σ) (reports : List Callback) :
    TellsOfSession (session.hearAll reports) := by
  refine ⟨trivial, fun notice hmem => ?_⟩
  obtain ⟨decoded, rfl⟩ := image_of_mem_hearAll reports hmem
  rfl

private theorem settle_tells (session : Session σ) : TellsOfSession session.settle := by
  have hsettle := session.surface.carries_any.settle
  refine Outcome.Ensures.bind (P := fun _ => True) ⟨trivial, fun notice hmem => ?_⟩
    fun _ _ => .of_pure trivial
  exact (hsettle.2 notice hmem).ofSession

variable [Engine ε σ]

theorem submit_tells (session : Session σ) (buffer : Nat) (data : Bytes) (pts : Nat)
    (flags : BufferFlags) : TellsOfSession (session.submit (ε := ε) buffer data pts flags) := by
  refine ⟨trivial, fun notice hmem => ?_⟩
  rw [submit_eq] at hmem
  rcases List.mem_cons.mp hmem with rfl | hmem
  · rfl
  · exact (hearAll_tells _ _).2 notice hmem

private theorem handle_tells (session : Session σ) (latency : Bool) (event : Event) :
    TellsOfSession (session.handle (ε := ε) latency event) := by
  cases event with
  | formatChanged => exact .of_pure trivial
  | fault => exact .of_pure trivial
  | output buffer pts =>
    refine ⟨trivial, fun notice hmem => ?_⟩
    rw [handle_output] at hmem
    rcases List.mem_append.mp hmem with hmem | hmem
    · obtain ⟨frame, -, rfl⟩ := List.mem_map.mp hmem
      rfl
    · simp only [release, Outcome.notices_bind, Outcome.notices_say, Outcome.notices_pure,
        List.append_nil, List.singleton_append, List.mem_cons] at hmem
      rcases hmem with rfl | hmem
      · rfl
      · exact (hearAll_tells _ _).2 notice hmem

private theorem handleAll_tells (session : Session σ) (latency : Bool) (events : List Event) :
    TellsOfSession (session.handleAll (ε := ε) latency events) := by
  induction events generalizing session with
  | nil => exact .of_pure trivial
  | cons event rest ih =>
    unfold handleAll
    refine (session.handle_tells latency event).bind fun handled _ => ?_
    dsimp only
    split
    · exact .of_pure trivial
    · exact ih handled.2

theorem drain_tells (session : Session σ) (latency : Bool) :
    TellsOfSession (session.drain (ε := ε) latency) :=
  (session.handleAll_tells latency session.events).bind fun later _ => later.settle_tells

end Session

namespace Pipeline

variable {ε σ : Type} [Engine ε σ]

theorem drain_tells (pipeline : Pipeline ε σ) : TellsOfSession pipeline.drain := by
  unfold drain
  split
  · exact .of_pure trivial
  · next session _ =>
    exact (session.drain_tells pipeline.links.latency).bind fun _ _ => .of_pure trivial

/-- A session that is launched where there is none is told of exactly if it starts. -/
private theorem launch_notices {pipeline : Pipeline ε σ} {session : Session σ}
    (hcurrent : pipeline.current = none) (hnone : session.Owns fun _ => False) :
    (pipeline.launch session).notices =
      if (pipeline.launch session).value.2.current.isSome then [.renderMode .video] else [] := by
  rcases hvalue : (session.start (ε := ε)).value with ⟨result, dropped, started⟩
  rw [pipeline.launch_of_start (Outcome.ext hvalue hnone.start_quiet)]
  split
  · rfl
  · simp [hcurrent]

theorem openSession_notices {pipeline : Pipeline ε σ} (hcurrent : pipeline.current = none)
    (csd : Bytes) :
    (pipeline.openSession csd).notices =
      if (pipeline.openSession csd).value.2.current.isSome then [.renderMode .video] else [] := by
  unfold openSession
  split
  · simp [hcurrent]
  cases hcreated : Engine.create pipeline.engine (MediaFormat.video pipeline.settings csd) with
  | mk engine result =>
    cases result with
    | error error => simp [hcreated, hcurrent]
    | ok opened =>
      simp only [hcreated]
      exact launch_notices hcurrent (Session.owns_fresh _ _ _ _)

/-- Whether a packet has a session opened for its parameter sets, and that starts. -/
def startsSession (pipeline : Pipeline ε σ) (packet : Bytes) : Bool :=
  let csd := configurationPrefix pipeline.settings.codec packet
  pipeline.needsSession csd && (pipeline.retire.openSession csd).value.2.current.isSome

theorem prepare_notices_eq (pipeline : Pipeline ε σ) (packet : Bytes) :
    (pipeline.prepare (configurationPrefix pipeline.settings.codec packet)).notices =
      if pipeline.startsSession packet then [.renderMode .video] else [] := by
  unfold prepare startsSession
  split
  · next hneeds =>
    simp only [openSession_notices pipeline.retire_current, hneeds, Bool.true_and]
  · next hneeds =>
    simp [hneeds]

/-- What is said of a payload is said before its buffer is filled. -/
theorem submit_notices (pipeline : Pipeline ε σ) (session : Session σ) (buffer now : Nat)
    (payload : Bytes) (frame : FrameIndex) :
    ∃ rest, (pipeline.submit session buffer now payload frame).notices =
        pipeline.announcements buffer payload frame ++ rest ∧
      ∀ notice ∈ rest, notice.ofSession = true := by
  cases hcapacity : Engine.capacity ε session.engine buffer with
  | error error =>
    rw [submit_of_error hcapacity]
    exact ⟨[], (List.append_nil _).symm, fun _ hmem => absurd hmem List.not_mem_nil⟩
  | ok capacity =>
    cases hconf : opensWithParameterSet pipeline.settings.codec payload with
    | true =>
      rw [submit_configuration hcapacity hconf]
      exact ⟨_, rfl, (Session.submit_tells _ _ _ _ _).2⟩
    | false =>
      rw [submit_picture hcapacity hconf]
      exact ⟨_, rfl, (Session.submit_tells _ _ _ _ _).2⟩

end Pipeline

end HeadsetStream.Decoder
