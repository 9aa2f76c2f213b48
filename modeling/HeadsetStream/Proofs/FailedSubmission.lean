import HeadsetStream.Decoder.Pipeline
import HeadsetStream.Proofs.AwaitedKeyframe
import HeadsetStream.Proofs.SubmissionKind

/-!
# What a packet leaves that is not taken

A packet is prepared before the engine is asked to take it. Once it has an input buffer, the awaited
keyframe is taken for come, the frame is reported and put into the slot of a new timestamp; and the
buffer is gone, whatever the engine says to it then. If the engine refuses the packet, none of this
is taken back. So a packet that failed leaves no trace if there was no buffer for it, and else only
if nothing of this makes a difference.
-/

namespace HeadsetStream.Video.FrameMap

private theorem get?_set_eq_iff {map : FrameMap} {pts : Nat} {index : FrameIndex} :
    (∀ pts', (map.set pts index).get? pts' = map.get? pts') ↔ map.get? pts = index.named? := by
  constructor
  · intro h
    rw [← h pts, get?_set, if_pos rfl]
  · intro h pts'
    rw [get?_set]
    split
    · next hslot => rw [← h, map.get?_congr hslot]
    · rfl

end HeadsetStream.Video.FrameMap

namespace HeadsetStream.Decoder
open Video Bitstream Streaming

/-- A session whose engine reports nothing while it refuses a buffer. -/
def Session.RefusesSilently (ε : Type) {σ : Type} [Engine ε σ] (session : Session σ) : Prop :=
  ∀ buffer data pts flags,
    (Engine.submit ε session.engine buffer data pts flags).result.isOk = false →
      (Engine.submit ε session.engine buffer data pts flags).reports = []

namespace Session

private theorem refusesSilently_simulated (session : Session SimulatedSession) :
    session.RefusesSilently SimulatedEngine := by
  intro buffer data pts flags hrefused
  cases hstopped : session.engine.stopped with
  | true => simp [Engine.submit, SimulatedSession.submit, hstopped]
  | false =>
    have htaken : (session.engine.submit buffer data pts flags).result.isOk = true := by
      simp only [SimulatedSession.submit, hstopped, Bool.false_eq_true, if_false]
      cases session.engine.mode with
      | manual => rfl
      | loopback => cases flags.configuration <;> rfl
    exact absurd (hrefused.symm.trans htaken) Bool.false_ne_true

variable {ε σ : Type} [Engine ε σ]

theorem submit_of_refused {session : Session σ} (h : session.RefusesSilently ε) {buffer : Nat}
    {data : Bytes} {pts : Nat} {flags : BufferFlags}
    (hrefused : (session.submit (ε := ε) buffer data pts flags).value.1.isOk = false) :
    (session.submit (ε := ε) buffer data pts flags).notices = [.submit buffer data pts flags] ∧
      (session.submit (ε := ε) buffer data pts flags).value.2 =
        { session with
          engine := (Engine.submit ε session.engine buffer data pts flags).session } := by
  have hreports := h buffer data pts flags hrefused
  simp only [submit_eq, hreports]
  exact ⟨rfl, rfl⟩

end Session

namespace Pipeline

variable {ε σ : Type} [Engine ε σ]

/-- What a payload leaves that had an input buffer and was refused: all that was said of it, and the
session with the frame in its slot, if the engine had an answer to the buffer's size. -/
structure Refused (pipeline : Pipeline ε σ) (session : Session σ) (buffer now : Nat)
    (payload : Bytes) (frame : FrameIndex) (done : Outcome (Bool × Pipeline ε σ)) : Prop where
  notices : ∃ rest, done.notices = pipeline.announcements buffer payload frame ++ rest ∧
    ∀ notice ∈ rest, ∃ data pts flags, notice = .submit buffer data pts flags
  current : ∃ later, done.value.2.current = some later ∧ later.inputs = session.inputs ∧
    later.surface.frames =
      if opensWithParameterSet pipeline.settings.codec payload = true ∨
          (Engine.capacity ε session.engine buffer).isOk = false then session.surface.frames
      else session.surface.frames.set (pipeline.clock.next now).1 frame

private theorem submit_refused {pipeline : Pipeline ε σ} {session : Session σ}
    (h : session.RefusesSilently ε) {buffer now : Nat} {payload : Bytes} {frame : FrameIndex}
    (hrefused : (pipeline.submit session buffer now payload frame).value.1 = false) :
    pipeline.Refused session buffer now payload frame
      (pipeline.submit session buffer now payload frame) := by
  cases hcapacity : Engine.capacity ε session.engine buffer with
  | error error =>
    rw [submit_of_error hcapacity]
    refine ⟨⟨[], (List.append_nil _).symm, by simp⟩, session, rfl, rfl, ?_⟩
    rw [if_pos (.inr (by rw [hcapacity]; rfl))]
  | ok capacity =>
    cases hconf : opensWithParameterSet pipeline.settings.codec payload with
    | true =>
      rw [submit_configuration hcapacity hconf] at hrefused ⊢
      obtain ⟨hnotices, hvalue⟩ := Session.submit_of_refused h hrefused
      refine ⟨⟨_, rfl, ?_⟩, _, rfl, ?_, ?_⟩
      · simp [hnotices]
      · rw [hvalue]
      · rw [hvalue, if_pos (.inl hconf)]
    | false =>
      rw [submit_picture hcapacity hconf] at hrefused ⊢
      have hnamed : (session.withFrames (session.surface.frames.set (pipeline.clock.next now).1
          frame)).RefusesSilently ε := h
      obtain ⟨hnotices, hvalue⟩ := Session.submit_of_refused hnamed hrefused
      refine ⟨⟨_, rfl, ?_⟩, _, rfl, ?_, ?_⟩
      · simp [hnotices]
      · rw [hvalue]
        rfl
      · rw [hvalue, if_neg (by simp [hconf, hcapacity, Except.isOk, Except.toBool])]
        rfl

/-- Nothing is other than before the packet came: the mark beside the link, the frames in the slots,
the input buffers; and no frame was reported. -/
structure Untraced (link : ServerLink) (session : Session σ)
    (done : Outcome (Bool × Pipeline ε σ)) : Prop where
  waiting : (link.observeAll done.notices).waiting = link.waiting
  unreported : ∀ frame, .decoderInput frame ∉ done.notices
  current : ∃ later, done.value.2.current = some later ∧
    (∀ pts, later.surface.frames.get? pts = session.surface.frames.get? pts) ∧
    ∀ buffer, buffer ∈ later.inputs ↔ buffer ∈ session.inputs

theorem Refused.waiting_iff {pipeline : Pipeline ε σ} {session : Session σ} {buffer now : Nat}
    {payload : Bytes} {frame : FrameIndex} {done : Outcome (Bool × Pipeline ε σ)}
    (h : pipeline.Refused session buffer now payload frame done) (link : ServerLink) :
    (link.observeAll done.notices).waiting = link.waiting ↔
      ¬ (hasKeyframeSlice pipeline.settings.codec payload = true ∧
        pipeline.links.client = true ∧ link.waiting = true) := by
  obtain ⟨rest, hnotices, hrest⟩ := h.notices
  have hsilent : rest.filter Notice.onKeyframes = [] := by
    rw [List.filter_eq_nil_iff]
    intro notice hmem
    obtain ⟨data, pts, flags, rfl⟩ := hrest notice hmem
    exact Bool.false_ne_true
  rw [link.waiting_observeAll, hnotices, List.filter_append, hsilent, List.append_nil,
    announcements_onKeyframes]
  cases hasKeyframeSlice pipeline.settings.codec payload <;> cases pipeline.links.client <;>
    cases hwaiting : link.waiting <;> simp [lastSet, Notice.waitingSetting]

theorem Refused.unreported_iff {pipeline : Pipeline ε σ} {session : Session σ}
    {buffer now : Nat} {payload : Bytes} {frame : FrameIndex} {done : Outcome (Bool × Pipeline ε σ)}
    (h : pipeline.Refused session buffer now payload frame done) :
    (∀ other, .decoderInput other ∉ done.notices) ↔
      opensWithParameterSet pipeline.settings.codec payload = true ∨
        pipeline.links.latency = false := by
  obtain ⟨rest, hnotices, hrest⟩ := h.notices
  have hmem : ∀ other, .decoderInput other ∈ done.notices ↔
      .decoderInput other ∈ pipeline.announcements buffer payload frame := by
    intro other
    rw [hnotices, List.mem_append]
    refine or_iff_left fun hmem => ?_
    obtain ⟨data, pts, flags, heq⟩ := hrest _ hmem
    exact nomatch heq
  simp only [hmem, announcements]
  cases hasKeyframeSlice pipeline.settings.codec payload <;> cases pipeline.links.client <;>
    cases opensWithParameterSet pipeline.settings.codec payload <;>
    cases pipeline.links.latency <;> simp

/-- The buffer is gone unless the engine has offered it once more, and the frame is in its slot. -/
theorem Refused.current_iff {pipeline : Pipeline ε σ} {session : Session σ} {buffer now : Nat}
    {inputs : List Nat} {payload : Bytes} {frame : FrameIndex}
    {done : Outcome (Bool × Pipeline ε σ)} (hinputs : session.inputs = buffer :: inputs)
    (h : pipeline.Refused { session with inputs } buffer now payload frame done) :
    (∃ later, done.value.2.current = some later ∧
        (∀ pts, later.surface.frames.get? pts = session.surface.frames.get? pts) ∧
        ∀ number, number ∈ later.inputs ↔ number ∈ session.inputs) ↔
      buffer ∈ inputs ∧
        (opensWithParameterSet pipeline.settings.codec payload = true ∨
          (Engine.capacity ε session.engine buffer).isOk = false ∨
          session.surface.frames.get? (pipeline.clock.next now).1 = frame.named?) := by
  obtain ⟨later, hlater, hkept, hframes⟩ := h.current
  have hbuffers : (∀ number, number ∈ later.inputs ↔ number ∈ session.inputs) ↔
      buffer ∈ inputs := by
    rw [hkept, hinputs]
    constructor
    · exact fun hsame => (hsame buffer).mpr List.mem_cons_self
    · intro hmem number
      rw [List.mem_cons, iff_or_self]
      rintro rfl
      exact hmem
  have hslots : (∀ pts, later.surface.frames.get? pts = session.surface.frames.get? pts) ↔
      (opensWithParameterSet pipeline.settings.codec payload = true ∨
        (Engine.capacity ε session.engine buffer).isOk = false ∨
        session.surface.frames.get? (pipeline.clock.next now).1 = frame.named?) := by
    rw [hframes]
    split
    · next hunmapped => exact ⟨fun _ => hunmapped.imp id .inl, fun _ _ => rfl⟩
    · next hmapped =>
      obtain ⟨hpicture, hanswered⟩ := not_or.mp hmapped
      rw [or_iff_right hpicture, or_iff_right hanswered]
      exact FrameMap.get?_set_eq_iff
  rw [← hbuffers, ← hslots]
  constructor
  · rintro ⟨other, hother, hsame, hmem⟩
    obtain rfl := Option.some.inj (hlater.symm.trans hother)
    exact ⟨hmem, hsame⟩
  · rintro ⟨hmem, hsame⟩
    exact ⟨later, hlater, hsame, hmem⟩

/-- A packet that failed in a running session has left no trace exactly if there was no buffer for
it, or else another of the same number is free, no awaited keyframe is taken for come, and it is
configuration, or its frame is not reported and no slot holds another one for it. -/
theorem untraced_iff (link : ServerLink) {pipeline : Pipeline ε σ} {session : Session σ}
    (hcurrent : pipeline.current = some session) (hrunning : session.state = .running)
    (hsilent : session.RefusesSilently ε) {now : Nat} {packet : Bytes} {frame : FrameIndex}
    (hstays : pipeline.needsSession (configurationPrefix pipeline.settings.codec packet) = false)
    (hfailed : (pipeline.queue now packet frame).value.1 = false) :
    let codec := pipeline.settings.codec
    let configuration :=
      opensWithParameterSet codec (payload (configurationPrefix codec packet) packet)
    Untraced link session (pipeline.queue now packet frame) ↔
      session.inputs = [] ∨ ∃ buffer inputs, session.inputs = buffer :: inputs ∧
        buffer ∈ inputs ∧
        ¬ (hasKeyframeSlice codec packet = true ∧ pipeline.links.client = true ∧
          link.waiting = true) ∧
        (configuration = true ∨ pipeline.links.latency = false ∧
          ((Engine.capacity ε session.engine buffer).isOk = false ∨
            session.surface.frames.get? (pipeline.clock.next now).1 = frame.named?)) := by
  intro codec configuration
  rw [queue_of_current hstays] at hfailed ⊢
  cases hinputs : session.inputs with
  | nil =>
    have hroom : pipeline.hasRoom = false := by simp [hasRoom, hcurrent, hinputs]
    rw [deliver_of_no_room hroom]
    refine iff_of_true ⟨rfl, fun _ => List.not_mem_nil, session, hcurrent, ?_, ?_⟩ (.inl rfl)
    · exact fun _ => rfl
    · exact fun _ => Iff.rfl
  | cons buffer inputs =>
    rw [deliver_of_room hcurrent hrunning hinputs] at hfailed ⊢
    -- The buffer was there, so that it was the engine that refused.
    have hfed : ({ session with inputs } : Session σ).RefusesSilently ε := hsilent
    have hrefused := submit_refused hfed hfailed
    have hkeyframe := hasKeyframeSlice_payload codec packet
    have hwaiting := hrefused.waiting_iff link
    rw [hkeyframe] at hwaiting
    constructor
    · rintro ⟨hmark, hunreported, hsame⟩
      obtain ⟨hbuffer, hslot⟩ := (Refused.current_iff hinputs hrefused).mp hsame
      refine .inr ⟨buffer, inputs, rfl, hbuffer, hwaiting.mp hmark, ?_⟩
      rcases hrefused.unreported_iff.mp hunreported with hconf | hlatency
      · exact .inl hconf
      · exact hslot.imp id fun hslot => ⟨hlatency, hslot⟩
    · rintro (hnil | ⟨_, _, hcons, hbuffer, hmark, hpicture⟩)
      · exact nomatch hnil
      obtain ⟨rfl, rfl⟩ := List.cons.inj hcons
      refine ⟨hwaiting.mpr hmark, hrefused.unreported_iff.mpr ?_,
        (Refused.current_iff hinputs hrefused).mpr ⟨hbuffer, ?_⟩⟩
      · exact hpicture.imp id And.left
      · exact hpicture.imp id And.right

/-- A pipeline by hand whose one input buffer has the parameter sets. -/
def exhausted : TrialPipeline :=
  ((TrialPipeline.manual {} {} 1).queue 0 (TestPattern.parameterSets .h264) 0).value.2

theorem untraced_without_buffer :
    ∃ session, exhausted.current = some session ∧
      (exhausted.queue 3 (TestPattern.keyframeSlice .h264) 7).value.1 = false ∧
      Untraced { capacity := 8, waiting := true } session
        (exhausted.queue 3 (TestPattern.keyframeSlice .h264) 7) := by
  refine ⟨_, rfl, rfl, ?_⟩
  exact (untraced_iff _ rfl rfl (Session.refusesSilently_simulated _) rfl rfl).mpr (.inl rfl)

/-- A pipeline by hand that has its parameter sets, and whose session's engine was stopped. -/
def halted : TrialPipeline :=
  (configured.withSession 0 fun session =>
    pure ((), { session with engine := Engine.stop SimulatedEngine session.engine })).value.2

/-- A keyframe that is refused has its frame reported and takes the mark and a buffer away. -/
theorem refused_keyframe_leaves_traces :
    ∃ session, halted.current = some session ∧ session.state = .running ∧
      halted.needsSession (configurationPrefix .h264 (TestPattern.keyframeSlice .h264)) = false ∧
      (halted.queue 3 (TestPattern.keyframeSlice .h264) 7).value.1 = false ∧
      ¬ Untraced { capacity := 8, waiting := true } session
        (halted.queue 3 (TestPattern.keyframeSlice .h264) 7) := by
  refine ⟨_, rfl, rfl, rfl, rfl, fun huntraced => ?_⟩
  have hnotices : (halted.queue 3 (TestPattern.keyframeSlice .h264) 7).notices =
      [.waiting false, .decoderInput 7, .inputCapacity 1] := rfl
  exact huntraced.unreported 7 (by simp [hnotices])

end Pipeline

end HeadsetStream.Decoder
