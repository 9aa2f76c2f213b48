import HeadsetStream.Proofs.KeyframeRequests

/-!
# A picture of the test pattern on its way through the decoder

An access unit of the test pattern carries one picture, behind parameter sets if it is a keyframe.
In loopback it goes all the way through a pipeline that is between two packets: it is taken, its
frame is reported, and its image is published. What is noticed meanwhile is known to the last
notice.
-/

namespace HeadsetStream.Bitstream.TestPattern

/-- An access unit of the pattern. -/
def unit (codec : Codec) (keyframe : Bool) : Bytes :=
  if keyframe then parameterSets codec ++ keyframeSlice codec else deltaSlice codec

theorem next_eq (pattern : TestPattern) (forced : Bool) :
    pattern.next forced =
      (unit pattern.codec (pattern.atKeyframe forced), { pattern with frame := pattern.frame + 1 }) :=
  rfl

theorem configurationPrefix_unit (codec : Codec) (keyframe : Bool) :
    configurationPrefix codec (unit codec keyframe) =
      if keyframe then parameterSets codec else [] := by
  cases codec <;> cases keyframe <;> decide

theorem hasKeyframeSlice_unit (codec : Codec) (keyframe : Bool) :
    hasKeyframeSlice codec (unit codec keyframe) = keyframe := by
  cases codec <;> cases keyframe <;> decide

/-- Behind the parameter sets there is a slice. -/
theorem opensWithParameterSet_payload (codec : Codec) (keyframe : Bool) :
    opensWithParameterSet codec (Decoder.Pipeline.payload
      (configurationPrefix codec (unit codec keyframe)) (unit codec keyframe)) = false := by
  cases codec <;> cases keyframe <;> decide

theorem kind_unit (codec : Codec) (keyframe : Bool) :
    PacketKind.of codec (unit codec keyframe) = if keyframe then .keyframe else .delta := by
  cases codec <;> cases keyframe <;> decide

end HeadsetStream.Bitstream.TestPattern

namespace HeadsetStream.Decoder
open Bitstream Settings Video

/-- What is noticed of a picture with this frame that is queued in loopback and drained. -/
inductive Pictured (opens keyframe : Bool) (frame : FrameIndex) : List Notice → Prop where
  | mk (buffer number pts : Nat) (data : Bytes) (flags : BufferFlags) :
    Pictured opens keyframe frame
      ((if opens then [.renderMode .video] else []) ++ (if keyframe then [.waiting false] else []) ++
        [.decoderInput frame, .inputCapacity buffer, .submit buffer data pts flags,
          .decoderOutput frame, .release number true,
          .image ⟨SimulatedSession.imageAt pts, frame⟩])

theorem Pictured.opened {opens keyframe : Bool} {frame : FrameIndex} {notices : List Notice}
    (h : Pictured false keyframe frame notices) :
    Pictured opens keyframe frame ((if opens then [.renderMode .video] else []) ++ notices) := by
  cases h with
  | mk buffer number pts data flags =>
    have hopened : Pictured opens keyframe frame _ := .mk buffer number pts data flags
    rw [List.append_assoc] at hopened
    exact hopened

namespace TrialPipeline.Ready

variable {pipeline : TrialPipeline} {packet : Bytes} {frame : FrameIndex}

private theorem deliver_picture (h : pipeline.Ready) (hlinks : pipeline.links = {})
    (hcurrent : pipeline.current.isSome = true) (hframe : frame ≠ .null) (now : Nat)
    {payload : Bytes} (hpicture : opensWithParameterSet pipeline.settings.codec payload = false) :
    let delivered := pipeline.deliver now payload frame
    let drained := delivered.value.2.drain
    delivered.value.1 = true ∧ Ready drained.value ∧ drained.value.current.isSome = true ∧
      Pictured false (hasKeyframeSlice pipeline.settings.codec payload) frame
        (delivered.notices ++ drained.notices) := by
  intro delivered drained
  obtain ⟨session, hsession⟩ := Option.isSome_iff_exists.mp hcurrent
  obtain ⟨hready, hinput, hroom⟩ := h.current session hsession
  obtain ⟨buffer, inputs, hinputs⟩ := List.exists_cons_of_ne_nil hinput
  obtain ⟨haccepted, ⟨later, clock, hlater, hkept, hvalue⟩, played, hplayed, hnotices⟩ :=
    plays_of_ready hsession hready hinputs hroom now payload frame
  have hfree : later.HasInput := by
    rw [hinputs, List.length_cons] at hroom
    rw [Session.HasInput, hkept]
    exact Session.hasInput_append hroom buffer
  have hnamed : frame.named? = some frame := FrameIndex.named?_eq_some_iff.mpr ⟨rfl, hframe⟩
  rw [hpicture] at hplayed
  refine ⟨haccepted, ?_, ?_, ?_⟩
  · rw [show drained.value = _ from hvalue]
    exact h.withCurrent hlater hfree _ _ _
  · rw [show drained.value = _ from hvalue]
    rfl
  · rw [show delivered.notices ++ drained.notices = _ from hnotices]
    cases hplayed with
    | @picture data pts number flags hflags =>
      have hpictured : Pictured false (hasKeyframeSlice pipeline.settings.codec payload) frame _ :=
        .mk buffer number pts data flags
      simpa [Pipeline.announcements, hpicture, hlinks, imagesOfFrame, hnamed] using hpictured

/-- A picture that is queued, with parameter sets or behind some, is taken, shown and given up. -/
theorem queue_picture (h : pipeline.Ready) (hlinks : pipeline.links = {})
    (hframe : frame ≠ .null) (now : Nat)
    (hsession : pipeline.current.isSome = true ∨
      pipeline.needsSession (configurationPrefix pipeline.settings.codec packet) = true)
    (hpicture : opensWithParameterSet pipeline.settings.codec
      (Pipeline.payload (configurationPrefix pipeline.settings.codec packet) packet) = false) :
    let queued := pipeline.queue now packet frame
    let drained := queued.value.2.drain
    queued.value.1 = true ∧ Ready drained.value ∧ drained.value.current.isSome = true ∧
      Pictured (pipeline.needsSession (configurationPrefix pipeline.settings.codec packet))
        (hasKeyframeSlice pipeline.settings.codec packet) frame
        (queued.notices ++ drained.notices) := by
  let csd := configurationPrefix pipeline.settings.codec packet
  let prepared := pipeline.prepare csd
  obtain ⟨hready, -, hopened, hnotices⟩ := h.prepare csd
  obtain ⟨hsettings, hkept, -⟩ := pipeline.prepare_kept csd
  have hcurrent : prepared.value.2.current.isSome = true := by
    cases hneeds : pipeline.needsSession csd with
    | true => exact hopened hneeds
    | false =>
      have hsame : prepared = pure (0, pipeline) := by simp [prepared, Pipeline.prepare, hneeds]
      rw [hsame]
      exact hsession.resolve_right (by rw [show _ = false from hneeds]; exact Bool.false_ne_true)
  have hpayload : opensWithParameterSet prepared.value.2.settings.codec
      (Pipeline.payload csd packet) = false := by
    rw [hsettings]
    exact hpicture
  obtain ⟨haccepted, hdrained, hsome, hpictured⟩ := hready.deliver_picture (hkept.trans hlinks)
    hcurrent hframe (Pipeline.delayed now prepared.value.1) hpayload
  let delivered := prepared.value.2.deliver (Pipeline.delayed now prepared.value.1)
    (Pipeline.payload csd packet) frame
  have hqueue : pipeline.queue now packet frame =
      ⟨delivered.value, prepared.notices ++ delivered.notices⟩ :=
    Pipeline.queue_eq pipeline now packet frame
  simp only [hqueue]
  refine ⟨haccepted, hdrained, hsome, ?_⟩
  rw [hsettings, Pipeline.hasKeyframeSlice_payload] at hpictured
  rw [show prepared.notices = _ from hnotices, List.append_assoc]
  exact hpictured.opened

end TrialPipeline.Ready

end HeadsetStream.Decoder
