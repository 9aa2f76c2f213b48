import HeadsetStream.Bitstream.TestPattern
import HeadsetStream.Proofs.ConfigurationPrefix
import HeadsetStream.Proofs.ManualDecoding
import HeadsetStream.Proofs.SurfaceFrames

/-!
# What a packet is submitted as

A packet is classified by its units, but what is submitted of it is marked by its payload: the
packet without its leading parameter sets. The marks agree with the packet's kind exactly when no
byte stands in front of a first parameter set. A packet that opens with one late is submitted as
configuration whatever else is in it.
-/

namespace HeadsetStream.Bitstream

/-- The first unit is a parameter set, but something stands in front of it. -/
def OpensLate (codec : Codec) (packet : Bytes) : Prop :=
  ∃ unit, (units codec packet).head? = some unit ∧ unit.offset ≠ 0 ∧
    unit.isParameterSet codec = true

/-- What a payload is marked as. -/
def PacketKind.ofPayload (codec : Codec) (payload : Bytes) : PacketKind :=
  if opensWithParameterSet codec payload then .configuration
  else if hasKeyframeSlice codec payload then .keyframe
  else .delta

section

variable {codec : Codec} {packet payload : Bytes}

theorem PacketKind.ofPayload_eq_configuration_iff :
    ofPayload codec payload = .configuration ↔ opensWithParameterSet codec payload = true := by
  unfold ofPayload
  cases opensWithParameterSet codec payload <;> cases hasKeyframeSlice codec payload <;> simp

private theorem PacketKind.ofPayload_eq_keyframe_iff
    (h : opensWithParameterSet codec payload = false) :
    ofPayload codec payload = .keyframe ↔ hasKeyframeSlice codec payload = true := by
  unfold ofPayload
  cases hasKeyframeSlice codec payload <;> simp [h]

theorem opensWithParameterSet_iff :
    opensWithParameterSet codec packet = true ↔
      ∃ unit, (units codec packet).head? = some unit ∧ unit.isParameterSet codec = true := by
  unfold opensWithParameterSet
  cases units codec packet <;> simp

theorem opensWithParameterSet_iff_cases :
    opensWithParameterSet codec packet = true ↔
      OpensWith codec packet (·.isParameterSet codec = true) ∨ OpensLate codec packet := by
  rw [opensWithParameterSet_iff]
  constructor
  · rintro ⟨unit, hunit, hset⟩
    by_cases hfront : unit.offset = 0
    · exact .inl ⟨unit, hunit, hfront, hset⟩
    · exact .inr ⟨unit, hunit, hfront, hset⟩
  · rintro (⟨unit, hunit, -, hset⟩ | ⟨unit, hunit, -, hset⟩)
    · exact ⟨unit, hunit, hset⟩
    · exact ⟨unit, hunit, hset⟩

private theorem OpensLate.not_opensWith {property : NalUnit → Prop} (h : OpensLate codec packet) :
    ¬ OpensWith codec packet property := by
  rintro ⟨unit, hunit, hfront, -⟩
  obtain ⟨unit', hunit', hlate, -⟩ := h
  rw [hunit, Option.some.injEq] at hunit'
  subst hunit'
  exact hlate hfront

end

end HeadsetStream.Bitstream

namespace HeadsetStream.Decoder
open Video Bitstream Settings

section

variable (codec : Codec) (packet : Bytes)

/-- Behind its leading parameter sets a packet is marked as what it is; a packet without any is
marked as it stands. -/
private theorem ofPayload_payload :
    PacketKind.ofPayload codec (Pipeline.payload (configurationPrefix codec packet) packet) =
      if opensWithParameterSet codec packet ∧ configurationPrefix codec packet = [] then
        .configuration
      else PacketKind.of codec packet := by
  have hsplit := splitsInto_configurationPrefix codec packet
  have hopens : configurationPrefix codec packet ≠ [] → opensWithParameterSet codec packet := by
    intro hne
    exact opensWithParameterSet_iff_cases.mpr (.inl (hsplit.head_ne_nil_iff.mp hne))
  rw [PacketKind.of_eq, PacketKind.ofPayload, Pipeline.payload]
  by_cases hempty : configurationPrefix codec packet = []
  · have hwhole : (if (configurationPrefix codec packet).length = packet.length then packet
        else packet.drop (configurationPrefix codec packet).length) = packet := by
      simp [hempty]
    rw [hwhole]
    simp [hempty]
  · by_cases hall : (configurationPrefix codec packet).length = packet.length
    · simp [hempty, hall, hopens hempty]
    · have hnone : opensWithParameterSet codec (pictureData codec packet) = false := by
        rw [Bool.eq_false_iff, ne_eq, opensWithParameterSet_iff]
        rintro ⟨unit, hunit, hset⟩
        rcases hsplit.rest_opens hempty with hrest | ⟨other, hother, -, hnot⟩
        · rw [hrest] at hunit
          exact nomatch hunit
        · rw [hother, Option.some.injEq] at hunit
          subst hunit
          exact absurd (hnot.symm.trans hset) Bool.false_ne_true
      simp [hempty, hall, drop_configurationPrefix, hnone, ← hasKeyframeSlice_eq]

end

namespace Pipeline

variable {ε σ : Type} [Engine ε σ]

/-- What is submitted from a packet of this kind, and what else is done for it: only configuration
has no timestamp, no frame and no report. -/
structure SubmitsAs (kind : PacketKind) (pipeline : Pipeline ε σ) (frame : FrameIndex)
    (done : Outcome (Bool × Pipeline ε σ)) (buffer : Nat) (data : Bytes) (pts : Nat)
    (flags : BufferFlags) : Prop where
  configuration : flags.configuration = true ↔ kind = .configuration
  keyframe : flags.keyframe = true ↔ kind = .keyframe
  untimed : pts = 0 ↔ kind = .configuration
  fresh : kind ≠ .configuration → pipeline.clock.last < pts ∧ done.value.2.clock.last = pts
  /-- The session that the buffer goes into has the frame in the slot of its timestamp. -/
  mapped : kind ≠ .configuration → ∃ session : Session σ,
    session.surface.frames.get? pts = frame.named? ∧
      done.value.2.current = some (session.submit (ε := ε) buffer data pts flags).value.2
  reported : .decoderInput frame ∈ done.notices ↔
    kind ≠ .configuration ∧ pipeline.links.latency = true

theorem SubmitsAs.unique {kind kind' : PacketKind} {pipeline : Pipeline ε σ} {frame : FrameIndex}
    {done : Outcome (Bool × Pipeline ε σ)} {buffer : Nat} {data : Bytes} {pts : Nat}
    {flags : BufferFlags} (h : SubmitsAs kind pipeline frame done buffer data pts flags)
    (h' : SubmitsAs kind' pipeline frame done buffer data pts flags) : kind = kind' := by
  have hconf := h.configuration.symm.trans h'.configuration
  have hkey := h.keyframe.symm.trans h'.keyframe
  cases kind <;> cases kind' <;> simp at hconf hkey ⊢

section

variable {pipeline : Pipeline ε σ} {now buffer number pts : Nat} {payload data : Bytes}
  {frame : FrameIndex} {flags : BufferFlags}

omit [Engine ε σ] in
private theorem decoderInput_mem_announcements :
    .decoderInput frame ∈ pipeline.announcements buffer payload frame ↔
      opensWithParameterSet pipeline.settings.codec payload = false ∧
        pipeline.links.latency = true := by
  unfold announcements
  cases hasKeyframeSlice pipeline.settings.codec payload <;> cases pipeline.links.client <;>
    cases opensWithParameterSet pipeline.settings.codec payload <;>
    cases pipeline.links.latency <;> simp

omit [Engine ε σ] in
theorem submit_not_mem_announcements :
    .submit buffer data pts flags ∉ pipeline.announcements number payload frame := by
  unfold announcements
  split <;> split <;> simp

/-- Of all that is said for a payload, one notice is the submission, and one at most reports the
frame. -/
theorem submission_notices (pipeline : Pipeline ε σ) (session : Session σ) (pts' : Nat)
    (data' : Bytes) (flags' : BufferFlags) :
    let notices := pipeline.announcements number payload frame ++
      (session.submit (ε := ε) number data' pts' flags').notices
    (.submit buffer data pts flags ∈ notices →
        buffer = number ∧ data = data' ∧ pts = pts' ∧ flags = flags') ∧
      (.decoderInput frame ∈ notices ↔
        opensWithParameterSet pipeline.settings.codec payload = false ∧
          pipeline.links.latency = true) := by
  have hsubmit : ∀ notice ∈ (session.submit (ε := ε) number data' pts' flags').notices,
      notice = .submit number data' pts' flags' ∨ ∃ decoded, notice = .image decoded := by
    intro notice hmem
    rw [Session.submit_eq] at hmem
    exact (List.mem_cons.mp hmem).imp id (Session.image_of_mem_hearAll _)
  constructor
  · intro hmem
    rcases List.mem_append.mp hmem with hmem | hmem
    · exact absurd hmem submit_not_mem_announcements
    · rcases hsubmit _ hmem with heq | ⟨decoded, heq⟩
      · simpa using heq
      · exact nomatch heq
  · rw [List.mem_append, decoderInput_mem_announcements]
    refine or_iff_left fun hmem => ?_
    rcases hsubmit _ hmem with heq | ⟨decoded, heq⟩
    · exact nomatch heq
    · exact nomatch heq

/-- What a session is given is marked by the payload. -/
private theorem deliver_submitsAs
    (h : .submit buffer data pts flags ∈ (pipeline.deliver now payload frame).notices) :
    SubmitsAs (PacketKind.ofPayload pipeline.settings.codec payload) pipeline frame
      (pipeline.deliver now payload frame) buffer data pts flags := by
  have hdelivered := pipeline.deliver_delivered now payload frame
  generalize pipeline.deliver now payload frame = done at h hdelivered ⊢
  cases hdelivered with
  | dropped => exact absurd h List.not_mem_nil
  | refused => exact absurd h submit_not_mem_announcements
  | configuration session number capacity inputs sent _ hconf hsent =>
    subst hsent
    have hkind := PacketKind.ofPayload_eq_configuration_iff.mpr hconf
    obtain ⟨hmem, hreported⟩ := pipeline.submission_notices { session with inputs } 0
      (payload.take capacity) { configuration := true }
    obtain ⟨rfl, rfl, rfl, rfl⟩ := hmem h
    rw [hkind]
    refine ⟨by simp, by simp, by simp, by simp, by simp, ?_⟩
    simpa [hconf] using hreported
  | picture session number capacity inputs sent _ hconf hsent =>
    subst hsent
    have hlater := pipeline.clock.last_lt_next now
    let fed : Session σ := { session with inputs }
    let named := fed.withFrames (fed.surface.frames.set (pipeline.clock.next now).1 frame)
    obtain ⟨hmem, hreported⟩ := pipeline.submission_notices named
      (pipeline.clock.next now).1 (payload.take capacity)
      { keyframe := hasKeyframeSlice pipeline.settings.codec payload }
    obtain ⟨rfl, rfl, rfl, rfl⟩ := hmem h
    have hframe : named.surface.frames.get? (pipeline.clock.next now).1 = frame.named? := by
      rw [show named.surface.frames = fed.surface.frames.set _ frame from rfl,
        FrameMap.get?_set, if_pos rfl]
    have hkind : PacketKind.ofPayload pipeline.settings.codec payload ≠ .configuration := by
      rw [ne_eq, PacketKind.ofPayload_eq_configuration_iff, hconf]
      exact Bool.false_ne_true
    refine ⟨by simp [hkind], (PacketKind.ofPayload_eq_keyframe_iff hconf).symm, ?_,
      fun _ => ⟨hlater, rfl⟩, fun _ => ⟨named, hframe, rfl⟩, ?_⟩
    · exact ⟨fun hzero => by omega, fun h => absurd h hkind⟩
    · simpa [hconf, hkind] using hreported

end

/-- Whatever a packet has in front of it, what is submitted is marked by the payload. -/
private theorem queue_submitsAs (pipeline : Pipeline ε σ) {now buffer pts : Nat}
    {packet data : Bytes} {frame : FrameIndex} {flags : BufferFlags}
    (h : .submit buffer data pts flags ∈ (pipeline.queue now packet frame).notices) :
    let codec := pipeline.settings.codec
    SubmitsAs (PacketKind.ofPayload codec (payload (configurationPrefix codec packet) packet))
      pipeline frame (pipeline.queue now packet frame) buffer data pts flags := by
  intro codec
  let prepared := pipeline.prepare (configurationPrefix codec packet)
  let delivered := prepared.value.2.deliver (delayed now prepared.value.1)
    (payload (configurationPrefix codec packet) packet) frame
  obtain ⟨hsettings, hlinks, hclock⟩ := pipeline.prepare_kept (configurationPrefix codec packet)
  have hmodes := pipeline.prepare_notices (configurationPrefix codec packet)
  have hqueue : pipeline.queue now packet frame =
      ⟨delivered.value, prepared.notices ++ delivered.notices⟩ :=
    pipeline.queue_eq now packet frame
  rw [hqueue] at h ⊢
  have hmem : .submit buffer data pts flags ∈ delivered.notices := by
    rcases List.mem_append.mp h with hmem | hmem
    · exact nomatch hmodes _ hmem
    · exact hmem
  obtain ⟨hconf, hkey, huntimed, hfresh, hmapped, hreported⟩ := deliver_submitsAs hmem
  rw [hsettings] at hconf hkey huntimed hfresh hmapped hreported
  refine ⟨hconf, hkey, huntimed, ?_, hmapped, ?_⟩
  · rw [← hclock]
    exact hfresh
  · rw [List.mem_append, ← hlinks, or_iff_right]
    · exact hreported
    · exact fun hmem => nomatch hmodes _ hmem

/-- What is submitted of a packet is marked as what the packet is, exactly if the packet does not
open late. One that does is submitted as configuration. -/
theorem submitsAs_kind_iff (pipeline : Pipeline ε σ) {now buffer pts : Nat} {packet data : Bytes}
    {frame : FrameIndex} {flags : BufferFlags}
    (h : .submit buffer data pts flags ∈ (pipeline.queue now packet frame).notices) :
    let codec := pipeline.settings.codec
    (SubmitsAs (PacketKind.of codec packet) pipeline frame (pipeline.queue now packet frame)
        buffer data pts flags ↔ ¬ OpensLate codec packet) ∧
      (OpensLate codec packet → SubmitsAs .configuration pipeline frame
        (pipeline.queue now packet frame) buffer data pts flags) := by
  intro codec
  let sent := payload (configurationPrefix codec packet) packet
  have hsubmits : SubmitsAs (PacketKind.ofPayload codec sent) pipeline frame
      (pipeline.queue now packet frame) buffer data pts flags := pipeline.queue_submitsAs h
  have hlate : opensWithParameterSet codec packet = true ∧ configurationPrefix codec packet = [] ↔
      OpensLate codec packet := by
    have hlead := (splitsInto_configurationPrefix codec packet).head_ne_nil_iff
    rw [opensWithParameterSet_iff_cases]
    constructor
    · rintro ⟨hopens | hopens, hempty⟩
      · exact absurd hempty (hlead.mpr hopens)
      · exact hopens
    · intro hopens
      exact ⟨.inr hopens, by_contra fun hne => hopens.not_opensWith (hlead.mp hne)⟩
  rw [ofPayload_payload] at hsubmits
  by_cases hopens : OpensLate codec packet
  · rw [if_pos (hlate.mpr hopens)] at hsubmits
    refine ⟨⟨fun hkind => ?_, fun hnot => absurd hopens hnot⟩, fun _ => hsubmits⟩
    -- No parameter sets in front, so that the packet is not configuration itself.
    have hof : PacketKind.of codec packet = .configuration := hkind.unique hsubmits
    simp only [PacketKind.of_eq, (hlate.mpr hopens).2, ne_eq, not_true_eq_false, false_and,
      if_false] at hof
    split at hof <;> exact nomatch hof
  · rw [if_neg (mt hlate.mp hopens)] at hsubmits
    exact ⟨⟨fun _ => hopens, fun _ => hsubmits⟩, fun hlate' => absurd hlate' hopens⟩

def configured : TrialPipeline :=
  ((TrialPipeline.manual {} {} 4).queue 0 (TestPattern.parameterSets .h264) 0).value.2

def lateKeyframe : Bytes :=
  0 :: (TestPattern.parameterSets .h264 ++ TestPattern.keyframeSlice .h264)

theorem submitsAs_keyframeSlice :
    SubmitsAs .keyframe configured 7 (configured.queue 3 (TestPattern.keyframeSlice .h264) 7)
      1 (TestPattern.keyframeSlice .h264) 3 { keyframe := true } := by
  have hsubmit : .submit 1 (TestPattern.keyframeSlice .h264) 3 { keyframe := true } ∈
      (configured.queue 3 (TestPattern.keyframeSlice .h264) 7).notices := by
    have hnotices : (configured.queue 3 (TestPattern.keyframeSlice .h264) 7).notices =
        [.waiting false, .decoderInput 7, .inputCapacity 1,
          .submit 1 (TestPattern.keyframeSlice .h264) 3 { keyframe := true }] := by rfl
    simp [hnotices]
  refine (submitsAs_kind_iff configured hsubmit).1.mpr ?_
  rintro ⟨unit, hunit, hlate, -⟩
  have hfirst : (units .h264 (TestPattern.keyframeSlice .h264)).head? =
      some { offset := 0, startCodeLength := 4, type := 5 } := by decide
  obtain rfl := Option.some.inj (hunit.symm.trans hfirst)
  exact hlate rfl

/-- A keyframe that opens late goes out as configuration: untimed, unmapped and unreported. -/
theorem late_keyframe_submitted_as_configuration :
    PacketKind.of .h264 lateKeyframe = .keyframe ∧
      ¬ ∀ (buffer : Nat) (data : Bytes) (pts : Nat) (flags : BufferFlags),
        .submit buffer data pts flags ∈ (configured.queue 3 lateKeyframe 7).notices →
        SubmitsAs (PacketKind.of .h264 lateKeyframe) configured 7
          (configured.queue 3 lateKeyframe 7) buffer data pts flags := by
  have hkind : PacketKind.of .h264 lateKeyframe = .keyframe := by decide
  have hnotices : (configured.queue 3 lateKeyframe 7).notices =
      [.waiting false, .inputCapacity 1,
        .submit 1 lateKeyframe 0 { configuration := true }] := by rfl
  refine ⟨hkind, fun hall => ?_⟩
  have hsubmits := hall 1 lateKeyframe 0 { configuration := true } (by simp [hnotices])
  have hconf := hsubmits.configuration.mp rfl
  rw [hkind] at hconf
  exact nomatch hconf

end Pipeline

end HeadsetStream.Decoder
