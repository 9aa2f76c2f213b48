import HeadsetStream.Proofs.ConfigurationPrefix
import HeadsetStream.Proofs.LastSetting
import HeadsetStream.Proofs.SessionNotices
import HeadsetStream.Streaming.ServerLink

/-!
# The keyframe that is awaited

Beside the link to the server stands a mark that a keyframe is asked for and not yet here. Of all
that is noticed while a packet is queued and drained, one thing has to do with it: the mark is taken
away as soon as a packet with a keyframe slice gets an input buffer of a running session.
-/

namespace HeadsetStream

/-- Whether a notice has to do with the keyframe that is asked for. -/
def Notice.onKeyframes : Notice → Bool
  | .waiting _ | .requestKeyframe => true
  | _ => false

/-- What a notice sets the mark to. -/
def Notice.waitingSetting : Notice → Option Bool
  | .waiting value => some value
  | _ => none

private theorem Notice.waitingSetting_eq_none {notice : Notice} (h : notice.onKeyframes = false) :
    notice.waitingSetting = none := by
  cases notice <;> first | rfl | exact nomatch h

theorem Notice.onKeyframes_of_ofSession {notice : Notice} (h : notice.ofSession = true) :
    notice.onKeyframes = false := by
  cases notice <;> first | rfl | exact nomatch h

namespace Streaming.ServerLink

theorem waiting_observe (link : ServerLink) (notice : Notice) :
    (link.observe notice).waiting = notice.waitingSetting.getD link.waiting := by
  cases notice <;> simp [observe, Notice.waitingSetting, Message.ofNotice?]

/-- The mark is what it was set to last. -/
theorem waiting_observeAll (link : ServerLink) (notices : List Notice) :
    (link.observeAll notices).waiting =
      lastSet Notice.waitingSetting link.waiting (notices.filter Notice.onKeyframes) := by
  rw [lastSet_filter fun _ => Notice.waitingSetting_eq_none]
  induction notices generalizing link with
  | nil => rfl
  | cons notice rest ih =>
    have hrest := ih (link.observe notice)
    rw [waiting_observe] at hrest
    exact hrest

end Streaming.ServerLink

end HeadsetStream

namespace HeadsetStream.Decoder
open Video Bitstream

/-- Nothing is said of keyframes. -/
def SaysNothing {α : Type} (outcome : Outcome α) : Prop :=
  outcome.Ensures (fun _ => True) fun notice => notice.onKeyframes = false

theorem SaysNothing.filter {α : Type} {outcome : Outcome α} (h : SaysNothing outcome) :
    outcome.notices.filter Notice.onKeyframes = [] := by
  rw [List.filter_eq_nil_iff]
  intro notice hmem
  simp [h.2 notice hmem]

theorem TellsOfSession.saysNothing {α : Type} {outcome : Outcome α} (h : TellsOfSession outcome) :
    SaysNothing outcome :=
  h.imp (fun _ => id) fun _ => Notice.onKeyframes_of_ofSession

namespace Pipeline

variable {ε σ : Type} [Engine ε σ]

/-- Whether a packet that comes now gets an input buffer of a running session. -/
def getsBuffer (pipeline : Pipeline ε σ) (packet : Bytes) : Bool :=
  (pipeline.prepare (configurationPrefix pipeline.settings.codec packet)).value.2.hasRoom

omit [Engine ε σ] in
theorem announcements_onKeyframes (pipeline : Pipeline ε σ) (buffer : Nat) (payload : Bytes)
    (frame : FrameIndex) :
    (pipeline.announcements buffer payload frame).filter Notice.onKeyframes =
      if hasKeyframeSlice pipeline.settings.codec payload && pipeline.links.client then
        [.waiting false] else [] := by
  unfold announcements
  rw [List.filter_append, List.filter_append]
  split <;> split <;> rfl

private theorem deliver_onKeyframes (pipeline : Pipeline ε σ) (now : Nat) (payload : Bytes)
    (frame : FrameIndex) :
    (pipeline.deliver now payload frame).notices.filter Notice.onKeyframes =
      if pipeline.hasRoom && hasKeyframeSlice pipeline.settings.codec payload &&
          pipeline.links.client then [.waiting false] else [] := by
  cases hroom : pipeline.hasRoom with
  | false =>
    rw [deliver_of_no_room hroom]
    rfl
  | true =>
    obtain ⟨session, buffer, inputs, hcurrent, hrunning, hinputs⟩ := hasRoom_iff.mp hroom
    obtain ⟨rest, hnotices, hrest⟩ :=
      pipeline.submit_notices { session with inputs } buffer now payload frame
    -- Behind the announcements nothing is said of keyframes any more.
    have hnothing : rest.filter Notice.onKeyframes = [] := by
      rw [List.filter_eq_nil_iff]
      intro notice hmem
      simp [Notice.onKeyframes_of_ofSession (hrest notice hmem)]
    rw [deliver_of_room hcurrent hrunning hinputs, hnotices, List.filter_append, hnothing,
      List.append_nil, announcements_onKeyframes, Bool.true_and]

/-- Parameter sets hold no keyframe slice, so that none is cut off with them. -/
theorem hasKeyframeSlice_payload (codec : Codec) (packet : Bytes) :
    hasKeyframeSlice codec (payload (configurationPrefix codec packet) packet) =
      hasKeyframeSlice codec packet := by
  unfold payload
  split
  · rfl
  · rw [drop_configurationPrefix, ← hasKeyframeSlice_eq]

/-- The mark is taken away for a packet with a keyframe slice, if that gets a buffer. -/
theorem queue_onKeyframes (pipeline : Pipeline ε σ) (now : Nat) (packet : Bytes)
    (frame : FrameIndex) :
    (pipeline.queue now packet frame).notices.filter Notice.onKeyframes =
      if pipeline.getsBuffer packet && hasKeyframeSlice pipeline.settings.codec packet &&
          pipeline.links.client then [.waiting false] else [] := by
  let csd := configurationPrefix pipeline.settings.codec packet
  let prepared := pipeline.prepare csd
  obtain ⟨hsettings, hlinks, -⟩ := pipeline.prepare_kept csd
  have hmodes : prepared.notices.filter Notice.onKeyframes = [] := by
    rw [List.filter_eq_nil_iff]
    intro notice hmem
    rw [pipeline.prepare_notices csd notice hmem]
    exact Bool.false_ne_true
  have hqueue : (pipeline.queue now packet frame).notices = prepared.notices ++
      (prepared.value.2.deliver (delayed now prepared.value.1) (payload csd packet)
        frame).notices :=
    congrArg Outcome.notices (pipeline.queue_eq now packet frame)
  rw [hqueue, List.filter_append, hmodes, List.nil_append, deliver_onKeyframes, hsettings, hlinks,
    hasKeyframeSlice_payload]
  rfl

end Pipeline

end HeadsetStream.Decoder
