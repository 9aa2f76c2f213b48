import HeadsetStream.Bitstream.TestPattern
import HeadsetStream.Proofs.LastSetting
import HeadsetStream.Proofs.LoopbackDecoding
import HeadsetStream.Streaming.Bench

/-!
# The frame that is shown

On a bench with the loopback engine, what a render shows can be read off what has happened to the
client: the video, if a session was started since the last stream began or the server went, and of
it the last frame that went into the decoder since the textures were cleared.
-/

namespace HeadsetStream

/-- The mode that a notice sets. -/
def Notice.modeSetting : Notice → Option RenderMode
  | .renderMode mode => some mode
  | _ => none

/-- The published frame that a notice sets. -/
def Notice.frameSetting : Notice → Option (Option Video.FrameIndex)
  | .image decoded => some decoded.frame.named?
  | .clear => some none
  | _ => none

namespace Headset.Simulated

variable (headset : Simulated) (notices : List Notice)

private theorem mode_observe (notice : Notice) :
    (headset.observe notice).mode = notice.modeSetting.getD headset.mode := by
  cases notice <;> rfl

private theorem frame_observe (notice : Notice) :
    (headset.observe notice).textures.frame =
      notice.frameSetting.getD headset.textures.frame := by
  cases notice <;> simp [observe, Notice.frameSetting]

theorem mode_observeAll :
    (headset.observeAll notices).mode = lastSet Notice.modeSetting headset.mode notices := by
  induction notices generalizing headset with
  | nil => rfl
  | cons notice rest ih =>
    have hrest := ih (headset.observe notice)
    rw [mode_observe] at hrest
    exact hrest

private theorem frame_observeAll :
    (headset.observeAll notices).textures.frame =
      lastSet Notice.frameSetting headset.textures.frame notices := by
  induction notices generalizing headset with
  | nil => rfl
  | cons notice rest ih =>
    have hrest := ih (headset.observe notice)
    rw [frame_observe] at hrest
    exact hrest

end Headset.Simulated

end HeadsetStream

namespace HeadsetStream.Tracking.Sampler

theorem tick_off (sampler : Sampler) (now : Nat) (sensors : Sensors) :
    (sampler.tick now sensors).notices.filter Notice.onScreen = [] := by
  have hview : (sampler.sendView sensors.view).notices.filter Notice.onScreen = [] := by
    unfold sendView
    split
    · split <;> rfl
    · rfl
  have hsample : (sampler.sample now sensors).notices.filter Notice.onScreen = [] := by
    simp only [sample, Outcome.notices_bind, List.filter_append, hview, List.nil_append]
    split
    · simp only [Outcome.notices_bind, List.filter_append]
      split <;> rfl
    · rfl
  unfold tick
  split
  · simpa using hsample
  · rfl

end HeadsetStream.Tracking.Sampler

namespace HeadsetStream.Streaming
open Bitstream Decoder Settings Signal Video Wire

/-- Something that is done with a bench, or goes on around it. -/
inductive Action where
  | setStream (now : Nat) (settings : StreamSettings)
  | receive (now : Nat) (packet : Bytes)
  | render (now : Nat)
  | disconnect
  | shutdown
  | tick (now : Nat)
  | fetch

/-- What happens to a client as far as the screen is concerned. -/
inductive Happening where
  | streamSet
  | disconnected
  | shutDown
  | sessionStarted
  /-- A video packet was accepted and submitted as a picture of this frame. -/
  | accepted (frame : FrameIndex)
  deriving DecidableEq, Repr

namespace Happening

/-- The mode that the headset is in from then on. -/
def modeSetting : Happening → Option RenderMode
  | streamSet | disconnected => some .lobby
  | sessionStarted => some .video
  | shutDown | accepted _ => none

/-- The frame that is published from then on. -/
def frameSetting : Happening → Option (Option FrameIndex)
  | streamSet | shutDown => some none
  | accepted frame => frame.named?.map some
  | disconnected | sessionStarted => none

end Happening

/-- How many sessions were opened for the stream. -/
def Decoding.sessionCount {ε σ : Type} (decoding : Decoding ε σ) : Nat :=
  match decoding.pipeline with
  | some pipeline => pipeline.sessions.length
  | none => 0

/-- Whether a session was started between two states of decoding. -/
def Decoding.hasStarted {ε σ : Type} (before after : Decoding ε σ) : Bool :=
  before.sessionCount < after.sessionCount &&
    after.pipeline.map (·.state) = some .running

namespace Bench

def perform (bench : Bench) : Action → Bench
  | .setStream now settings => (bench.setStream now settings).value
  | .receive now packet => (bench.receive now packet).value.2
  | .render now => (bench.render now).value.2
  | .disconnect => bench.disconnect.value
  | .shutdown => bench.shutdown.value
  | .tick now => (bench.tick now).value.2
  | .fetch => bench.fetch.2

/-- The picture that went into the decoder, if the packet was accepted as one. -/
def pictureOf (packet : Bytes) (done : Outcome (Except PacketError Bool × Bench)) :
    List Happening :=
  match done.value.1, Packet.ofBytes packet with
  | .ok true, .ok (.video header _) =>
    if done.notices.any Notice.isPicture then [.accepted header.frame] else []
  | _, _ => []

/-- What happens when something is done. -/
def happenings (bench : Bench) : Action → List Happening
  | .setStream .. => [.streamSet]
  | .disconnect => [.disconnected]
  | .shutdown => [.shutDown]
  | .receive now packet =>
    let done := bench.receive now packet
    (if bench.client.decoding.hasStarted done.value.2.client.decoding then
      [.sessionStarted] else []) ++ pictureOf packet done
  | .render _ | .tick _ | .fetch => []

def run (bench : Bench) (actions : List Action) : Bench := actions.foldl perform bench

def history (bench : Bench) : List Action → List Happening
  | [] => []
  | action :: rest => bench.happenings action ++ history (bench.perform action) rest

end Bench

/-- Notices that change the screen as these happenings say. -/
structure Shows (notices : List Notice) (happenings : List Happening) : Prop where
  mode : ∀ mode, lastSet Notice.modeSetting mode notices =
    lastSet Happening.modeSetting mode happenings
  frame : ∀ frame, lastSet Notice.frameSetting frame notices =
    lastSet Happening.frameSetting frame happenings

namespace Shows

variable {notices first rest : List Notice} {happenings later : List Happening}

/-- Only what is on the screen counts. -/
theorem of_filter (h : Shows (notices.filter Notice.onScreen) happenings) :
    Shows notices happenings := by
  have hmode : ∀ notice : Notice, notice.onScreen = false → notice.modeSetting = none := by
    intro notice hoff
    cases notice <;> first | rfl | exact nomatch hoff
  have hframe : ∀ notice : Notice, notice.onScreen = false → notice.frameSetting = none := by
    intro notice hoff
    cases notice <;> first | rfl | exact nomatch hoff
  constructor
  · intro mode
    rw [← h.mode mode, lastSet_filter hmode]
  · intro frame
    rw [← h.frame frame, lastSet_filter hframe]

theorem append (hfirst : Shows first happenings) (hrest : Shows rest later) :
    Shows (first ++ rest) (happenings ++ later) := by
  constructor
  · intro mode
    rw [lastSet_append, lastSet_append, hfirst.mode, hrest.mode]
  · intro frame
    rw [lastSet_append, lastSet_append, hfirst.frame, hrest.frame]

theorem nothing : Shows [] [] := ⟨fun _ => rfl, fun _ => rfl⟩

theorem of_off (h : notices.filter Notice.onScreen = []) : Shows notices [] := by
  apply of_filter
  rw [h]
  exact nothing

theorem session_started : Shows [.renderMode .video] [.sessionStarted] :=
  ⟨fun _ => rfl, fun _ => rfl⟩

/-- The image of a frame is shown for a picture of it, and a picture without a frame has none. -/
theorem picture (image : SurfaceImage) (frame : FrameIndex) :
    Shows ((imagesOfFrame image frame).map .image) [.accepted frame] := by
  cases hnamed : frame.named? with
  | none =>
    have hnone : imagesOfFrame image frame = [] := by simp [imagesOfFrame, hnamed]
    rw [hnone]
    exact ⟨fun _ => rfl, fun _ => by simp [lastSet, Happening.frameSetting, hnamed]⟩
  | some index =>
    obtain ⟨rfl, -⟩ := FrameIndex.named?_eq_some_iff.mp hnamed
    have hone : imagesOfFrame image frame = [⟨image, frame⟩] := by simp [imagesOfFrame, hnamed]
    rw [hone]
    refine ⟨fun _ => rfl, fun _ => ?_⟩
    simp [lastSet, Happening.frameSetting, Notice.frameSetting, hnamed]

end Shows

/-- A loopback bench on which what is shown is as the history says. -/
structure Bench.Follows (history : List Happening) (bench : Bench) : Prop where
  engine_eq : bench.client.engine = .ok .loopback
  ready : ∀ pipeline, bench.client.decoding.pipeline = some pipeline →
    TrialPipeline.Ready pipeline
  mode_eq : bench.headset.mode = lastSet Happening.modeSetting .lobby history
  frame_eq : bench.headset.textures.frame = lastSet Happening.frameSetting none history

theorem Client.render_eq {ε σ : Type} (client : Client ε σ) (now : Nat)
    (shown : Option FrameIndex) :
    let done := client.render now shown
    done.notices = [.render] ∧ done.value.1 = shown ∧ done.value.2.engine = client.engine ∧
      done.value.2.decoding = client.decoding := by
  cases shown <;> exact ⟨rfl, rfl, rfl, rfl⟩

theorem Client.receiveTimeSync_eq {ε σ : Type} (client : Client ε σ) (now : Nat)
    (sync : TimeSync) :
    let done := client.receiveTimeSync now sync
    done.notices.filter Notice.onScreen = [] ∧ done.value.engine = client.engine ∧
      done.value.decoding = client.decoding := by
  cases hanswer : (client.latency.timeSync (micros now) sync).1 with
  | none => simp [receiveTimeSync, hanswer]
  | some answer => simp [receiveTimeSync, hanswer, Notice.onScreen]

/-- A video packet is queued; all else that is done for it is for the latency figures. -/
theorem Client.receive_video {ε σ : Type} [Engine ε σ] (client : Client ε σ) (now : Nat)
    (waiting : Bool) {packet : Bytes} {header : VideoHeader} {payload : Bytes}
    (hpacket : Packet.ofBytes packet = .ok (.video header payload)) :
    let queued := client.decoding.queue now waiting header payload
    client.receive now waiting packet =
      ⟨(.ok queued.value.1, (client.receiveVideo now waiting header payload).value.2),
        queued.notices⟩ := by
  simp only [Client.receive, hpacket]
  exact Outcome.ext rfl (List.append_nil _)

namespace Decoding

variable {decoding : Decoding SimulatedEngine SimulatedSession}

theorem noticeLoss_off {ε σ : Type} (decoding : Decoding ε σ) (waiting : Bool)
    (counter : UInt32) :
    (decoding.noticeLoss waiting counter).notices.filter Notice.onScreen = [] ∧
      (decoding.noticeLoss waiting counter).notices.any Notice.isPicture = false := by
  unfold noticeLoss
  split <;> exact ⟨rfl, rfl⟩

private theorem hasStarted_eq {ε σ : Type} {before after : Decoding ε σ} {first last : Pipeline ε σ}
    (hbefore : before.pipeline = some first) (hafter : after.pipeline = some last)
    (hrunning : first.sessions.length < last.sessions.length → last.state = .running) :
    before.hasStarted after = decide (first.sessions.length < last.sessions.length) := by
  by_cases hmore : first.sessions.length < last.sessions.length
  · have hstate : last.state = .running := hrunning hmore
    simp [hasStarted, sessionCount, hbefore, hafter, hmore, hstate]
  · simp [hasStarted, sessionCount, hbefore, hafter, hmore]

theorem queue_of_some {ε σ : Type} [Engine ε σ] {decoding : Decoding ε σ}
    {pipeline : Pipeline ε σ} (h : decoding.pipeline = some pipeline) (now : Nat)
    (waiting : Bool) (header : VideoHeader) (payload : Bytes) :
    let queued := pipeline.queue ((now - decoding.started) / 1000) payload header.frame
    let drained := queued.value.2.drain
    decoding.queue now waiting header payload =
      ⟨(queued.value.1, { decoding with
          pipeline := some drained.value
          lastCounter := some header.counter }),
        (decoding.noticeLoss waiting header.counter).notices ++
          (queued.notices ++ drained.notices)⟩ := by
  simp only [queue, h]
  exact Outcome.ext rfl (by simp)

/-- Queueing a video packet shows the session that was opened for it and its picture. -/
private theorem queue_loopback (h : ∀ pipeline, decoding.pipeline = some pipeline →
      TrialPipeline.Ready pipeline) (now : Nat) (waiting : Bool) (header : VideoHeader)
    (payload : Bytes) :
    let queued := decoding.queue now waiting header payload
    (∀ pipeline, queued.value.2.pipeline = some pipeline → TrialPipeline.Ready pipeline) ∧
      Shows queued.notices
        ((if decoding.hasStarted queued.value.2 then [.sessionStarted] else []) ++
          if queued.value.1 && queued.notices.any Notice.isPicture then
            [.accepted header.frame] else []) := by
  cases hpipeline : decoding.pipeline with
  | none =>
    simp only [queue, hpipeline, Outcome.value_pure, Outcome.notices_pure]
    refine ⟨by simp, ?_⟩
    simpa [hasStarted] using Shows.nothing
  | some pipeline =>
    let queued := pipeline.queue ((now - decoding.started) / 1000) payload header.frame
    let drained := queued.value.2.drain
    let loss := decoding.noticeLoss waiting header.counter
    let later : Decoding SimulatedEngine SimulatedSession :=
      { decoding with pipeline := some drained.value, lastCounter := some header.counter }
    obtain ⟨hready, hrunning, image, hscreen⟩ := (h pipeline hpipeline).queue_drain
      ((now - decoding.started) / 1000) payload header.frame
    obtain ⟨hoff, hpicture⟩ := decoding.noticeLoss_off waiting header.counter
    have hstarted : decoding.hasStarted later =
        decide (pipeline.sessions.length < drained.value.sessions.length) :=
      hasStarted_eq hpipeline rfl hrunning
    simp only [queue_of_some hpipeline]
    refine ⟨?_, ?_⟩
    · rintro later ⟨⟩
      exact hready
    · rw [List.any_append, hpicture, Bool.false_or]
      rw [show hasStarted decoding _ = _ from hstarted]
      apply (Shows.of_off hoff).append
      apply Shows.of_filter
      simp only [decide_eq_true_eq]
      rw [show List.filter _ (queued.notices ++ _) = _ from hscreen]
      apply Shows.append
      · split
        · exact Shows.session_started
        · exact Shows.nothing
      · split
        · exact Shows.picture image header.frame
        · exact Shows.nothing

end Decoding

namespace Bench.Follows

variable {history : List Happening} {bench : Bench}

/-- The screen goes along with the history as long as notices and happenings agree. -/
theorem observe (h : bench.Follows history) {later : Bench} {notices : List Notice}
    {happenings : List Happening} (hengine : later.client.engine = bench.client.engine)
    (hready : ∀ pipeline, later.client.decoding.pipeline = some pipeline →
      TrialPipeline.Ready pipeline)
    (hheadset : later.headset = bench.headset.observeAll notices)
    (hshows : Shows notices happenings) : later.Follows (history ++ happenings) where
  engine_eq := hengine.trans h.engine_eq
  ready := hready
  mode_eq := by
    rw [hheadset, Headset.Simulated.mode_observeAll, hshows.mode, h.mode_eq, lastSet_append]
  frame_eq := by
    rw [hheadset, Headset.Simulated.frame_observeAll, hshows.frame, h.frame_eq, lastSet_append]

theorem new (filter : PoseFilterParams) : (Bench.new .loopback filter).Follows [] where
  engine_eq := rfl
  ready _ h := nomatch h
  mode_eq := rfl
  frame_eq := rfl

theorem setStream (h : bench.Follows history) (now : Nat) (settings : StreamSettings) :
    (bench.perform (.setStream now settings)).Follows (history ++ [.streamSet]) := by
  refine h.observe rfl ?_ rfl ⟨fun _ => rfl, fun _ => rfl⟩
  intro pipeline hpipeline
  have hstart : bench.client.decoding.start now true bench.client.engine settings.decoder =
      { pipeline := some { settings := settings.decoder, engine := .loopback }
        started := now } := by
    rw [h.engine_eq]
    rfl
  have hnew : (bench.client.decoding.start now true bench.client.engine
      settings.decoder).pipeline = some pipeline := hpipeline
  rw [hstart] at hnew
  cases hnew
  exact ⟨rfl, rfl, rfl, fun _ hnone => nomatch hnone⟩

private theorem receive_error (h : bench.Follows history) (now : Nat) {packet : Bytes}
    {error : PacketError} (hpacket : Packet.ofBytes packet = .error error) :
    (bench.perform (.receive now packet)).Follows
      (history ++ bench.happenings (.receive now packet)) := by
  have hreceive : bench.client.receive now bench.link.waiting packet =
      pure (.error error, bench.client) := by
    simp only [Client.receive, hpacket]
  have hseen : bench.happenings (.receive now packet) = [] := by
    simp [happenings, Bench.receive, hreceive, after, Decoding.hasStarted, pictureOf]
  rw [hseen, Bench.perform, Bench.receive, hreceive]
  exact h.observe rfl h.ready rfl Shows.nothing

private theorem receive_timeSync (h : bench.Follows history) (now : Nat) {packet : Bytes}
    {sync : TimeSync} (hpacket : Packet.ofBytes packet = .ok (.timeSync sync)) :
    (bench.perform (.receive now packet)).Follows
      (history ++ bench.happenings (.receive now packet)) := by
  let synced := bench.client.receiveTimeSync now sync
  have hreceive : bench.client.receive now bench.link.waiting packet =
      ⟨(.ok false, synced.value), synced.notices⟩ := by
    simp only [Client.receive, hpacket]
    exact Outcome.ext rfl (List.append_nil _)
  obtain ⟨hoff, hengine, hdecoding⟩ := bench.client.receiveTimeSync_eq now sync
  have hsame : synced.value.decoding = bench.client.decoding := hdecoding
  have hseen : bench.happenings (.receive now packet) = [] := by
    simp [happenings, Bench.receive, hreceive, after, Decoding.hasStarted, pictureOf, hsame]
  rw [hseen, Bench.perform, Bench.receive, hreceive]
  refine h.observe hengine ?_ rfl (Shows.of_off hoff)
  intro pipeline hpipeline
  apply h.ready
  rw [← hsame]
  exact hpipeline

theorem receive_video (h : bench.Follows history) (now : Nat) {packet : Bytes}
    {header : VideoHeader} {payload : Bytes}
    (hpacket : Packet.ofBytes packet = .ok (.video header payload)) :
    (bench.perform (.receive now packet)).Follows
      (history ++ bench.happenings (.receive now packet)) := by
  let queued := bench.client.decoding.queue now bench.link.waiting header payload
  let received := bench.client.receiveVideo now bench.link.waiting header payload
  have hreceive : bench.client.receive now bench.link.waiting packet =
      ⟨(.ok queued.value.1, received.value.2), queued.notices⟩ :=
    bench.client.receive_video now bench.link.waiting hpacket
  obtain ⟨hready, hshows⟩ := Decoding.queue_loopback h.ready now bench.link.waiting header payload
  have hseen : bench.happenings (.receive now packet) =
      (if bench.client.decoding.hasStarted queued.value.2 then [.sessionStarted] else []) ++
      if queued.value.1 && queued.notices.any Notice.isPicture then
        [.accepted header.frame] else [] := by
    simp only [happenings, Bench.receive, hreceive, after]
    have hlater : received.value.2.decoding = queued.value.2 := rfl
    rw [hlater]
    cases queued.value.1 <;> simp [pictureOf, hpacket]
  rw [hseen, Bench.perform, Bench.receive, hreceive]
  exact h.observe rfl hready rfl hshows

theorem receive (h : bench.Follows history) (now : Nat) (packet : Bytes) :
    (bench.perform (.receive now packet)).Follows
      (history ++ bench.happenings (.receive now packet)) := by
  cases hpacket : Packet.ofBytes packet with
  | error error => exact h.receive_error now hpacket
  | ok parsed =>
    cases parsed with
    | timeSync sync => exact h.receive_timeSync now hpacket
    | video header payload => exact h.receive_video now hpacket

theorem tick (h : bench.Follows history) (now : Nat) :
    (bench.perform (.tick now)).Follows (history ++ []) := by
  refine h.observe rfl h.ready rfl (Shows.of_off ?_)
  have hoff := bench.client.sampler.tick_off now (bench.sensors now)
  simpa [Client.tick] using hoff

theorem perform (h : bench.Follows history) (action : Action) :
    (bench.perform action).Follows (history ++ bench.happenings action) := by
  cases action with
  | setStream now settings => exact h.setStream now settings
  | receive now packet => exact h.receive now packet
  | render now =>
    obtain ⟨hnotices, -, hengine, hdecoding⟩ := bench.client.render_eq now bench.headset.shown
    refine h.observe hengine ?_ rfl ?_
    · intro pipeline hpipeline
      apply h.ready
      rw [← hdecoding]
      exact hpipeline
    · rw [hnotices]
      exact ⟨fun _ => rfl, fun _ => rfl⟩
  | disconnect =>
    exact h.observe rfl h.ready rfl ⟨fun _ => rfl, fun _ => rfl⟩
  | shutdown =>
    refine h.observe rfl (fun _ hnone => nomatch hnone) rfl ⟨fun _ => rfl, fun _ => rfl⟩
  | tick now => exact h.tick now
  | fetch => exact h.observe rfl h.ready rfl Shows.nothing

theorem run (h : bench.Follows history) (actions : List Action) :
    (bench.run actions).Follows (history ++ bench.history actions) := by
  induction actions generalizing history bench with
  | nil =>
    rw [Bench.history, List.append_nil]
    exact h
  | cons action rest ih =>
    have hrest := ih (h.perform action)
    rw [List.append_assoc] at hrest
    exact hrest

end Bench.Follows

/-- The headset shows the video exactly if a session was started and since then no stream began and
the server did not go. -/
private theorem modeSetting_video_iff {history : List Happening} :
    lastSet Happening.modeSetting .lobby history = .video ↔
      ∃ before after, history = before ++ .sessionStarted :: after ∧
        .streamSet ∉ after ∧ .disconnected ∉ after := by
  constructor
  · intro hvideo
    obtain ⟨before, happening, after, rfl, hset, hafter⟩ :=
      (lastSet_eq_iff (by decide)).mp hvideo
    obtain rfl : happening = .sessionStarted := by
      cases happening <;> first | rfl | exact nomatch hset
    have hunset (later : Happening) (hset : later.modeSetting ≠ none) : later ∉ after :=
      fun hmem => hset (hafter later hmem)
    exact ⟨before, after, rfl, hunset _ (by simp [Happening.modeSetting]),
      hunset _ (by simp [Happening.modeSetting])⟩
  · rintro ⟨before, after, rfl, hstream, hdisconnected⟩
    rw [List.append_cons]
    apply lastSet_append_of_kept
    · rw [lastSet_append_singleton]
      rfl
    · intro happening hmem
      cases happening with
      | streamSet => exact absurd hmem hstream
      | disconnected => exact absurd hmem hdisconnected
      | shutDown => exact .inl rfl
      | sessionStarted => exact .inr rfl
      | accepted frame => exact .inl rfl

/-- A frame is published exactly if it is that of the last picture of a frame that was accepted, and
since then the textures were not cleared. -/
private theorem frameSetting_iff {history : List Happening} {frame : FrameIndex} :
    lastSet Happening.frameSetting none history = some frame ↔
      ∃ before after, history = before ++ .accepted frame :: after ∧ frame ≠ .null ∧
        .streamSet ∉ after ∧ .shutDown ∉ after ∧
        ∀ later, .accepted later ∈ after → later = .null := by
  have haccepted : ∀ index : FrameIndex,
      (Happening.accepted index).frameSetting = some (some frame) ↔
        index = frame ∧ frame ≠ .null := by
    intro index
    rw [← FrameIndex.named?_eq_some_iff]
    simp [Happening.frameSetting]
  have hnull : ∀ index : FrameIndex,
      (Happening.accepted index).frameSetting = none ↔ index = .null := by
    intro index
    simp [Happening.frameSetting, FrameIndex.named?]
  rw [lastSet_eq_iff (by simp)]
  constructor
  · rintro ⟨before, happening, after, rfl, hset, hafter⟩
    cases happening with
    | streamSet => simp [Happening.frameSetting] at hset
    | disconnected => exact nomatch hset
    | shutDown => simp [Happening.frameSetting] at hset
    | sessionStarted => exact nomatch hset
    | accepted index =>
      obtain ⟨rfl, hframe⟩ := (haccepted index).mp hset
      have hunset (later : Happening) (hset : later.frameSetting ≠ none) : later ∉ after :=
        fun hmem => hset (hafter later hmem)
      exact ⟨before, after, rfl, hframe, hunset _ (by simp [Happening.frameSetting]),
        hunset _ (by simp [Happening.frameSetting]),
        fun later hmem => (hnull later).mp (hafter _ hmem)⟩
  · rintro ⟨before, after, rfl, hframe, hstream, hshut, hlater⟩
    refine ⟨before, _, after, rfl, (haccepted frame).mpr ⟨rfl, hframe⟩, ?_⟩
    intro happening hmem
    cases happening with
    | streamSet => exact absurd hmem hstream
    | disconnected => rfl
    | shutDown => exact absurd hmem hshut
    | sessionStarted => rfl
    | accepted index => exact (hnull index).mpr (hlater index hmem)

/-- After any actions on a loopback bench a render shows a frame exactly if a session was started
since the last stream began or the server went, and the frame is that of the last picture of a frame
that was accepted since the textures were cleared. -/
theorem render_eq_some_iff (filter : PoseFilterParams) (actions : List Action) (now : Nat)
    (frame : FrameIndex) :
    let start := Bench.new .loopback filter
    let history := start.history actions
    ((start.run actions).render now).value.1 = some frame ↔
      (∃ before after, history = before ++ .sessionStarted :: after ∧
        .streamSet ∉ after ∧ .disconnected ∉ after) ∧
      ∃ before after, history = before ++ .accepted frame :: after ∧ frame ≠ .null ∧
        .streamSet ∉ after ∧ .shutDown ∉ after ∧
        ∀ later, .accepted later ∈ after → later = .null := by
  intro start history
  -- The screen is a fold over the notices, and the history a list of what they came from: both are
  -- asked for the last setting, of the mode and of the frame.
  have hfollows : (start.run actions).Follows history := (Bench.Follows.new filter).run actions
  have hrender : ((start.run actions).render now).value.1 = (start.run actions).headset.shown :=
    ((start.run actions).client.render_eq now _).2.1
  rw [hrender, ← modeSetting_video_iff, ← frameSetting_iff, ← hfollows.mode_eq,
    ← hfollows.frame_eq]
  unfold Headset.Simulated.shown
  cases (start.run actions).headset.mode <;> simp

/-- A keyframe with its parameter sets is shown, and after a picture without a frame it still is. -/
example :
    let packet (frame : FrameIndex) (payload : Bytes) : Bytes :=
      VideoHeader.toBytes { (default : VideoHeader) with frame } payload
    let keyframe := TestPattern.parameterSets .h264 ++ TestPattern.keyframeSlice .h264
    let actions : List Action := [.setStream 0 {}, .receive 0 (packet 7 keyframe),
      .receive 0 (packet .null (TestPattern.deltaSlice .h264))]
    (((Bench.new .loopback {}).run actions).render 0).value.1 = some 7 := by rfl

end HeadsetStream.Streaming
