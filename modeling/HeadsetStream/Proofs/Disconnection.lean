import HeadsetStream.Proofs.FrameIdentity
import HeadsetStream.Proofs.SessionNotices

/-!
# After the server has gone

A disconnect puts the headset into its lobby, but decoding goes on. What comes after it are late
packets, renders, samples of the headset, and whatever an engine does by itself. Of all that one
thing takes the headset out of the lobby again: a packet that has a session opened which starts.
Until one does, a render shows nothing.
-/

namespace HeadsetStream

private theorem Notice.modeSetting_of_ofSession {notice : Notice} (h : notice.ofSession = true) :
    notice.modeSetting = none := by
  cases notice <;> first | rfl | exact nomatch h

private theorem Notice.modeSetting_of_off {notice : Notice} (h : notice.onScreen = false) :
    notice.modeSetting = none := by
  cases notice <;> first | rfl | exact nomatch h

/-- No mode is set. -/
def KeepsMode (notices : List Notice) : Prop := ∀ notice ∈ notices, notice.modeSetting = none

namespace KeepsMode

variable {notices first rest : List Notice}

theorem lastSet_eq (h : KeepsMode notices) (mode : RenderMode) :
    lastSet Notice.modeSetting mode notices = mode :=
  lastSet_of_none h

theorem append (hfirst : KeepsMode first) (hrest : KeepsMode rest) : KeepsMode (first ++ rest) :=
  fun notice hmem => (List.mem_append.mp hmem).elim (hfirst notice) (hrest notice)

theorem nil : KeepsMode [] := fun _ hmem => absurd hmem List.not_mem_nil

theorem of_off (h : notices.filter Notice.onScreen = []) : KeepsMode notices := by
  intro notice hmem
  apply Notice.modeSetting_of_off
  simpa using List.filter_eq_nil_iff.mp h notice hmem

theorem of_ofSession (h : ∀ notice ∈ notices, notice.ofSession = true) : KeepsMode notices :=
  fun notice hmem => Notice.modeSetting_of_ofSession (h notice hmem)

end KeepsMode

end HeadsetStream

namespace HeadsetStream.Decoder.Pipeline
open Video Bitstream

variable {ε σ : Type} [Engine ε σ]

omit [Engine ε σ] in
private theorem announcements_keepMode (pipeline : Pipeline ε σ) (buffer : Nat) (payload : Bytes)
    (frame : FrameIndex) : KeepsMode (pipeline.announcements buffer payload frame) := by
  unfold announcements
  refine (KeepsMode.append ?_ ?_).append ?_
  · split <;> simp [KeepsMode, Notice.modeSetting]
  · split <;> simp [KeepsMode, Notice.modeSetting]
  · simp [KeepsMode, Notice.modeSetting]

private theorem deliver_keepsMode (pipeline : Pipeline ε σ) (now : Nat) (payload : Bytes)
    (frame : FrameIndex) : KeepsMode (pipeline.deliver now payload frame).notices := by
  obtain hdrop | ⟨session, buffer, inputs, -, -, -, hsubmit⟩ :=
    pipeline.deliver_cases now payload frame
  · rw [hdrop]
    exact .nil
  · obtain ⟨rest, hnotices, hrest⟩ :=
      pipeline.submit_notices { session with inputs } buffer now payload frame
    rw [hsubmit, hnotices]
    exact (pipeline.announcements_keepMode buffer payload frame).append (.of_ofSession hrest)

/-- Queueing a packet puts the headset into the video exactly if it starts a session. -/
theorem lastSet_mode_queue (pipeline : Pipeline ε σ) (now : Nat) (packet : Bytes)
    (frame : FrameIndex) (mode : RenderMode) :
    lastSet Notice.modeSetting mode (pipeline.queue now packet frame).notices =
      if pipeline.startsSession packet then .video else mode := by
  rw [queue_eq]
  simp only [Outcome.notices_bind]
  rw [prepare_notices_eq, lastSet_append, (deliver_keepsMode _ _ _ _).lastSet_eq]
  split <;> rfl

end HeadsetStream.Decoder.Pipeline

namespace HeadsetStream.Streaming
open Bitstream Decoder Settings Tracking Video Wire

section

variable {ε σ : Type} [Engine ε σ]

/-- Whether a packet has a session opened, and that starts. -/
def Client.startsSession (client : Client ε σ) (packet : Bytes) : Bool :=
  match Packet.ofBytes packet, client.decoding.pipeline with
  | .ok (.video _ payload), some pipeline => pipeline.startsSession payload
  | _, _ => false

theorem Decoding.lastSet_mode_queue (decoding : Decoding ε σ) (now : Nat) (waiting : Bool)
    (header : VideoHeader) (payload : Bytes) (mode : RenderMode) :
    lastSet Notice.modeSetting mode (decoding.queue now waiting header payload).notices =
      if decoding.pipeline.any (·.startsSession payload) then .video else mode := by
  cases hpipeline : decoding.pipeline with
  | none =>
    simp only [queue, hpipeline]
    rfl
  | some pipeline =>
    have hloss := KeepsMode.of_off (decoding.noticeLoss_off waiting header.counter).1
    have hdrain : KeepsMode _ := .of_ofSession (Pipeline.drain_tells
      (pipeline.queue ((now - decoding.started) / 1000) payload header.frame).value.2).2
    rw [queue_of_some hpipeline]
    simp only [lastSet_append, hloss.lastSet_eq, hdrain.lastSet_eq, Pipeline.lastSet_mode_queue,
      Option.any_some]

/-- Of all packets those that start a session put the headset into the video. -/
private theorem Client.lastSet_mode_receive (client : Client ε σ) (now : Nat) (waiting : Bool)
    (packet : Bytes) (mode : RenderMode) :
    lastSet Notice.modeSetting mode (client.receive now waiting packet).notices =
      if client.startsSession packet then .video else mode := by
  cases hpacket : Packet.ofBytes packet with
  | error error =>
    simp only [receive, startsSession, hpacket]
    rfl
  | ok parsed =>
    cases parsed with
    | timeSync sync =>
      have hoff := KeepsMode.of_off (client.receiveTimeSync_eq now sync).1
      simp only [receive, startsSession, hpacket, Outcome.notices_bind, Outcome.notices_pure,
        List.append_nil]
      exact hoff.lastSet_eq mode
    | video header payload =>
      rw [client.receive_video now waiting hpacket, Decoding.lastSet_mode_queue, startsSession,
        hpacket]
      cases client.decoding.pipeline <;> rfl

end

/-- A client on any engine, with a headset without hardware and a link to the server. -/
structure Rig (ε σ : Type) where
  client : Client ε σ
  headset : Headset.Simulated := {}
  link : ServerLink

/-- What can go on while the server is away. -/
inductive Turn (ε σ : Type) where
  | receive (now : Nat) (packet : Bytes)
  | render (now : Nat)
  | tick (now : Nat) (sensors : Sensors)
  /-- Whatever the engine does by itself: its sessions report, fail or stop, and images come. -/
  | meanwhile (change : Pipeline ε σ → Pipeline ε σ) (images : List DecodedImage)

namespace Rig

variable {ε σ : Type}

/-- The rig with the client as it is then, and with what it gave notice of. -/
def observe (rig : Rig ε σ) (client : Client ε σ) (notices : List Notice) : Rig ε σ where
  client := client
  headset := rig.headset.observeAll notices
  link := rig.link.observeAll notices

def disconnect (rig : Rig ε σ) : Rig ε σ :=
  rig.observe rig.client.disconnect.value rig.client.disconnect.notices

/-- Has a frame drawn, and says what the headset shows. -/
def render (rig : Rig ε σ) (now : Nat) : Option FrameIndex × Rig ε σ :=
  let rendered := rig.client.render now rig.headset.shown
  (rendered.value.1, rig.observe rendered.value.2 rendered.notices)

variable [Engine ε σ]

def receive (rig : Rig ε σ) (now : Nat) (packet : Bytes) : Rig ε σ :=
  let received := rig.client.receive now rig.link.waiting packet
  rig.observe received.value.2 received.notices

def take (rig : Rig ε σ) : Turn ε σ → Rig ε σ
  | .receive now packet => rig.receive now packet
  | .render now => (rig.render now).2
  | .tick now sensors =>
    let ticked := rig.client.tick now sensors
    rig.observe ticked.value.2 ticked.notices
  | .meanwhile change images =>
    rig.observe { rig.client with
      decoding.pipeline := rig.client.decoding.pipeline.map change } (images.map .image)

/-- Whether a turn starts a session. -/
def starts (rig : Rig ε σ) : Turn ε σ → Bool
  | .receive _ packet => rig.client.startsSession packet
  | .render _ | .tick _ _ | .meanwhile _ _ => false

def run (rig : Rig ε σ) (turns : List (Turn ε σ)) : Rig ε σ := turns.foldl take rig

variable (rig : Rig ε σ)

private theorem mode_take (turn : Turn ε σ) :
    (rig.take turn).headset.mode = if rig.starts turn then .video else rig.headset.mode := by
  cases turn with
  | receive now packet =>
    exact (Headset.Simulated.mode_observeAll ..).trans (rig.client.lastSet_mode_receive ..)
  | render now =>
    have hnotices := (rig.client.render_eq now rig.headset.shown).1
    simp only [take, render, observe, hnotices]
    rfl
  | tick now sensors =>
    have hoff : (rig.client.tick now sensors).notices.filter Notice.onScreen = [] := by
      simpa [Client.tick] using rig.client.sampler.tick_off now sensors
    exact (Headset.Simulated.mode_observeAll ..).trans ((KeepsMode.of_off hoff).lastSet_eq _)
  | meanwhile change images =>
    have himages : KeepsMode (images.map Notice.image) := by
      simp [KeepsMode, Notice.modeSetting]
    exact (Headset.Simulated.mode_observeAll ..).trans (himages.lastSet_eq _)

/-- The headset stays in the lobby exactly as long as no turn starts a session. -/
private theorem mode_run_eq_lobby_iff (turns : List (Turn ε σ)) :
    (rig.run turns).headset.mode = .lobby ↔ rig.headset.mode = .lobby ∧
      ∀ before turn after, turns = before ++ turn :: after →
        (rig.run before).starts turn = false := by
  induction turns generalizing rig with
  | nil => simp [run]
  | cons turn rest ih =>
    show ((rig.take turn).run rest).headset.mode = .lobby ↔ _
    rw [ih, mode_take]
    constructor
    · rintro ⟨hmode, hrest⟩
      have hturn : rig.starts turn = false := by
        cases hstarts : rig.starts turn with
        | false => rfl
        | true => simp [hstarts] at hmode
      refine ⟨by simpa [hturn] using hmode, fun before first after hsplit => ?_⟩
      cases before with
      | nil =>
        obtain ⟨rfl, -⟩ := List.cons.inj hsplit
        exact hturn
      | cons earlier before =>
        obtain ⟨rfl, htail⟩ := List.cons.inj hsplit
        exact hrest before first after htail
    · rintro ⟨hmode, hall⟩
      have hturn := hall [] turn rest rfl
      refine ⟨by simpa [show rig.starts turn = false from hturn] using hmode, ?_⟩
      rintro before first after rfl
      exact hall (turn :: before) first after rfl

omit [Engine ε σ] in
private theorem mode_disconnect : rig.disconnect.headset.mode = .lobby := rfl

/-- After a disconnect the headset is in its lobby until a late packet starts a session, and not any
more then; as long as it is, a render shows nothing. -/
theorem lobby_until_session (turns : List (Turn ε σ)) :
    let later := rig.disconnect.run turns
    (later.headset.mode = .lobby ↔ ∀ before now packet after,
      turns = before ++ .receive now packet :: after →
        (rig.disconnect.run before).client.startsSession packet = false) ∧
    (later.headset.mode = .lobby → ∀ now, (later.render now).1 = none) := by
  intro later
  refine ⟨?_, fun hmode now => ?_⟩
  · rw [mode_run_eq_lobby_iff]
    constructor
    · rintro ⟨-, hall⟩ before now packet after hsplit
      exact hall before (.receive now packet) after hsplit
    · refine fun hall => ⟨rig.mode_disconnect, fun before turn after hsplit => ?_⟩
      cases turn with
      | receive now packet => exact hall before now packet after hsplit
      | render now => rfl
      | tick now sensors => rfl
      | meanwhile change images => rfl
  · have hshown : later.headset.shown = none := by
      rw [Headset.Simulated.shown, hmode]
    exact (later.client.render_eq now later.headset.shown).2.1.trans hshown

end Rig

/-- The rig that a bench is. -/
def Bench.rig (bench : Bench) : Rig SimulatedEngine SimulatedSession where
  client := bench.client
  headset := bench.headset
  link := bench.link

/-- A keyframe with its parameter sets. -/
def lateKeyframe : Bytes :=
  VideoHeader.toBytes { (default : VideoHeader) with frame := 7 }
    (TestPattern.parameterSets .h264 ++ TestPattern.keyframeSlice .h264)

/-- A late keyframe has the video shown again, though the server has gone. -/
theorem shown_after_disconnect :
    ¬ ∀ (earlier : List Action) (packets : List Bytes),
      let gone := ((Bench.new .loopback {}).run earlier).rig.disconnect
      let later := gone.run (packets.map (.receive 0))
      later.headset.mode = .lobby ∧ (later.render 0).1 = none := by
  intro hall
  obtain ⟨hmode, -⟩ := hall [.setStream 0 {}] [lateKeyframe]
  have hvideo : ((((Bench.new .loopback {}).run [.setStream 0 {}]).rig.disconnect).run
      ([lateKeyframe].map (.receive 0))).headset.mode = .video := by decide +kernel
  exact nomatch hvideo.symm.trans hmode

end HeadsetStream.Streaming
