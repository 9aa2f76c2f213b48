import HeadsetStream.Proofs.FrameDelays
import HeadsetStream.Proofs.PacketFormat
import HeadsetStream.Proofs.TestStream
import HeadsetStream.Proofs.TrackingHistory

/-!
# What can be counted on a bench

A bench that plays a stream in loopback is ready for the next packet after each thing that is done
with it: an access unit, a time sync, a render, a sample. What each of them makes of the figures, of
the frame that is shown and of the mark that a keyframe is awaited is said here, with the messages
that are fetched from the link then.
-/

namespace HeadsetStream.Tracking.Sampler

/-- A sampler that is connected tells the server of a sample, and of the view at most once. -/
theorem tick_connected {sampler : Sampler} (hconnected : sampler.connected = true)
    (hrunning : sampler.wake.isSome = true) (now : Nat) {sensors : Sensors}
    {read : Geometry.TrackingInfo} (hread : sensors.tracking sampler.prediction = some read) :
    ∃ (view : Option Geometry.EyeInfo) (sent : Geometry.TrackingInfo),
      (sampler.tick now sensors).notices =
        view.toList.map .view ++ [.poll, .sample sampler.prediction, .tracking sent] := by
  obtain ⟨hcourse, -, -⟩ := sampler.sendView_spec sensors.view
  have hviews : ∃ view, (sampler.sendView sensors.view).notices =
      (Option.toList view).map .view := by
    cases sensors.view with
    | none => exact ⟨none, rfl⟩
    | some view =>
      simp only [sendView]
      split
      · exact ⟨some view, rfl⟩
      · exact ⟨none, rfl⟩
  obtain ⟨view, hview⟩ := hviews
  refine ⟨view, ((sampler.sendView sensors.view).value.filters.step
    (sampler.sendView sensors.view).value.params now read).1, ?_⟩
  simp only [tick, hrunning, if_true, sample_eq, Outcome.notices_bind, hview]
  simp [track, hcourse.connected, hconnected, hread, hcourse.prediction]

end HeadsetStream.Tracking.Sampler

namespace HeadsetStream.Streaming
open Bitstream Decoder Settings Tracking Video Wire

section

variable {opens keyframe : Bool} {frame : FrameIndex} {notices : List Notice}

theorem observeAll_pictured (h : Pictured opens keyframe frame notices)
    (headset : Headset.Simulated) :
    let later := headset.observeAll notices
    later.images = headset.images + 1 ∧ later.polls = headset.polls ∧
      later.mode = (if opens then .video else headset.mode) ∧
      later.textures.frame = frame.named? := by
  cases h with
  | mk buffer number pts data flags =>
    cases opens <;> cases keyframe <;>
      exact ⟨rfl, rfl, rfl, TextureRing.frame_update ..⟩

private theorem link_pictured (h : Pictured opens keyframe frame notices) (link : ServerLink) :
    link.observeAll notices = { link with waiting := link.waiting && !keyframe } := by
  obtain ⟨capacity, queue, closed, waiting⟩ := link
  cases h with
  | mk buffer number pts data flags =>
    cases opens <;> cases keyframe <;> cases waiting <;> rfl

private theorem latency_pictured (h : Pictured opens keyframe frame notices) (now : Nat)
    (latency : Latency.Collector Float) :
    notices.foldl (observeLatency now) latency =
      (latency.decoderInput now frame).decoderOutput now frame := by
  cases h with
  | mk buffer number pts data flags => cases opens <;> cases keyframe <;> rfl

end

/-- What can be counted and seen on a bench. -/
@[ext] structure Figures where
  received : Nat
  decoded : Nat
  rendered : Nat
  images : Nat
  polls : Nat
  /-- The frame that a render shows. -/
  shown : Option FrameIndex
  waiting : Bool
  lastCounter : Option UInt32
  deriving DecidableEq, Repr

namespace Figures

/-- Whether a packet with this count comes after a loss. -/
def lost (figures : Figures) (counter : UInt32) : Bool :=
  figures.lastCounter.any fun last => counter ≠ last + 1

/-- Whether a keyframe is requested at a packet with this count. -/
def requests (figures : Figures) (counter : UInt32) : Bool :=
  figures.lost counter && !figures.waiting

/-- The figures once a picture was taken. -/
def take (figures : Figures) (keyframe : Bool) (counter : UInt32) (frame : FrameIndex) :
    Figures :=
  { figures with
    received := figures.received + 1
    decoded := figures.decoded + 1
    images := figures.images + 1
    shown := some frame
    waiting := (figures.waiting || figures.lost counter) && !keyframe
    lastCounter := some counter }

end Figures

namespace Bench

def figures (bench : Bench) : Figures where
  received := bench.client.latency.stats.received
  decoded := bench.client.latency.stats.decoded
  rendered := bench.client.latency.stats.rendered
  images := bench.headset.images
  polls := bench.headset.polls
  shown := bench.headset.shown
  waiting := bench.link.waiting
  lastCounter := bench.client.decoding.lastCounter

/-- A pipeline between two packets of a stream, with all its surroundings there. -/
structure Tuned (codec : Codec) (headset : Headset.Simulated) (pipeline : TrialPipeline) : Prop where
  ready : pipeline.Ready
  links : pipeline.links = {}
  codec_eq : pipeline.settings.codec = codec
  /-- What is shown comes from a session, and a session has its video shown. -/
  session : headset.shown.isSome = true → pipeline.current.isSome = true
  video : pipeline.current.isSome = true → headset.mode = .video

/-- Ready for the next packet of a stream in loopback, with no message left to be fetched. -/
structure Playing (codec : Codec) (bench : Bench) : Prop where
  tuned : ∃ pipeline, bench.client.decoding.pipeline = some pipeline ∧
    Tuned codec bench.headset pipeline
  link : bench.link = { capacity := linkCapacity, waiting := bench.link.waiting }
  connected : bench.client.sampler.connected = true
  running : bench.client.sampler.wake.isSome = true

end Bench

section

variable {codec : Codec} {headset : Headset.Simulated} {pipeline : TrialPipeline} {keyframe : Bool}
  {frame : FrameIndex}

/-- A keyframe opens a session if there is none, and other units come when there is one. -/
theorem Bench.Tuned.opens (h : Tuned codec headset pipeline)
    (hsession : keyframe = true ∨ headset.shown.isSome = true) :
    pipeline.current.isSome = true ∨ pipeline.needsSession
      (configurationPrefix pipeline.settings.codec (TestPattern.unit codec keyframe)) = true := by
  obtain ⟨-, -, rfl, hshown, -⟩ := h
  cases hcurrent : pipeline.current with
  | some session => exact .inl rfl
  | none =>
    rw [hcurrent] at hshown
    obtain rfl := hsession.resolve_right fun hsome => Bool.false_ne_true (hshown hsome)
    have hcsd : configurationPrefix pipeline.settings.codec
        (TestPattern.unit pipeline.settings.codec true) ≠ [] := by
      rw [TestPattern.configurationPrefix_unit]
      cases pipeline.settings.codec <;> decide
    exact .inr (by simp [Pipeline.needsSession, hcurrent, hcsd])

/-- An access unit that is queued and drained is taken and shown. -/
private theorem Bench.Tuned.queue_unit (h : Tuned codec headset pipeline) (hframe : frame ≠ .null)
    (now : Nat) (hsession : keyframe = true ∨ headset.shown.isSome = true) :
    let queued := pipeline.queue now (TestPattern.unit codec keyframe) frame
    let drained := queued.value.2.drain
    let later := headset.observeAll (queued.notices ++ drained.notices)
    queued.value.1 = true ∧ Tuned codec later drained.value ∧
      later.shown = some frame ∧ ∃ opens, Pictured opens keyframe frame
        (queued.notices ++ drained.notices) := by
  have hopen := h.opens hsession
  obtain ⟨hready, hlinks, rfl, -, hvideo⟩ := h
  let unit := TestPattern.unit pipeline.settings.codec keyframe
  obtain ⟨haccepted, hdrained, hsome, hpictured⟩ := hready.queue_picture hlinks hframe now hopen
    (TestPattern.opensWithParameterSet_payload ..)
  rw [TestPattern.hasKeyframeSlice_unit] at hpictured
  obtain ⟨-, -, hmode, htexture⟩ := observeAll_pictured hpictured headset
  obtain ⟨hsettings, hkept⟩ := pipeline.queue_kept now unit frame
  obtain ⟨hsettings', hkept'⟩ := (pipeline.queue now unit frame).value.2.drain_kept
  let later := headset.observeAll
    ((pipeline.queue now unit frame).notices ++ (pipeline.queue now unit frame).value.2.drain.notices)
  have hon : later.mode = .video := by
    rw [show later.mode = _ from hmode]
    split
    · rfl
    · next hnone => exact hvideo (hopen.resolve_right hnone)
  have hlast : later.shown = some frame := by
    simp only [Headset.Simulated.shown, hon]
    rw [show later.textures.frame = _ from htexture]
    exact FrameIndex.named?_eq_some_iff.mpr ⟨rfl, hframe⟩
  exact ⟨haccepted, ⟨hdrained, hkept'.trans (hkept.trans hlinks),
    congrArg _ (hsettings'.trans hsettings), fun _ => hsome, fun _ => hon⟩, hlast, _, hpictured⟩

/-- The loss that is noticed before a packet is told to the link, and to no one else. -/
private theorem observe_loss {ε σ : Type} (decoding : Decoding ε σ) (waiting : Bool)
    (counter : UInt32) :
    let loss := (decoding.noticeLoss waiting counter).notices
    let lost := !decoding.follows counter
    (∀ headset : Headset.Simulated, headset.observeAll loss = headset) ∧
      (∀ now latency, loss.foldl (observeLatency now) latency = latency) ∧
      ServerLink.observeAll { capacity := Bench.linkCapacity, waiting } loss =
        { capacity := Bench.linkCapacity
          waiting := waiting || lost
          queue := if lost && !waiting then [.requestKeyframe] else [] } := by
  rw [decoding.noticeLoss_notices waiting counter]
  cases decoding.follows counter <;> cases waiting <;>
    exact ⟨fun _ => rfl, fun _ _ => rfl, rfl⟩

/-- What comes of a packet: the loss before it, and then its picture. -/
private theorem observe_received {ε σ : Type} {opens keyframe : Bool} {shown : List Notice}
    (h : Pictured opens keyframe frame shown) (decoding : Decoding ε σ) (waiting : Bool)
    (counter : UInt32) :
    let received := (decoding.noticeLoss waiting counter).notices ++ shown
    let lost := !decoding.follows counter
    (∀ headset : Headset.Simulated, headset.observeAll received = headset.observeAll shown) ∧
      (∀ now latency, received.foldl (observeLatency now) latency =
        (latency.decoderInput now frame).decoderOutput now frame) ∧
      ServerLink.observeAll { capacity := Bench.linkCapacity, waiting } received =
        { capacity := Bench.linkCapacity
          waiting := (waiting || lost) && !keyframe
          queue := if lost && !waiting then [.requestKeyframe] else [] } := by
  obtain ⟨hheadset, hlatency, hlink⟩ := observe_loss decoding waiting counter
  refine ⟨fun headset => ?_, fun now latency => ?_, ?_⟩
  · rw [Headset.Simulated.observeAll, List.foldl_append]
    exact congrArg (·.observeAll shown) (hheadset headset)
  · rw [List.foldl_append]
    exact (congrArg (shown.foldl _) (hlatency now latency)).trans (latency_pictured h now latency)
  · rw [ServerLink.observeAll, List.foldl_append]
    exact (congrArg (·.observeAll shown) hlink).trans (link_pictured h _)

private theorem Bench.lost_figures (bench : Bench) (counter : UInt32) :
    bench.figures.lost counter = !bench.client.decoding.follows counter := by
  rw [Figures.lost, Decoding.follows, figures]
  cases bench.client.decoding.lastCounter <;> simp

/-- A bench takes an access unit, and the message that may come of it is fetched. -/
theorem Bench.Playing.receive_unit {bench : Bench} (h : bench.Playing codec) {header : VideoHeader}
    (hframe : header.frame ≠ .null) (now : Nat)
    (hsession : keyframe = true ∨ bench.figures.shown.isSome = true) :
    let received := (bench.receive now (header.toBytes (TestPattern.unit codec keyframe))).value
    received.1 = .ok true ∧ received.2.fetch.2.Playing codec ∧
      received.2.fetch.2.figures = bench.figures.take keyframe header.counter header.frame ∧
      received.2.fetch.1 =
        if bench.figures.requests header.counter then [.requestKeyframe] else [] := by
  let unit := TestPattern.unit codec keyframe
  obtain ⟨pipeline, hpipeline, htuned⟩ := h.tuned
  let since := (now - bench.client.decoding.started) / 1000
  let queued := pipeline.queue since unit header.frame
  let drained := queued.value.2.drain
  let shown := queued.notices ++ drained.notices
  obtain ⟨haccepted, hlater, hshown, opens, hpictured⟩ := htuned.queue_unit hframe since hsession
  let loss := (bench.client.decoding.noticeLoss bench.link.waiting header.counter).notices
  obtain ⟨hobserved, hlatency, hlink⟩ :=
    observe_received hpictured bench.client.decoding bench.link.waiting header.counter
  rw [← h.link, ← bench.lost_figures] at hlink
  have hqueue : bench.client.decoding.queue now bench.link.waiting header unit =
      ⟨(true, { bench.client.decoding with
          pipeline := some drained.value
          lastCounter := some header.counter }), loss ++ shown⟩ := by
    rw [Decoding.queue_of_some hpipeline]
    exact congrArg (fun accepted => (⟨(accepted, _), _⟩ : Outcome (Bool × Decoding _ _))) haccepted
  have hreceive := bench.client.receive_video now bench.link.waiting
    (Packet.ofBytes_toBytes header unit)
  simp only [hqueue] at hreceive
  let arrived := bench.client.latency.received (Client.micros now) header.frame
  let latency := (arrived.decoderInput (Client.micros now) header.frame).decoderOutput
    (Client.micros now) header.frame
  have hvalue : (bench.receive now (header.toBytes unit)).value =
      (.ok true,
        { client := { bench.client with
            decoding := { bench.client.decoding with
              pipeline := some drained.value
              lastCounter := some header.counter }
            latency }
          headset := bench.headset.observeAll shown
          link :=
            { capacity := linkCapacity
              waiting := (bench.figures.waiting || bench.figures.lost header.counter) && !keyframe
              queue :=
                if bench.figures.requests header.counter then [.requestKeyframe] else [] } }) := by
    rw [Bench.receive, hreceive]
    simp only [Bench.after, Client.receiveVideo, hqueue]
    rw [hobserved, hlatency, hlink]
    rfl
  obtain ⟨himages, hpolls, -, -⟩ := observeAll_pictured hpictured bench.headset
  obtain ⟨hreceived, hdecoded, hrendered⟩ :=
    (arrived.decoderInput (Client.micros now) header.frame).decoderOutput_counts
      (Client.micros now) header.frame
  rw [hvalue]
  refine ⟨rfl, ⟨⟨drained.value, rfl, hlater⟩, rfl, h.connected, h.running⟩, ?_, rfl⟩
  exact Figures.ext hreceived hdecoded hrendered himages hpolls hshown rfl rfl

/-- A time sync that asks for an answer is answered. -/
theorem Bench.Playing.receive_ping {bench : Bench} (h : bench.Playing codec) {sync : TimeSync}
    (hping : sync.mode = TimeSync.ping) (now : Nat) :
    let received := (bench.receive now sync.toBytes).value
    received.1 = .ok false ∧ received.2.fetch.2.Playing codec ∧
      received.2.fetch.2.figures = bench.figures ∧
      ∃ answer, received.2.fetch.1 = [.timeSync answer] := by
  let answer : TimeSync :=
    { sync with mode := TimeSync.reply, clientTime := UInt64.ofNat (Client.micros now) }
  have hpacket : Packet.ofBytes sync.toBytes = .ok (.timeSync sync) := by
    rw [← List.append_nil sync.toBytes]
    exact Packet.ofBytes_timeSync_append sync []
  have hanswer : bench.client.receiveTimeSync now sync = ⟨bench.client, [.timeSync answer]⟩ := by
    simp only [Client.receiveTimeSync, Latency.Collector.timeSync, hping, if_true]
    rfl
  have hlink : bench.link.observeAll [.timeSync answer] =
      { capacity := linkCapacity, waiting := bench.link.waiting, queue := [.timeSync answer] } := by
    rw [h.link]
    rfl
  have hvalue : (bench.receive now sync.toBytes).value =
      (.ok false, { bench with
        link := { capacity := linkCapacity, waiting := bench.link.waiting,
                  queue := [.timeSync answer] } }) := by
    simp only [Bench.receive, Client.receive, hpacket]
    rw [hanswer, ← hlink]
    rfl
  rw [hvalue]
  exact ⟨rfl, ⟨h.tuned, rfl, h.connected, h.running⟩, rfl, answer, rfl⟩

theorem Bench.Playing.fetch_eq {bench : Bench} (h : bench.Playing codec) :
    bench.fetch = ([], bench) := by
  have hlink : ({ bench.link with queue := [] } : ServerLink) = bench.link := by rw [h.link]
  have hqueue : bench.link.queue = [] := by rw [h.link]
  exact Prod.ext hqueue (congrArg (fun link => { bench with link }) hlink)

theorem Bench.Playing.render {bench : Bench} (h : bench.Playing codec) (now : Nat) :
    let rendered := (bench.render now).value
    rendered.1 = bench.figures.shown ∧ rendered.2.Playing codec ∧
      rendered.2.figures =
        { bench.figures with
          rendered := bench.figures.rendered + if bench.figures.shown.isSome then 1 else 0 } := by
  cases hshown : bench.headset.shown with
  | none =>
    have hvalue : (bench.render now).value = (none, bench) := by rw [Bench.render, hshown]; rfl
    have hnone : bench.figures.shown = none := hshown
    rw [hvalue, hnone]
    exact ⟨rfl, h, Figures.ext rfl rfl rfl rfl rfl rfl rfl rfl⟩
  | some frame =>
    have hvalue : (bench.render now).value = (some frame, { bench with
        client := { bench.client with
          latency := bench.client.latency.rendered (Client.micros now) frame } }) := by
      rw [Bench.render, hshown]
      rfl
    have hsome : bench.figures.shown = some frame := hshown
    obtain ⟨hreceived, hdecoded, hrendered⟩ :=
      bench.client.latency.rendered_counts (Client.micros now) frame
    rw [hvalue, hsome]
    exact ⟨rfl, ⟨h.tuned, h.link, h.connected, h.running⟩,
      Figures.ext hreceived hdecoded hrendered rfl rfl rfl rfl rfl⟩

/-- The sampler wakes: the controls are read and a sample is sent. -/
theorem Bench.Playing.tick {bench : Bench} (h : bench.Playing codec) (now : Nat) :
    let ticked := (bench.tick now).value.2
    ticked.fetch.2.Playing codec ∧
      ticked.fetch.2.figures = { bench.figures with polls := bench.figures.polls + 1 } ∧
      ∃ (view : Option Geometry.EyeInfo) (sent : Geometry.TrackingInfo),
        ticked.fetch.1 = view.toList.map .view ++ [.tracking sent] := by
  let sensors := bench.sensors now
  let sampled := bench.client.sampler.tick now sensors
  obtain ⟨view, sent, hnotices⟩ := Sampler.tick_connected h.connected h.running now
    (show sensors.tracking bench.client.sampler.prediction = some _ from rfl)
  obtain ⟨hcourse, -, -⟩ := bench.client.sampler.tick_samples now sensors
  have hlink : bench.link.observeAll sampled.notices =
      { bench.link with queue := view.toList.map .view ++ [.tracking sent] } := by
    rw [h.link, show sampled.notices = _ from hnotices]
    cases view <;> rfl
  have hheadset : bench.headset.observeAll sampled.notices =
      { bench.headset with polls := bench.headset.polls + 1 } := by
    rw [show sampled.notices = _ from hnotices]
    cases view <;> rfl
  have hvalue : (bench.tick now).value.2 =
      { client := { bench.client with sampler := sampled.value.2 }
        headset := { bench.headset with polls := bench.headset.polls + 1 }
        link := { bench.link with queue := view.toList.map .view ++ [.tracking sent] } } := by
    have hticked : bench.client.tick now sensors =
        ⟨(sampled.value.1, { bench.client with sampler := sampled.value.2 }), sampled.notices⟩ :=
      Outcome.ext rfl (List.append_nil _)
    rw [← hlink, ← hheadset, Bench.tick, hticked]
    rfl
  obtain ⟨pipeline, hpipeline, hready, hlinks, hcodec, hsession, hvideo⟩ := h.tuned
  rw [hvalue, h.link]
  exact ⟨⟨⟨pipeline, hpipeline, hready, hlinks, hcodec, hsession, hvideo⟩, rfl,
    hcourse.connected.trans h.connected, hcourse.running.trans h.running⟩, rfl, view, sent, rfl⟩

end

end HeadsetStream.Streaming
