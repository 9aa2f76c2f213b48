import HeadsetStream.Bitstream.TestPattern
import HeadsetStream.Proofs.LoopbackDecoding
import HeadsetStream.Proofs.ManualDecoding
import HeadsetStream.Proofs.SurfaceFrames
import Mathlib.Data.List.Rotate

/-!
# Nothing is lost in loopback

Packets come to a pipeline in loopback one after the other, and all that one gives rise to is
drained before the next. Its free input buffers go round: the one that a packet takes comes back
behind the others. So a packet is refused only for want of a running session, and the frames of
those that go in as pictures are reported in, reported out and published once each, in the order
they came.
-/

namespace HeadsetStream
open Decoder Video

/-- The frames that were reported to go into the decoder, oldest first. -/
def entriesOf (notices : List Notice) : List FrameIndex :=
  notices.filterMap fun
    | .decoderInput frame => some frame
    | _ => none

theorem entriesOf_append (first rest : List Notice) :
    entriesOf (first ++ rest) = entriesOf first ++ entriesOf rest :=
  List.filterMap_append ..

/-- All who watch have seen these frames: the latency figures on both sides, and the graphics
device. -/
structure Notice.Track (frames : List FrameIndex) (notices : List Notice) : Prop where
  entries : entriesOf notices = frames
  reports : reportsOf notices = frames
  images : (imagesOf notices).map (·.frame) = frames

theorem Notice.Track.append {first rest : List FrameIndex} {notices later : List Notice}
    (h : Notice.Track first notices) (h' : Notice.Track rest later) :
    Notice.Track (first ++ rest) (notices ++ later) where
  entries := by rw [entriesOf_append, h.entries, h'.entries]
  reports := by rw [reportsOf_append, h.reports, h'.reports]
  images := by rw [imagesOf_append, List.map_append, h.images, h'.images]

end HeadsetStream

namespace HeadsetStream.Decoder
open Video Bitstream Settings

structure Delivery where
  now : Nat
  packet : Bytes
  frame : FrameIndex
  deriving DecidableEq, Repr

namespace TrialPipeline

/-- Queues a packet and drains all that comes of it; says whether the packet was accepted. -/
def consume (pipeline : TrialPipeline) (delivery : Delivery) : Outcome (Bool × TrialPipeline) := do
  let (accepted, pipeline) ← pipeline.queue delivery.now delivery.packet delivery.frame
  return (accepted, ← pipeline.drain)

def consumeAll (pipeline : TrialPipeline) : List Delivery → Outcome TrialPipeline
  | [] => return pipeline
  | delivery :: rest => do
    let (_, pipeline) ← pipeline.consume delivery
    pipeline.consumeAll rest

/-- The frame of an accepted packet that was submitted as a picture, not as configuration. -/
def pictureOf (delivery : Delivery) (done : Outcome (Bool × TrialPipeline)) : List FrameIndex :=
  if done.value.1 && done.notices.any Notice.isPicture then [delivery.frame] else []

def picturesOf (pipeline : TrialPipeline) : List Delivery → List FrameIndex
  | [] => []
  | delivery :: rest =>
    pictureOf delivery (pipeline.consume delivery) ++
      picturesOf (pipeline.consume delivery).value.2 rest

/-- The input buffers that a session in loopback begins with. -/
def initialInputs (spare : Nat) : List Nat := (List.range (spare + 1)).take Session.queueDepth

/-- A pipeline in loopback before any packet; its sessions have an input buffer and some to spare.
-/
def looping (settings : DecoderSettings) (graphics client : Bool) (spare : Nat) (failNext : Bool) :
    TrialPipeline where
  settings
  links := { graphics, client }
  engine := { mode := .loopback, inputBuffers := spare + 1, failNext }

/-- In loopback between two packets: the session has nothing to do, and its input buffers are the
initial ones, gone round. -/
structure Circulates (spare : Nat) (pipeline : TrialPipeline) : Prop where
  loopback : pipeline.engine.mode = .loopback
  buffers : pipeline.engine.inputBuffers = spare + 1
  latency : pipeline.links.latency = true
  free : pipeline.busy = false
  current : ∀ session, pipeline.current = some session →
    session.Ready ∧ session.inputs.IsRotated (initialInputs spare)

variable {spare : Nat} {pipeline : TrialPipeline} {session : Session SimulatedSession}

private theorem circulates_looping (settings : DecoderSettings) (graphics client : Bool)
    (spare : Nat)
    (failNext : Bool) : Circulates spare (looping settings graphics client spare failNext) :=
  ⟨rfl, rfl, rfl, rfl, fun _ hsession => nomatch hsession⟩

/-- However they have gone round, a buffer is free, and there are no more than there is room for. -/
private theorem exists_input (h : session.inputs.IsRotated (initialInputs spare)) :
    ∃ buffer inputs, session.inputs = buffer :: inputs ∧
      session.inputs.length ≤ Session.queueDepth := by
  have hlength : session.inputs.length = (initialInputs spare).length := h.perm.length_eq
  have hinitial : (initialInputs spare).length = min Session.queueDepth (spare + 1) := by
    rw [initialInputs, List.length_take, List.length_range]
  cases hinputs : session.inputs with
  | nil =>
    rw [hinputs, List.length_nil, hinitial, Session.queueDepth] at hlength
    omega
  | cons buffer inputs =>
    refine ⟨buffer, inputs, rfl, ?_⟩
    rw [← hinputs, hlength, hinitial]
    exact Nat.min_le_left ..

theorem Circulates.retire (h : Circulates spare pipeline) : Circulates spare pipeline.retire := by
  cases hcurrent : pipeline.current with
  | none =>
    rw [Pipeline.retire_of_none hcurrent]
    exact h
  | some session =>
    rw [Pipeline.retire_of_some hcurrent]
    exact ⟨h.loopback, h.buffers, h.latency, h.free, fun _ hlater => nomatch hlater⟩

theorem Circulates.opened (h : Circulates spare pipeline) (csd : Bytes) :
    (pipeline.opened csd).Ready ∧
      (pipeline.opened csd).inputs.IsRotated (initialInputs spare) := by
  have hidle := Surface.idle_of_frames (.empty pipeline.settings.frameIndexCapacity)
  have hinputs : (pipeline.opened csd).inputs = initialInputs spare := by
    rw [TrialPipeline.opened, h.buffers]
    rfl
  rw [hinputs]
  unfold TrialPipeline.opened
  rw [h.free]
  exact ⟨⟨⟨h.loopback, rfl⟩, rfl, hidle, rfl⟩, .refl _⟩

theorem Circulates.prepare (h : Circulates spare pipeline) (csd : Bytes) :
    Circulates spare (pipeline.prepare csd).value.2 := by
  unfold Pipeline.prepare
  split
  case isFalse => exact h
  case isTrue =>
    have hretired := h.retire
    have hnone : pipeline.retire.current = none := Pipeline.retire_current pipeline
    generalize pipeline.retire = retired at hretired hnone
    have hidle : ∀ engine idle, engine.mode = .loopback → engine.inputBuffers = spare + 1 →
        Circulates spare { retired with engine, idle } := fun _ _ hmode hbuffers =>
      ⟨hmode, hbuffers, hretired.latency, hretired.free, fun _ hsome => by simp [hnone] at hsome⟩
    cases hgraphics : retired.links.graphics with
    | false =>
      rw [openSession_of_no_graphics hgraphics]
      exact hidle retired.engine .error hretired.loopback hretired.buffers
    | true =>
      cases hfail : retired.engine.failNext with
      | true =>
        rw [openSession_of_failNext hgraphics hfail]
        exact hidle { retired.engine with failNext := false } .error hretired.loopback
          hretired.buffers
      | false =>
        obtain ⟨dropped, hopen⟩ := openSession_of_graphics hgraphics hfail csd
        rw [hopen]
        refine ⟨hretired.loopback, hretired.buffers, hretired.latency, hretired.free, ?_⟩
        rintro later ⟨⟩
        exact hretired.opened csd

private theorem announcements_reports (pipeline : TrialPipeline) (buffer : Nat) (payload : Bytes)
    (frame : FrameIndex) :
    let notices := pipeline.announcements buffer payload frame
    entriesOf notices =
        (if !opensWithParameterSet pipeline.settings.codec payload && pipeline.links.latency then
          [frame] else []) ∧
      reportsOf notices = [] := by
  unfold Pipeline.announcements
  constructor
  · split <;> split <;> rfl
  · split <;> split <;> rfl

private theorem track_played {buffer : Nat} {payload : Bytes} {frame : FrameIndex}
    {played : List Notice} (hlatency : pipeline.links.latency = true) (hframe : frame ≠ .null)
    (h : Played pipeline.links.latency buffer frame
      (opensWithParameterSet pipeline.settings.codec payload) played) :
    let notices := pipeline.announcements buffer payload frame ++ played
    Notice.Track (if notices.any Notice.isPicture then [frame] else []) notices := by
  intro notices
  have hnamed : frame.named? = some frame := if_neg hframe
  obtain ⟨-, hannounced⟩ := announcements_not_onScreen pipeline buffer payload frame
  obtain ⟨hentries, hreports⟩ := announcements_reports pipeline buffer payload frame
  have himages := pipeline.imagesOf_announcements buffer payload frame
  simp only [notices, List.any_append, hannounced, Bool.false_or]
  rw [hlatency] at h hentries
  generalize opensWithParameterSet pipeline.settings.codec payload = configuration at h hentries
  cases h with
  | configuration data hflags =>
    have hplayed : Notice.isPicture (.submit buffer data 0 _) = false :=
      congrArg not hflags
    simp only [List.any_cons, hplayed, List.any_nil, Bool.or_false]
    exact ⟨by rw [entriesOf_append, hentries]; rfl, by rw [reportsOf_append, hreports]; rfl,
      by rw [imagesOf_append, himages]; rfl⟩
  | picture data pts number hflags =>
    have hplayed : Notice.isPicture (.submit buffer data pts _) = true := congrArg not hflags
    simp only [List.any_cons, hplayed, Bool.true_or, if_true, imagesOfFrame, hnamed]
    exact ⟨by rw [entriesOf_append, hentries]; rfl, by rw [reportsOf_append, hreports]; rfl,
      by rw [imagesOf_append, himages]; rfl⟩

private theorem track_modes {notices : List Notice}
    (h : ∀ notice ∈ notices, notice = .renderMode .video) :
    Notice.Track [] notices ∧ notices.any Notice.isPicture = false := by
  refine ⟨⟨?_, ?_, ?_⟩, ?_⟩
  · exact List.filterMap_eq_nil_iff.mpr fun notice hmem => by rw [h notice hmem]
  · exact List.filterMap_eq_nil_iff.mpr fun notice hmem => by rw [h notice hmem]
  · rw [List.map_eq_nil_iff]
    exact List.filterMap_eq_nil_iff.mpr fun notice hmem => by rw [h notice hmem]; rfl
  · exact List.any_eq_false.mpr fun notice hmem => by rw [h notice hmem]; exact Bool.false_ne_true

/-- The packet was accepted exactly if a session is running for it, one that was opened for it if
need be. -/
structure Consumed (spare : Nat) (pipeline : TrialPipeline) (delivery : Delivery)
    (done : Outcome (Bool × TrialPipeline)) : Prop where
  accepted_iff : done.value.1 = true ↔ ∃ session,
    (pipeline.prepare
        (configurationPrefix pipeline.settings.codec delivery.packet)).value.2.current =
      some session ∧ session.state = .running
  circulates : Circulates spare done.value.2
  track : delivery.frame ≠ .null → Notice.Track (pictureOf delivery done) done.notices

theorem Circulates.consume (h : Circulates spare pipeline) (delivery : Delivery) :
    Consumed spare pipeline delivery (pipeline.consume delivery) := by
  let codec := pipeline.settings.codec
  let csd := configurationPrefix codec delivery.packet
  let prepared := pipeline.prepare csd
  let now := Pipeline.delayed delivery.now prepared.value.1
  let payload := Pipeline.payload csd delivery.packet
  let delivered := prepared.value.2.deliver now payload delivery.frame
  have hprepared : Circulates spare prepared.value.2 := h.prepare csd
  have hmodes : ∀ notice ∈ prepared.notices, notice = .renderMode .video :=
    pipeline.prepare_notices csd
  have hconsume : pipeline.consume delivery =
      ⟨(delivered.value.1, delivered.value.2.drain.value),
        prepared.notices ++ (delivered.notices ++ delivered.value.2.drain.notices)⟩ := by
    rw [TrialPipeline.consume, Pipeline.queue_eq]
    apply Outcome.ext
    · rfl
    · simp [prepared, delivered, csd, codec, now, payload]
  obtain ⟨hquiet, hnone⟩ := track_modes hmodes
  rw [hconsume]
  cases hcurrent : prepared.value.2.current with
  | none =>
    have hdrop : delivered = pure (false, prepared.value.2) :=
      Pipeline.deliver_of_no_room (by simp [Pipeline.hasRoom, hcurrent]) _ _ _
    have hdrain : delivered.value.2.drain = pure prepared.value.2 := by
      simp [hdrop, Pipeline.drain, hcurrent]
    rw [hdrain, hdrop]
    refine ⟨iff_of_false Bool.false_ne_true ?_, hprepared, fun _ => ?_⟩
    · rintro ⟨session, hsession, -⟩
      cases hcurrent.symm.trans hsession
    · simpa [pictureOf] using hquiet
  | some session =>
    obtain ⟨hsession, hrotated⟩ := hprepared.current session hcurrent
    obtain ⟨buffer, inputs, hinputs, hroom⟩ := exists_input hrotated
    obtain ⟨haccepted, ⟨later, clock, hlater, hkept, hvalue⟩, played, hplayed, hnotices⟩ :=
      plays_of_ready hcurrent hsession hinputs hroom now payload delivery.frame
    -- The buffer that was taken is free again behind the others: one step around.
    have hround : later.inputs.IsRotated session.inputs := by
      rw [hkept, hinputs]
      exact List.isRotated_append
    constructor
    · exact iff_of_true haccepted ⟨session, hcurrent, hsession.running⟩
    · simp only [delivered, hvalue]
      refine ⟨hprepared.loopback, hprepared.buffers, hprepared.latency, hprepared.free, ?_⟩
      rintro _ ⟨⟩
      exact ⟨hlater, hround.trans hrotated⟩
    · intro hframe
      have htrack := track_played hprepared.latency hframe hplayed
      rw [← hnotices] at htrack
      have hpicture : pictureOf delivery ⟨(delivered.value.1, delivered.value.2.drain.value),
          prepared.notices ++ (delivered.notices ++ delivered.value.2.drain.notices)⟩ =
          [] ++ if (delivered.notices ++ delivered.value.2.drain.notices).any Notice.isPicture then
            [delivery.frame] else [] := by
        rw [pictureOf, List.any_append, hnone, Bool.false_or, haccepted, Bool.true_and]
        rfl
      rw [hpicture]
      exact hquiet.append htrack

theorem Circulates.consumeAll (h : Circulates spare pipeline) (deliveries : List Delivery) :
    Circulates spare (pipeline.consumeAll deliveries).value ∧
      ((∀ delivery ∈ deliveries, delivery.frame ≠ .null) →
        Notice.Track (picturesOf pipeline deliveries) (pipeline.consumeAll deliveries).notices) := by
  induction deliveries generalizing pipeline with
  | nil => exact ⟨h, fun _ => ⟨rfl, rfl, rfl⟩⟩
  | cons delivery rest ih =>
    obtain ⟨-, hlater, htrack⟩ := h.consume delivery
    obtain ⟨hlast, hrest⟩ := ih hlater
    refine ⟨hlast, fun hframes => ?_⟩
    have hfirst := htrack (hframes delivery List.mem_cons_self)
    exact hfirst.append (hrest fun later hmem => hframes later (List.mem_cons_of_mem _ hmem))

/-- Whatever packets came, the next one is accepted exactly if a session is running for it; the
input buffers have only gone round; and the frames of all pictures that were accepted, no other
ones, were reported in, reported out and published, each once and in order. -/
theorem loopback_loses_nothing (settings : DecoderSettings) (graphics client : Bool) (spare : Nat)
    (failNext : Bool) (deliveries : List Delivery)
    (hframes : ∀ delivery ∈ deliveries, delivery.frame ≠ .null) :
    let pipeline := looping settings graphics client spare failNext
    let done := pipeline.consumeAll deliveries
    (∀ next : Delivery, (done.value.consume next).value.1 = true ↔
      ∃ session, (done.value.prepare
          (configurationPrefix done.value.settings.codec next.packet)).value.2.current =
        some session ∧ session.state = .running) ∧
      (∀ session, done.value.current = some session →
        session.inputs.IsRotated (initialInputs spare)) ∧
      entriesOf done.notices = picturesOf pipeline deliveries ∧
      reportsOf done.notices = picturesOf pipeline deliveries ∧
      (imagesOf done.notices).map (·.frame) = picturesOf pipeline deliveries := by
  intro pipeline done
  obtain ⟨hcirculates, htrack⟩ :=
    (circulates_looping settings graphics client spare failNext).consumeAll deliveries
  obtain ⟨hentries, hreports, himages⟩ := htrack hframes
  exact ⟨fun next => (hcirculates.consume next).accepted_iff,
    fun session hsession => (hcirculates.current session hsession).2, hentries, hreports, himages⟩

/-- Two pictures, of which the first has its parameter sets with it. -/
def twoPictures : List Delivery :=
  [⟨0, TestPattern.parameterSets .h264 ++ TestPattern.keyframeSlice .h264, 5⟩,
    ⟨1, TestPattern.deltaSlice .h264, 6⟩]

theorem two_pictures_lost_nowhere :
    (∀ delivery ∈ twoPictures, delivery.frame ≠ .null) ∧
      entriesOf ((looping {} true true 3 false).consumeAll twoPictures).notices = [5, 6] ∧
      reportsOf ((looping {} true true 3 false).consumeAll twoPictures).notices = [5, 6] := by
  have hframes : ∀ delivery ∈ twoPictures, delivery.frame ≠ .null := by decide
  have hpictures : picturesOf (looping {} true true 3 false) twoPictures = [5, 6] := by rfl
  obtain ⟨-, -, hentries, hreports, -⟩ :=
    loopback_loses_nothing {} true true 3 false twoPictures hframes
  exact ⟨hframes, hentries.trans hpictures, hreports.trans hpictures⟩

end TrialPipeline

end HeadsetStream.Decoder
