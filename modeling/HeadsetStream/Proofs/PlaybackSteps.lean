import HeadsetStream.Command.Playback
import HeadsetStream.Proofs.BenchFigures

/-!
# One frame of a playback

A frame is sent or its packet is dropped, a time sync may follow, the client draws, and the sampler
wakes until the next frame is due. Each part leaves the bench ready for the next one. What a frame
makes of the figures and of the journal is put together from that.
-/

namespace HeadsetStream.Command
open Bitstream Streaming Tracking Video Wire

namespace Playback

variable {playback : Playback}

/-- Whether the packet of the next frame is dropped. -/
def drops (playback : Playback) : Bool :=
  0 < playback.dropInterval && (playback.counter + 1).toNat % playback.dropInterval == 0

/-- Whether the next frame is a keyframe. -/
def atKeyframe (playback : Playback) : Bool := playback.pattern.atKeyframe playback.forceKeyframe

/-- The playback once the next frame was taken from the pattern. -/
def advance (playback : Playback) : Playback :=
  { playback with
    pattern := { playback.pattern with frame := playback.pattern.frame + 1 }
    counter := playback.counter + 1
    frame := playback.frame + 1
    forceKeyframe := false }

/-- The figures once the next frame was sent. -/
def sentFigures (playback : Playback) : Figures :=
  if playback.drops then playback.bench.figures
  else playback.bench.figures.take playback.atKeyframe playback.counter playback.frame

/-- Whether a keyframe is requested when the next frame is sent. -/
def requests (playback : Playback) : Bool :=
  !playback.drops && playback.bench.figures.requests playback.counter

/-- What is delivered of the next frame. -/
def deliveries (playback : Playback) : List Delivery :=
  if playback.drops then []
  else [⟨some (if playback.atKeyframe then .keyframe else .delta), true⟩]

private theorem deliver_eq (playback : Playback) (kind : Option PacketKind) (packet : Bytes) :
    playback.deliver kind packet =
      (let received := (playback.bench.receive playback.now packet).value
      { playback with
        bench := received.2.fetch.2
        journal := ({ playback.journal with
          deliveries := ⟨kind, received.1 matches .ok true⟩ :: playback.journal.deliveries } :
            Journal).count received.2.fetch.1 }) := rfl

/-- The time, and the time between frames. -/
def clock (playback : Playback) : Nat × Nat := (playback.now, playback.period)

private theorem sendFrame_clock (playback : Playback) :
    playback.sendFrame.clock = playback.clock := by
  simp only [sendFrame]
  split <;> rfl

private theorem sendPing_clock (playback : Playback) :
    playback.sendPing.clock = playback.clock := by
  simp only [sendPing]
  split <;> rfl

private theorem wakeUntil_clock (finish steps : Nat) (playback : Playback) :
    (wakeUntil finish steps playback).clock = playback.clock := by
  induction steps generalizing playback with
  | zero => rfl
  | succ steps ih =>
    unfold wakeUntil
    split
    · split
      · exact ih _
      · rfl
    · rfl

private theorem rest_clock (playback : Playback) :
    playback.rest.clock = (playback.now + playback.period, playback.period) :=
  congrArg (fun clock => (playback.now + playback.period, clock.2)) (wakeUntil_clock _ _ playback)

/-- A frame takes the time between frames, whatever happens meanwhile. -/
theorem step_clock (playback : Playback) :
    playback.step.clock = (playback.now + playback.period, playback.period) := by
  have hdrawn : playback.sendFrame.sendPing.draw.clock = playback.clock :=
    (sendPing_clock _).trans (sendFrame_clock playback)
  obtain ⟨hnow, hperiod⟩ := Prod.mk.inj hdrawn
  rw [step, rest_clock]
  exact Prod.ext (congrArg₂ (· + ·) hnow hperiod) hperiod

private theorem sendFrame_of_drops (h : playback.drops = true) :
    playback.sendFrame = playback.advance := by
  unfold drops at h
  simp only [sendFrame, h, if_true]
  rfl

/-- The next access unit. -/
def unit (playback : Playback) : Bytes :=
  TestPattern.unit playback.pattern.codec playback.atKeyframe

/-- The header of the next frame's packet. -/
def header (playback : Playback) : VideoHeader where
  counter := playback.counter
  frame := playback.frame
  videoFrame := UInt64.ofNat (playback.pattern.frame + 1)
  sentTime := playback.sentTime
  frameSize := UInt32.ofNat playback.unit.length
  flags := 0

private theorem sendFrame_of_kept (h : playback.drops = false) :
    playback.sendFrame =
      playback.advance.deliver (some (PacketKind.of playback.pattern.codec playback.unit))
        (playback.header.toBytes playback.unit) := by
  unfold drops at h
  simp only [sendFrame, h, Bool.false_eq_true, if_false, TestPattern.next_eq]
  rfl

private theorem count_requests (journal : Journal) (requests : Bool) :
    journal.count (if requests then [.requestKeyframe] else []) =
      { journal with
        keyframeRequests := journal.keyframeRequests + if requests then 1 else 0 } := by
  cases requests <;> rfl

/-- Sends the next frame, of which the first that is not dropped is to be a keyframe. -/
theorem sendFrame_spec (hplaying : playback.bench.Playing playback.pattern.codec)
    (hframe : playback.frame ≠ FrameIndex.null)
    (hsession : playback.drops = true ∨ playback.atKeyframe = true ∨
      playback.bench.figures.shown.isSome = true) :
    ∃ bench : Bench, bench.Playing playback.pattern.codec ∧ bench.figures = playback.sentFigures ∧
      playback.sendFrame =
        { playback.advance with
          bench
          journal := { playback.journal with
            deliveries := playback.deliveries ++ playback.journal.deliveries
            keyframeRequests :=
              playback.journal.keyframeRequests + if playback.requests then 1 else 0 } } := by
  cases hdrops : playback.drops with
  | true =>
    refine ⟨playback.bench, hplaying, ?_, ?_⟩
    · rw [sentFigures, hdrops, if_pos rfl]
    · rw [sendFrame_of_drops hdrops, deliveries, requests, hdrops]
      rfl
  | false =>
    have hshown := hsession.resolve_left (by simp [hdrops])
    let received := (playback.bench.receive playback.now (playback.header.toBytes playback.unit)).value
    obtain ⟨htaken, hlater, hfigures, hfetched⟩ :=
      hplaying.receive_unit (show playback.header.frame ≠ .null from hframe) playback.now hshown
    have hdelivered : playback.sendFrame =
        { playback.advance with
          bench := received.2.fetch.2
          journal := ({ playback.journal with
            deliveries :=
              ⟨some (PacketKind.of playback.pattern.codec playback.unit),
                received.1 matches .ok true⟩ :: playback.journal.deliveries } : Journal).count
              received.2.fetch.1 } :=
      sendFrame_of_kept hdrops
    refine ⟨received.2.fetch.2, hlater, ?_, ?_⟩
    · rw [sentFigures, hdrops]
      exact hfigures
    · rw [hdelivered, show received.2.fetch.1 = _ from hfetched, count_requests,
        show received.1 = _ from htaken, unit, TestPattern.kind_unit, deliveries, requests, hdrops]
      rfl

theorem sendPing_spec (hplaying : playback.bench.Playing playback.pattern.codec) :
    ∃ (bench : Bench) (pings : List Delivery), bench.Playing playback.pattern.codec ∧
      bench.figures = playback.bench.figures ∧
      playback.sendPing =
        { playback with
          bench
          journal := { playback.journal with
            deliveries := pings ++ playback.journal.deliveries } } := by
  by_cases hdue : playback.pattern.frame % pingInterval = 0
  · let sync : TimeSync :=
      ⟨TimeSync.ping, UInt64.ofNat playback.pattern.frame, playback.sentTime, 0⟩
    obtain ⟨htaken, hlater, hfigures, answer, hfetched⟩ :=
      hplaying.receive_ping (show sync.mode = TimeSync.ping from rfl) playback.now
    have hsent : playback.sendPing = playback.deliver none sync.toBytes := if_pos hdue
    refine ⟨_, [⟨none, false⟩], hlater, hfigures, ?_⟩
    rw [hsent, deliver_eq]
    simp only [htaken, hfetched]
    rfl
  · exact ⟨playback.bench, [], hplaying, rfl, if_neg hdue⟩

theorem draw_spec (hplaying : playback.bench.Playing playback.pattern.codec) :
    ∃ bench : Bench, bench.Playing playback.pattern.codec ∧
      bench.figures =
        { playback.bench.figures with
          rendered := playback.bench.figures.rendered +
            if playback.bench.figures.shown.isSome then 1 else 0 } ∧
      playback.draw =
        { playback with
          bench
          journal := { playback.journal with
            shown := (playback.now, playback.bench.figures.shown) :: playback.journal.shown } } := by
  obtain ⟨hshown, hlater, hfigures⟩ := hplaying.render playback.now
  let rendered := (playback.bench.render playback.now).value
  have hdrawn : playback.draw =
      { playback with
        bench := rendered.2.fetch.2
        journal := ({ playback.journal with
          shown := (playback.now, rendered.1) :: playback.journal.shown } : Journal).count
            rendered.2.fetch.1 } := rfl
  rw [show rendered.2.fetch = _ from hlater.fetch_eq, show rendered.1 = _ from hshown] at hdrawn
  exact ⟨rendered.2, hlater, hfigures, hdrawn⟩

private theorem count_samples (journal : Journal) (view : Option Geometry.EyeInfo)
    (sent : Geometry.TrackingInfo) :
    journal.count (view.toList.map .view ++ [.tracking sent]) =
      { journal with trackingSent := journal.trackingSent + 1 } := by
  cases view <;> rfl

/-- Each time that the sampler wakes the controls are read and a sample is sent. -/
theorem wakeUntil_spec (finish steps : Nat)
    (hplaying : playback.bench.Playing playback.pattern.codec) :
    ∃ (bench : Bench) (samples : Nat), bench.Playing playback.pattern.codec ∧
      bench.figures =
        { playback.bench.figures with polls := playback.bench.figures.polls + samples } ∧
      wakeUntil finish steps playback =
        { playback with
          bench
          journal := { playback.journal with
            trackingSent := playback.journal.trackingSent + samples } } := by
  induction steps generalizing playback with
  | zero => exact ⟨playback.bench, 0, hplaying, rfl, rfl⟩
  | succ steps ih =>
    unfold wakeUntil
    split
    · next wake _ =>
      split
      · obtain ⟨hlater, hfigures, view, sent, hfetched⟩ := hplaying.tick wake
        let ticked := (playback.bench.tick wake).value.2
        have hwoken : ({ playback with bench := ticked } : Playback).fetch =
            { playback with
              bench := ticked.fetch.2
              journal := playback.journal.count ticked.fetch.1 } := rfl
        rw [show ticked.fetch.1 = _ from hfetched, count_samples] at hwoken
        let woken : Playback := { playback with
          bench := ticked.fetch.2
          journal := { playback.journal with
            trackingSent := playback.journal.trackingSent + 1 } }
        obtain ⟨bench, samples, hbench, hcounted, hrest⟩ :=
          ih (show woken.bench.Playing woken.pattern.codec from hlater)
        have hadd (count : Nat) : count + 1 + samples = count + (samples + 1) := by omega
        refine ⟨bench, samples + 1, hbench, ?_, ?_⟩
        · rw [hcounted, show woken.bench.figures = _ from hfigures]
          exact Figures.ext rfl rfl rfl rfl (hadd _) rfl rfl rfl
        · rw [hwoken, hrest]
          exact congrArg (fun trackingSent => { playback with
            bench, journal := { playback.journal with trackingSent } }) (hadd _)
      · exact ⟨playback.bench, 0, hplaying, rfl, rfl⟩
    · exact ⟨playback.bench, 0, hplaying, rfl, rfl⟩

theorem rest_spec (hplaying : playback.bench.Playing playback.pattern.codec) :
    ∃ (bench : Bench) (samples : Nat), bench.Playing playback.pattern.codec ∧
      bench.figures =
        { playback.bench.figures with polls := playback.bench.figures.polls + samples } ∧
      playback.rest =
        { playback with
          now := playback.now + playback.period
          bench
          journal := { playback.journal with
            trackingSent := playback.journal.trackingSent + samples } } := by
  let finish := playback.now + playback.period
  obtain ⟨bench, samples, hbench, hfigures, hwoken⟩ :=
    wakeUntil_spec finish (finish + 1) hplaying
  refine ⟨bench, samples, hbench, hfigures, ?_⟩
  rw [rest, show wakeUntil (playback.now + playback.period) _ playback = _ from hwoken]

/-- One frame, of which the first that is not dropped is to be a keyframe. -/
theorem step_spec (hplaying : playback.bench.Playing playback.pattern.codec)
    (hframe : playback.frame ≠ FrameIndex.null)
    (hsession : playback.drops = true ∨ playback.atKeyframe = true ∨
      playback.bench.figures.shown.isSome = true) :
    ∃ (bench : Bench) (pings : List Delivery) (samples : Nat),
      bench.Playing playback.pattern.codec ∧
      bench.figures =
        { playback.sentFigures with
          rendered := playback.sentFigures.rendered +
            if playback.sentFigures.shown.isSome then 1 else 0
          polls := playback.sentFigures.polls + samples } ∧
      playback.step =
        { playback.advance with
          now := playback.now + playback.period
          bench
          forceKeyframe := playback.requests
          journal :=
            { deliveries := pings ++ (playback.deliveries ++ playback.journal.deliveries)
              shown := (playback.now, playback.sentFigures.shown) :: playback.journal.shown
              keyframeRequests :=
                playback.journal.keyframeRequests + if playback.requests then 1 else 0
              trackingSent := playback.journal.trackingSent + samples } } := by
  obtain ⟨bench, hbench, hfigures, hsent⟩ := sendFrame_spec hplaying hframe hsession
  have hready : playback.sendFrame.bench.Playing playback.sendFrame.pattern.codec := by
    rw [hsent]
    exact hbench
  obtain ⟨bench', pings, hbench', hfigures', hpinged⟩ := sendPing_spec hready
  have hready' : playback.sendFrame.sendPing.bench.Playing
      playback.sendFrame.sendPing.pattern.codec := by
    rw [hpinged]
    exact hbench'
  obtain ⟨drawn, hdrawn, hrendered, hdraw⟩ := draw_spec hready'
  have hsame : playback.sendFrame.sendPing.bench.figures = playback.sentFigures := by
    rw [hpinged, hfigures', hsent, hfigures]
  rw [hsame] at hrendered hdraw
  let after : Playback :=
    { playback.advance with
      bench := drawn
      forceKeyframe := playback.requests
      journal :=
        { deliveries := pings ++ (playback.deliveries ++ playback.journal.deliveries)
          shown := (playback.now, playback.sentFigures.shown) :: playback.journal.shown
          keyframeRequests :=
            playback.journal.keyframeRequests + if playback.requests then 1 else 0
          trackingSent := playback.journal.trackingSent } }
  have hrequested : decide (after.journal.keyframeRequests ≠ playback.journal.keyframeRequests) =
      playback.requests := by
    cases hrequests : playback.requests <;> simp [after, hrequests]
  have hstep : playback.step = after.rest := by
    rw [step, hdraw, hpinged, hsent]
    exact congrArg (fun forceKeyframe => ({ after with forceKeyframe } : Playback).rest) hrequested
  have hplaying' : after.bench.Playing after.pattern.codec := by
    rw [hpinged, hsent] at hdrawn
    exact hdrawn
  obtain ⟨later, samples, hlater, hcounted, hrest⟩ := rest_spec hplaying'
  refine ⟨later, pings, samples, hlater, ?_, ?_⟩
  · rw [hcounted, show after.bench.figures = _ from hrendered]
  · exact hstep.trans hrest

end Playback

end HeadsetStream.Command
