import HeadsetStream.Command.Program
import HeadsetStream.Proofs.PlaybackSteps
import Mathlib.Algebra.Order.Floor.Div

/-!
# A whole playback

In loopback, and with time simulated, nothing is lost but the packets that are dropped on purpose.
So it is known at the outset how many frames a playback has, which of them are received, decoded and
shown, and what each render shows.
-/

namespace HeadsetStream.Command
open Bitstream Decoder Settings Streaming Tracking Video

/-- Whether the packet of a frame is dropped; frames are counted from zero. -/
def isDropped (dropInterval frame : Nat) : Bool :=
  0 < dropInterval && (frame + 1) % dropInterval == 0

/-- The last of so many frames whose packet was not dropped. -/
def lastSent (dropInterval : Nat) : (frames : Nat) → Option Nat
  | 0 => none
  | frames + 1 => if isDropped dropInterval frames then lastSent dropInterval frames else some frames

theorem isDropped_iff {dropInterval frame : Nat} :
    isDropped dropInterval frame = true ↔ dropInterval ∣ frame + 1 := by
  rcases Nat.eq_zero_or_pos dropInterval with rfl | hpos
  · simp [isDropped]
  · simp [isDropped, hpos, Nat.dvd_iff_mod_eq_zero]

/-- No two frames in a row are dropped, unless all are. -/
private theorem isDropped_pred {dropInterval frame : Nat} (h : dropInterval ≠ 1)
    (hdropped : isDropped dropInterval (frame + 1) = true) :
    isDropped dropInterval frame = false := by
  rw [← Bool.not_eq_true, isDropped_iff]
  intro hframe
  exact h (Nat.dvd_one.mp ((Nat.dvd_add_right hframe).mp (isDropped_iff.mp hdropped)))

theorem isDropped_one (frame : Nat) : isDropped 1 frame = true := by
  simp [isDropped, Nat.mod_one]

theorem isDropped_zero {dropInterval : Nat} (h : dropInterval ≠ 1) :
    isDropped dropInterval 0 = false := by
  rw [← Bool.not_eq_true, isDropped_iff]
  exact fun hone => h (Nat.dvd_one.mp hone)

theorem lastSent_one (frames : Nat) : lastSent 1 frames = none := by
  induction frames with
  | zero => rfl
  | succ frames ih => rw [lastSent, if_pos (isDropped_one frames), ih]

/-- Of the frames up to a certain one that one was sent last, or else the one before. -/
theorem lastSent_succ {dropInterval : Nat} (h : dropInterval ≠ 1) (frame : Nat) :
    lastSent dropInterval (frame + 1) =
      some (if isDropped dropInterval frame then frame - 1 else frame) := by
  rw [lastSent]
  cases hdropped : isDropped dropInterval frame with
  | false => rfl
  | true =>
    cases frame with
    | zero => exact absurd ((isDropped_zero h).symm.trans hdropped) Bool.false_ne_true
    | succ frame =>
      rw [if_pos rfl, if_pos rfl, lastSent, isDropped_pred h hdropped]
      rfl

/-- How many frames are sent with one more. -/
private theorem sent_succ (dropInterval frames : Nat) :
    frames + 1 - (frames + 1) / dropInterval =
      frames - frames / dropInterval + if isDropped dropInterval frames then 0 else 1 := by
  have hle : frames / dropInterval ≤ frames := Nat.div_le_self ..
  have hdiv : (frames + 1) / dropInterval = _ := Nat.succ_div
  simp only [← isDropped_iff] at hdiv
  rw [hdiv]
  split <;> omega

namespace Playback

/-- A playback after so many frames. -/
def afterFrames (settings : ClientSettings) (dropInterval period : Nat) : (frames : Nat) → Playback
  | 0 => start settings dropInterval period
  | frames + 1 => (afterFrames settings dropInterval period frames).step

theorem afterFrames_clock (settings : ClientSettings) (dropInterval period frames : Nat) :
    (afterFrames settings dropInterval period frames).clock = (frames * period, period) := by
  induction frames with
  | zero => exact Prod.ext (Nat.zero_mul period).symm rfl
  | succ frames ih =>
    obtain ⟨hnow, hperiod⟩ := Prod.mk.inj ih
    rw [afterFrames, step_clock, hnow, hperiod, Nat.succ_mul]

theorem afterFrames_now (settings : ClientSettings) (dropInterval period frames : Nat) :
    (afterFrames settings dropInterval period frames).now = frames * period :=
  congrArg Prod.fst (afterFrames_clock settings dropInterval period frames)

/-- What a playback in loopback is like after so many frames. -/
structure Reached (settings : ClientSettings) (dropInterval period frames : Nat)
    (playback : Playback) : Prop where
  dropInterval_eq : playback.dropInterval = dropInterval
  period_eq : playback.period = period
  now_eq : playback.now = frames * period
  pattern_eq : playback.pattern = ⟨settings.codec, frames, keyframeInterval settings.refreshRate⟩
  counter_eq : playback.counter = UInt32.ofNat frames
  frame_eq : playback.frame = UInt64.ofNat frames
  playing : playback.bench.Playing playback.pattern.codec
  received : playback.bench.figures.received = frames - frames / dropInterval
  decoded : playback.bench.figures.decoded = playback.bench.figures.received
  images : playback.bench.figures.images = playback.bench.figures.received
  rendered : playback.bench.figures.rendered = if dropInterval = 1 then 0 else frames
  shown : playback.bench.figures.shown = (lastSent dropInterval frames).map UInt64.ofNat
  lastCounter : playback.bench.figures.lastCounter = (lastSent dropInterval frames).map UInt32.ofNat
  polls : playback.bench.figures.polls = playback.journal.trackingSent + 1
  drawn : playback.journal.shown.reverse = (List.range frames).map fun frame =>
    (frame * period, (lastSent dropInterval (frame + 1)).map UInt64.ofNat)

/-- A playback starts between two packets of a stream, with one sample behind it. -/
theorem start_reached {settings : ClientSettings} (hbackend : settings.backend = .loopback)
    (dropInterval period : Nat) :
    (start settings dropInterval period).Reached settings dropInterval period 0 := by
  have hengine : SimulatedEngine.ofBackend settings.backend = .ok .loopback := by rw [hbackend]; rfl
  let bench := (start settings dropInterval period).bench
  let pipeline : TrialPipeline :=
    { settings := settings.stream.decoder, engine := .loopback, links := {} }
  have hdecoding : bench.client.decoding = { pipeline := some pipeline } := by
    show Decoding.start {} 0 true (SimulatedEngine.ofBackend settings.backend)
      settings.stream.decoder = _
    rw [hengine]
    rfl
  have hready : pipeline.Ready := ⟨rfl, rfl, rfl, nofun⟩
  have hlobby : bench.headset.shown = none := rfl
  have htuned : Bench.Tuned settings.codec bench.headset pipeline :=
    ⟨hready, rfl, rfl, by rw [hlobby]; exact nofun, nofun⟩
  have hplaying : bench.Playing settings.codec :=
    ⟨⟨pipeline, congrArg _ hdecoding, htuned⟩, rfl, rfl, rfl⟩
  exact {
    dropInterval_eq := rfl
    period_eq := rfl
    now_eq := (Nat.zero_mul _).symm
    pattern_eq := rfl
    counter_eq := rfl
    frame_eq := rfl
    playing := hplaying
    received := (Nat.zero_sub _).symm
    decoded := rfl
    images := rfl
    rendered := (ite_self 0).symm
    shown := hlobby
    lastCounter := congrArg Decoding.lastCounter hdecoding
    polls := rfl
    drawn := rfl }

namespace Reached

variable {settings : ClientSettings} {dropInterval period frames : Nat} {playback : Playback}

theorem drops_eq (h : playback.Reached settings dropInterval period frames)
    (hframes : frames + 1 < 2 ^ 32) : playback.drops = isDropped dropInterval frames := by
  have hcount : (playback.counter + 1).toNat = frames + 1 := by
    rw [h.counter_eq, ← UInt32.ofNat_one, ← UInt32.ofNat_add]
    exact UInt32.toNat_ofNat_of_lt hframes
  rw [drops, h.dropInterval_eq, hcount, isDropped]

/-- The first frame that is sent is a keyframe, and later ones find the picture of an earlier one
on display. -/
theorem sendable (h : playback.Reached settings dropInterval period frames)
    (hframes : frames + 1 < 2 ^ 32) :
    playback.drops = true ∨ playback.atKeyframe = true ∨
      playback.bench.figures.shown.isSome = true := by
  rw [h.drops_eq hframes, h.shown, Option.isSome_map]
  by_cases hall : dropInterval = 1
  · rw [hall]
    exact .inl (isDropped_one frames)
  · cases frames with
    | zero =>
      have hfirst : playback.pattern.frame = 0 := by rw [h.pattern_eq]
      refine .inr (.inl ?_)
      rw [atKeyframe, TestPattern.atKeyframe, hfirst, Nat.zero_mod]
      exact Bool.or_true _
    | succ frames =>
      rw [lastSent_succ hall]
      exact .inr (.inr rfl)

theorem frame_ne_null (h : playback.Reached settings dropInterval period frames)
    (hframes : frames + 1 < 2 ^ 32) : playback.frame ≠ FrameIndex.null := by
  rw [h.frame_eq]
  intro hnull
  have hsmall : frames < UInt64.size := by
    have hsize : (2 : Nat) ^ 32 < UInt64.size := by decide
    omega
  have hcount := congrArg UInt64.toNat hnull
  rw [UInt64.toNat_ofNat_of_lt' hsmall] at hcount
  have hlast : FrameIndex.null.toNat = 2 ^ 64 - 1 := rfl
  omega

theorem sentFigures_spec (h : playback.Reached settings dropInterval period frames)
    (hframes : frames + 1 < 2 ^ 32) :
    let sent := playback.sentFigures
    sent.received = frames + 1 - (frames + 1) / dropInterval ∧ sent.decoded = sent.received ∧
      sent.images = sent.received ∧ sent.rendered = playback.bench.figures.rendered ∧
      sent.polls = playback.bench.figures.polls ∧
      sent.shown = (lastSent dropInterval (frames + 1)).map UInt64.ofNat ∧
      sent.lastCounter = (lastSent dropInterval (frames + 1)).map UInt32.ofNat := by
  rw [sentFigures, h.drops_eq hframes, sent_succ, lastSent]
  cases isDropped dropInterval frames with
  | true => exact ⟨h.received, h.decoded, h.images, rfl, rfl, h.shown, h.lastCounter⟩
  | false =>
    refine ⟨congrArg (· + 1) h.received, congrArg (· + 1) h.decoded, congrArg (· + 1) h.images, rfl,
      rfl, congrArg some h.frame_eq, congrArg some h.counter_eq⟩

theorem step (h : playback.Reached settings dropInterval period frames)
    (hframes : frames + 1 < 2 ^ 32) :
    playback.step.Reached settings dropInterval period (frames + 1) := by
  obtain ⟨bench, pings, samples, hbench, hfigures, hstep⟩ :=
    step_spec h.playing (h.frame_ne_null hframes) (h.sendable hframes)
  obtain ⟨hreceived, hdecoded, himages, hrendered, hpolls, hshown, hcounter⟩ :=
    h.sentFigures_spec hframes
  have hrenders : playback.sentFigures.rendered +
      (if playback.sentFigures.shown.isSome then 1 else 0) =
        if dropInterval = 1 then 0 else frames + 1 := by
    rw [hrendered, h.rendered, hshown, Option.isSome_map]
    by_cases hall : dropInterval = 1
    · simp [hall, lastSent_one]
    · simp [hall, lastSent_succ hall]
  rw [hstep]
  exact {
    dropInterval_eq := h.dropInterval_eq
    period_eq := h.period_eq
    now_eq := by
      show playback.now + playback.period = (frames + 1) * period
      rw [h.now_eq, h.period_eq, Nat.succ_mul]
    pattern_eq := by
      show { playback.pattern with frame := playback.pattern.frame + 1 } = _
      rw [h.pattern_eq]
    counter_eq := by
      show playback.counter + 1 = _
      rw [h.counter_eq]
      exact (UInt32.ofNat_add frames 1).symm
    frame_eq := by
      show playback.frame + 1 = _
      rw [h.frame_eq]
      exact (UInt64.ofNat_add frames 1).symm
    playing := hbench
    received := by rw [hfigures]; exact hreceived
    decoded := by rw [hfigures]; exact hdecoded
    images := by rw [hfigures]; exact himages
    rendered := by rw [hfigures]; exact hrenders
    shown := by rw [hfigures]; exact hshown
    lastCounter := by rw [hfigures]; exact hcounter
    polls := by
      rw [hfigures]
      show playback.sentFigures.polls + samples = playback.journal.trackingSent + samples + 1
      rw [hpolls, h.polls, Nat.add_right_comm]
    drawn := by
      show ((playback.now, playback.sentFigures.shown) :: playback.journal.shown).reverse = _
      rw [List.reverse_cons, h.drawn, List.range_succ, List.map_append, h.now_eq, hshown]
      rfl }

end Reached

private theorem afterFrames_reached {settings : ClientSettings}
    (hbackend : settings.backend = .loopback)
    (dropInterval period : Nat) {frames : Nat} (hframes : frames < 2 ^ 32) :
    (afterFrames settings dropInterval period frames).Reached settings dropInterval period
      frames := by
  induction frames with
  | zero => exact start_reached hbackend dropInterval period
  | succ frames ih => exact (ih (by omega)).step hframes

theorem lt_ceilDiv_iff {deadline period : Nat} (hperiod : 0 < period) (frames : Nat) :
    frames < deadline ⌈/⌉ period ↔ frames * period < deadline := by
  rw [← not_le, ceilDiv_le_iff_le_mul hperiod, not_le, Nat.mul_comm]

/-- A playback goes on until the deadline, frame by frame. -/
private theorem playUntil_afterFrames {settings : ClientSettings}
    {dropInterval period deadline : Nat}
    (hperiod : 0 < period) (steps : Nat) {frames : Nat} (hframes : frames ≤ deadline ⌈/⌉ period)
    (hsteps : deadline ⌈/⌉ period ≤ frames + steps) :
    (afterFrames settings dropInterval period frames).playUntil deadline steps =
      afterFrames settings dropInterval period (deadline ⌈/⌉ period) := by
  induction steps generalizing frames with
  | zero =>
    rw [playUntil, Nat.le_antisymm hframes hsteps]
  | succ steps ih =>
    rw [playUntil, afterFrames_now]
    split
    · next hmore =>
      have hnext := (lt_ceilDiv_iff hperiod frames).mpr hmore
      exact ih hnext (by omega)
    · next hdone =>
      have hlast : ¬ frames < deadline ⌈/⌉ period := fun h =>
        hdone ((lt_ceilDiv_iff hperiod frames).mp h)
      rw [Nat.le_antisymm hframes (Nat.le_of_not_lt hlast)]

/-- How a playback ends. -/
theorem play_eq (args : Arguments) {settings : ClientSettings} {period : Nat}
    (hrate : framePeriod settings.refreshRate = some period) (hperiod : 0 < period) :
    Program.play args settings =
      some (afterFrames settings args.dropInterval period
        (args.duration * nanosPerSecond ⌈/⌉ period)) := by
  rw [Program.play, run, hrate]
  apply congrArg some
  apply playUntil_afterFrames hperiod _ (Nat.zero_le _)
  rw [Nat.zero_add, ceilDiv_le_iff_le_mul hperiod]
  exact Nat.le_mul_of_pos_left _ hperiod

end Playback

/-- A playback in loopback has as many frames as begin before its end. Each one whose packet is not
dropped is received, decoded and handed on, and each time the last one sent is shown, unless all
packets are dropped. -/
theorem playback_without_starvation (args : Arguments) {settings : ClientSettings}
    (hbackend : settings.backend = .loopback) {period frames : Nat}
    (hrate : framePeriod settings.refreshRate = some period) (hperiod : 0 < period)
    (hframes : args.duration * nanosPerSecond ⌈/⌉ period = frames) (hcount : frames < 2 ^ 32) :
    ∃ playback, Program.play args settings = some playback ∧
      playback = Playback.afterFrames settings args.dropInterval period frames ∧
      let summary := Summary.of playback
      (args.dropInterval = 0 → summary.received = frames) ∧
        (2 ≤ args.dropInterval → summary.received = frames - frames / args.dropInterval) ∧
        summary.decoded = summary.received ∧ summary.images = summary.received ∧
        (args.dropInterval ≠ 1 → summary.rendered = frames ∧
          playback.journal.shown.reverse = (List.range frames).map fun frame =>
            (frame * period, some (UInt64.ofNat
              (if isDropped args.dropInterval frame then frame - 1 else frame)))) ∧
        (args.dropInterval = 1 → summary.received = 0 ∧ summary.decoded = 0 ∧
          summary.rendered = 0 ∧
          playback.journal.shown.reverse = (List.range frames).map fun frame =>
            (frame * period, none)) ∧
        summary.polls = summary.trackingSent + 1 := by
  obtain ⟨playback, hplay, hsteps⟩ : ∃ playback, Program.play args settings = some playback ∧
      playback = Playback.afterFrames settings args.dropInterval period frames :=
    ⟨_, hframes ▸ Playback.play_eq args hrate hperiod, rfl⟩
  have hreached : playback.Reached settings args.dropInterval period frames := by
    rw [hsteps]
    exact Playback.afterFrames_reached hbackend args.dropInterval period hcount
  refine ⟨playback, hplay, hsteps, fun hnone => ?_, fun _ => hreached.received, hreached.decoded,
    hreached.images, fun hsome => ⟨?_, ?_⟩, fun hall => ?_, hreached.polls⟩
  · have hreceived := hreached.received
    rw [hnone, Nat.div_zero] at hreceived
    exact hreceived
  · exact hreached.rendered.trans (if_neg hsome)
  · rw [hreached.drawn]
    apply List.map_congr_left
    intro frame _
    rw [lastSent_succ hsome, Option.map_some]
  · have hreceived := hreached.received
    rw [hall, Nat.div_one, Nat.sub_self] at hreceived
    refine ⟨hreceived, hreached.decoded.trans hreceived, hreached.rendered.trans (if_pos hall), ?_⟩
    have hdrawn := hreached.drawn
    simp only [hall, lastSent_one, Option.map_none] at hdrawn
    exact hdrawn

theorem five_seconds_without_starvation :
    let args : Arguments := { dropEvery := some 4 }
    ∃ playback, Program.play args {} = some playback ∧
      (Summary.of playback).received = 339 ∧ (Summary.of playback).rendered = 451 := by
  intro args
  obtain ⟨playback, hplay, -, -, hreceived, -, -, hrendered, -⟩ :=
    @playback_without_starvation args {} rfl 11111111 451 (by decide +kernel) (by decide)
      (by decide +kernel) (by decide)
  have hinterval : args.dropInterval = 4 := rfl
  rw [hinterval] at hreceived
  exact ⟨playback, hplay, hreceived (by decide), (hrendered (by decide)).1⟩

end HeadsetStream.Command
