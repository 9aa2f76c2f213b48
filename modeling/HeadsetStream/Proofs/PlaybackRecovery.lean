import HeadsetStream.Proofs.PlaybackRun

/-!
# Recovery from the packets that are dropped

Let one packet in three be dropped, or fewer, in a playback in loopback. The loss is noticed with
the next packet, and a keyframe is requested then. It comes with the packet after that, which is not
one that is dropped. So each loss is made good before there is another one.
-/

namespace HeadsetStream.Command
open Bitstream Decoder Settings Streaming Tracking Video

/-- A loss is noticed with the last of so many frames: the packet before was dropped. -/
def LossNoticed (dropInterval frames : Nat) : Prop := 1 < frames ∧ dropInterval ∣ frames - 1

instance (dropInterval frames : Nat) : Decidable (LossNoticed dropInterval frames) :=
  inferInstanceAs (Decidable (_ ∧ _))

theorem lossNoticed_succ {dropInterval frames : Nat} :
    LossNoticed dropInterval (frames + 1) ↔ 0 < frames ∧ dropInterval ∣ frames := by
  rw [LossNoticed, Nat.lt_add_left_iff_pos, Nat.add_sub_cancel]

theorem lossNoticed_succ_iff_exists {dropInterval frames : Nat} (hpos : 0 < dropInterval) :
    LossNoticed dropInterval (frames + 1) ↔ ∃ k, 1 ≤ k ∧ frames = k * dropInterval := by
  rw [lossNoticed_succ]
  constructor
  · rintro ⟨hframes, k, rfl⟩
    exact ⟨k, Nat.pos_of_mul_pos_left hframes, Nat.mul_comm ..⟩
  · rintro ⟨k, hk, rfl⟩
    exact ⟨Nat.mul_pos hk hpos, Nat.dvd_mul_left ..⟩

theorem not_dvd_add {dropInterval frame ahead : Nat} (h : dropInterval ∣ frame)
    (hahead : 0 < ahead) (hbefore : ahead < dropInterval) : ¬ dropInterval ∣ frame + ahead :=
  fun hdvd => Nat.not_dvd_of_pos_of_lt hahead hbefore ((Nat.dvd_add_right h).mp hdvd)

namespace LossNoticed

variable {dropInterval frames : Nat}

/-- The frame with which a loss is noticed is not dropped itself. -/
theorem kept (hinterval : 3 ≤ dropInterval) (h : LossNoticed dropInterval (frames + 1)) :
    isDropped dropInterval frames = false := by
  rw [← Bool.not_eq_true, isDropped_iff]
  exact not_dvd_add (lossNoticed_succ.mp h).2 one_pos (by omega)

/-- After a loss is noticed, the next frame is not dropped. -/
theorem next_kept (hinterval : 3 ≤ dropInterval) (h : LossNoticed dropInterval frames) :
    isDropped dropInterval frames = false := by
  have hahead : frames + 1 = frames - 1 + 2 := by have := h.1; omega
  rw [← Bool.not_eq_true, isDropped_iff, hahead]
  exact not_dvd_add h.2 two_pos (by omega)

/-- Losses are not noticed with two frames in a row. -/
private theorem not_succ (hinterval : 3 ≤ dropInterval) (h : LossNoticed dropInterval frames) :
    ¬ LossNoticed dropInterval (frames + 1) := by
  have hahead : frames - 1 + 1 = frames := by have := h.1; omega
  have hnext := not_dvd_add h.2 one_pos (by omega)
  rw [hahead] at hnext
  exact fun hloss => hnext (lossNoticed_succ.mp hloss).2

end LossNoticed

/-- How many losses are noticed with one frame more. -/
private theorem noticed_succ (dropInterval frames : Nat) :
    (frames + 1 - 1) / dropInterval =
      (frames - 1) / dropInterval + if LossNoticed dropInterval (frames + 1) then 1 else 0 := by
  simp only [lossNoticed_succ]
  cases frames with
  | zero => rfl
  | succ frames =>
    rw [Nat.add_sub_cancel, Nat.add_sub_cancel, Nat.succ_div]
    simp

namespace Playback

/-- What is left of the losses so far after so many frames, if there are few of them. -/
structure Recovering (settings : ClientSettings) (dropInterval period frames : Nat)
    (playback : Playback) : Prop extends
    playback.Reached settings dropInterval period frames where
  interval : 3 ≤ dropInterval
  requests_eq : playback.journal.keyframeRequests = (frames - 1) / dropInterval
  forceKeyframe_eq : playback.forceKeyframe = decide (LossNoticed dropInterval frames)
  /-- A keyframe is awaited only right after a loss was noticed. -/
  waiting_of : playback.bench.figures.waiting = true → LossNoticed dropInterval frames

variable {settings : ClientSettings} {dropInterval period frames : Nat} {playback : Playback}

/-- A packet comes after a loss if the one before it was dropped. -/
theorem Reached.lost_eq (h : playback.Reached settings dropInterval period frames)
    (hinterval : 3 ≤ dropInterval) (hframes : frames + 1 < 2 ^ 32) :
    playback.bench.figures.lost playback.counter =
      decide (LossNoticed dropInterval (frames + 1)) := by
  have hsome : dropInterval ≠ 1 := by omega
  rw [Figures.lost, h.lastCounter, h.counter_eq]
  cases frames with
  | zero => exact (decide_eq_false fun h => absurd h.1 (by omega)).symm
  | succ frame =>
    rw [lastSent_succ hsome, Option.map_some, Option.any_some, decide_eq_decide, lossNoticed_succ,
      ← isDropped_iff]
    cases hdropped : isDropped dropInterval frame with
    | false => simp [UInt32.ofNat_add]
    | true =>
      cases frame with
      | zero => exact absurd ((isDropped_zero hsome).symm.trans hdropped) Bool.false_ne_true
      | succ frame =>
        refine iff_of_true ?_ ⟨Nat.succ_pos _, rfl⟩
        rw [if_pos rfl, Nat.add_sub_cancel, ← UInt32.ofNat_one, ← UInt32.ofNat_add]
        intro hcount
        have hnat := congrArg UInt32.toNat hcount
        rw [UInt32.toNat_ofNat', UInt32.toNat_ofNat'] at hnat
        omega

/-- No keyframe is awaited when a loss is noticed. -/
theorem Recovering.not_waiting (h : playback.Recovering settings dropInterval period frames)
    (hloss : LossNoticed dropInterval (frames + 1)) :
    playback.bench.figures.waiting = false := by
  rw [← Bool.not_eq_true]
  exact fun hwaiting => (h.waiting_of hwaiting).not_succ h.interval hloss

/-- The keyframe comes right after the loss was noticed. -/
theorem Recovering.atKeyframe_of (h : playback.Recovering settings dropInterval period frames)
    (hloss : LossNoticed dropInterval frames) : playback.atKeyframe = true := by
  rw [atKeyframe, h.forceKeyframe_eq, decide_eq_true hloss]
  rfl

/-- A keyframe is requested exactly when a loss is noticed. -/
theorem Recovering.requests_spec (h : playback.Recovering settings dropInterval period frames)
    (hframes : frames + 1 < 2 ^ 32) :
    playback.requests = decide (LossNoticed dropInterval (frames + 1)) := by
  rw [requests, Figures.requests, h.drops_eq hframes, h.lost_eq h.interval hframes]
  by_cases hloss : LossNoticed dropInterval (frames + 1)
  · simp [hloss, hloss.kept h.interval, h.not_waiting hloss]
  · simp [hloss]

/-- What a frame makes of the mark that a keyframe is awaited. -/
private theorem Recovering.waiting_sent
    (h : playback.Recovering settings dropInterval period frames) (hframes : frames + 1 < 2 ^ 32)
    (hwaiting : playback.sentFigures.waiting = true) : LossNoticed dropInterval (frames + 1) := by
  rw [sentFigures, h.drops_eq hframes] at hwaiting
  cases hdropped : isDropped dropInterval frames with
  | true =>
    rw [hdropped] at hwaiting
    have hnoticed := h.waiting_of hwaiting
    exact absurd ((hnoticed.next_kept h.interval).symm.trans hdropped) Bool.false_ne_true
  | false =>
    rw [hdropped] at hwaiting
    have htaken : ((playback.bench.figures.waiting ||
        playback.bench.figures.lost playback.counter) && !playback.atKeyframe) = true := hwaiting
    rw [h.lost_eq h.interval hframes, Bool.and_eq_true, Bool.or_eq_true, decide_eq_true_eq]
      at htaken
    refine htaken.1.resolve_left fun hbefore => ?_
    -- A keyframe that is still awaited comes now, so that none is awaited any more.
    simp [h.atKeyframe_of (h.waiting_of hbefore)] at htaken

/-- What is reported of a frame that is sent: a keyframe is requested then, or not at all. -/
theorem Reached.sendFrame_counts (h : playback.Reached settings dropInterval period frames)
    (hframes : frames + 1 < 2 ^ 32) :
    let sent := playback.sendFrame
    sent.journal.deliveries = playback.deliveries ++ playback.journal.deliveries ∧
      sent.journal.keyframeRequests =
        playback.journal.keyframeRequests + (if playback.requests then 1 else 0) ∧
      sent.bench.figures = playback.sentFigures ∧
      playback.step.journal.keyframeRequests = sent.journal.keyframeRequests := by
  obtain ⟨_, -, hfigures, hsent⟩ :=
    sendFrame_spec h.playing (h.frame_ne_null hframes) (h.sendable hframes)
  obtain ⟨_, _, _, -, -, hstep⟩ :=
    step_spec h.playing (h.frame_ne_null hframes) (h.sendable hframes)
  rw [hsent, hstep]
  exact ⟨rfl, rfl, hfigures, rfl⟩

theorem Recovering.step (h : playback.Recovering settings dropInterval period frames)
    (hframes : frames + 1 < 2 ^ 32) :
    playback.step.Recovering settings dropInterval period (frames + 1) := by
  have hrequests := h.requests_spec hframes
  have hlater := h.toReached.step hframes
  obtain ⟨bench, pings, samples, -, hfigures, hstep⟩ :=
    step_spec h.playing (h.frame_ne_null hframes) (h.sendable hframes)
  rw [hstep] at hlater ⊢
  exact {
    hlater with
    interval := h.interval
    requests_eq := by
      show playback.journal.keyframeRequests + (if playback.requests then 1 else 0) = _
      rw [hrequests, h.requests_eq, noticed_succ]
      simp only [decide_eq_true_eq]
    forceKeyframe_eq := hrequests
    waiting_of := by
      rw [hfigures]
      exact h.waiting_sent hframes }

theorem afterFrames_recovering (hbackend : settings.backend = .loopback)
    (hinterval : 3 ≤ dropInterval) (hframes : frames < 2 ^ 32) :
    (afterFrames settings dropInterval period frames).Recovering settings dropInterval period
      frames := by
  induction frames with
  | zero =>
    exact {
      start_reached hbackend dropInterval period with
      interval := hinterval
      requests_eq := (Nat.zero_div _).symm
      forceKeyframe_eq := (decide_eq_false fun h => absurd h.1 (by omega)).symm
      waiting_of := nofun }
  | succ frames ih => exact (ih (Nat.lt_of_succ_lt hframes)).step hframes

/-- The packet after one that was dropped is taken, and a keyframe is requested. -/
theorem Recovering.notice (h : playback.Recovering settings dropInterval period frames)
    (hframes : frames + 1 < 2 ^ 32)
    (hloss : LossNoticed dropInterval (frames + 1)) :
    let sent := playback.sendFrame
    playback.bench.link.waiting = false ∧
      (∃ kind, sent.journal.deliveries = ⟨some kind, true⟩ :: playback.journal.deliveries) ∧
      sent.journal.keyframeRequests = playback.journal.keyframeRequests + 1 := by
  obtain ⟨hdeliveries, hcount, -, -⟩ := h.sendFrame_counts hframes
  rw [h.requests_spec hframes, decide_eq_true hloss] at hcount
  rw [deliveries, h.drops_eq hframes, hloss.kept h.interval] at hdeliveries
  exact ⟨h.not_waiting hloss, ⟨_, hdeliveries⟩, hcount⟩

/-- With any other frame none is requested. -/
theorem Recovering.pass (h : playback.Recovering settings dropInterval period frames)
    (hframes : frames + 1 < 2 ^ 32)
    (hloss : ¬ LossNoticed dropInterval (frames + 1)) :
    playback.sendFrame.journal.keyframeRequests = playback.journal.keyframeRequests := by
  obtain ⟨-, hcount, -, -⟩ := h.sendFrame_counts hframes
  rw [h.requests_spec hframes, decide_eq_false hloss] at hcount
  exact hcount

/-- The packet after the one with which a loss was noticed has the keyframe, and none is awaited
any more then. -/
theorem Recovering.recover (h : playback.Recovering settings dropInterval period frames)
    (hframes : frames + 1 < 2 ^ 32)
    (hloss : LossNoticed dropInterval frames) :
    let sent := playback.sendFrame
    sent.journal.deliveries = ⟨some .keyframe, true⟩ :: playback.journal.deliveries ∧
      sent.bench.link.waiting = false := by
  have hkeyframe := h.atKeyframe_of hloss
  obtain ⟨hdeliveries, -, hfigures, -⟩ := h.sendFrame_counts hframes
  rw [deliveries, h.drops_eq hframes, hloss.next_kept h.interval, hkeyframe]
    at hdeliveries
  refine ⟨hdeliveries, ?_⟩
  have hwaiting := congrArg Figures.waiting hfigures
  rw [sentFigures, h.drops_eq hframes, hloss.next_kept h.interval, hkeyframe] at hwaiting
  exact hwaiting.trans (Bool.and_false _)

end Playback

/-- Let one packet in three be dropped in a playback in loopback, or fewer. After each one that is
dropped a keyframe is requested with the next packet, and only then. The packet after that has the
keyframe and is not dropped, and none is awaited any more then. Frames are counted from zero. -/
theorem dropped_packets_recovered (args : Arguments) {settings : ClientSettings}
    (hbackend : settings.backend = .loopback) {period frames : Nat}
    (hrate : framePeriod settings.refreshRate = some period) (hperiod : 0 < period)
    (hframes : args.duration * nanosPerSecond ⌈/⌉ period = frames) (hcount : frames < 2 ^ 32)
    (hinterval : 3 ≤ args.dropInterval) :
    let after := Playback.afterFrames settings args.dropInterval period
    Program.play args settings = some (after frames) ∧
      (Summary.of (after frames)).keyframeRequests = (frames - 1) / args.dropInterval ∧
      (∀ k, 1 ≤ k → k * args.dropInterval < frames →
        let before := after (k * args.dropInterval)
        let sent := before.sendFrame
        before.bench.link.waiting = false ∧
          (∃ kind, sent.journal.deliveries = ⟨some kind, true⟩ :: before.journal.deliveries) ∧
          sent.journal.keyframeRequests = before.journal.keyframeRequests + 1) ∧
      (∀ frame < frames, (∀ k, 1 ≤ k → frame ≠ k * args.dropInterval) →
        (after frame).sendFrame.journal.keyframeRequests =
          (after frame).journal.keyframeRequests) ∧
      (∀ frame < frames, (after (frame + 1)).journal.keyframeRequests =
        (after frame).sendFrame.journal.keyframeRequests) ∧
      (∀ k, 1 ≤ k → k * args.dropInterval + 1 < frames →
        let before := after (k * args.dropInterval + 1)
        let sent := before.sendFrame
        sent.journal.deliveries = ⟨some .keyframe, true⟩ :: before.journal.deliveries ∧
          sent.bench.link.waiting = false) ∧
      ∀ frame ≤ frames, (∀ k, 1 ≤ k → frame ≠ k * args.dropInterval + 1) →
        (after frame).bench.link.waiting = false := by
  intro after
  have hpos : 0 < args.dropInterval := by omega
  have hrecovering (frame : Nat) (h : frame ≤ frames) :
      (after frame).Recovering settings args.dropInterval period frame :=
    Playback.afterFrames_recovering hbackend hinterval (by omega)
  refine ⟨hframes ▸ Playback.play_eq args hrate hperiod,
    (hrecovering frames le_rfl).requests_eq, ?_, ?_, ?_, ?_, ?_⟩
  · intro k hk hframe
    have hloss := (lossNoticed_succ_iff_exists hpos).mpr ⟨k, hk, rfl⟩
    exact (hrecovering _ hframe.le).notice (by omega) hloss
  · intro frame hframe hnone
    have hloss : ¬ LossNoticed args.dropInterval (frame + 1) := by
      rw [lossNoticed_succ_iff_exists hpos]
      exact fun ⟨k, hk, hframe⟩ => hnone k hk hframe
    exact (hrecovering _ hframe.le).pass (by omega) hloss
  · intro frame hframe
    exact ((hrecovering _ hframe.le).sendFrame_counts (by omega)).2.2.2
  · intro k hk hframe
    have hloss := (lossNoticed_succ_iff_exists hpos).mpr ⟨k, hk, rfl⟩
    exact (hrecovering _ hframe.le).recover (by omega) hloss
  · intro frame hframe hnone
    rw [← Bool.not_eq_true]
    intro hwaiting
    have hloss := (hrecovering _ hframe).waiting_of hwaiting
    obtain ⟨last, rfl⟩ := Nat.exists_eq_add_of_le' hloss.1.le
    obtain ⟨k, hk, rfl⟩ := (lossNoticed_succ_iff_exists hpos).mp hloss
    exact hnone k hk rfl

theorem five_seconds_recovered :
    let args : Arguments := { codec := some "hevc", dropEvery := some 4 }
    let settings : ClientSettings := { codec := .hevc }
    ∃ playback, Program.play args settings = some playback ∧
      (Summary.of playback).keyframeRequests = 112 ∧
      ∀ k, 1 ≤ k → k ≤ 112 →
        (Playback.afterFrames settings 4 11111111 (4 * k + 1)).sendFrame.bench.link.waiting =
          false := by
  intro args settings
  obtain ⟨hplay, hrequests, -, -, -, hrecovered, -⟩ :=
    @dropped_packets_recovered args settings rfl 11111111 451 (by decide +kernel) (by decide)
      (by decide +kernel) (by decide) (by decide)
  have hinterval : args.dropInterval = 4 := rfl
  rw [hinterval] at hplay hrequests hrecovered
  refine ⟨_, hplay, hrequests, fun k hk hlast => ?_⟩
  rw [Nat.mul_comm]
  exact (hrecovered k hk (by omega)).2

end HeadsetStream.Command
