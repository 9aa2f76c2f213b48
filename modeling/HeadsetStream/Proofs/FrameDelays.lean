import Mathlib.Data.Nat.ModEq
import Mathlib.Order.Bounds.Basic
import Mathlib.Tactic.Linarith
import HeadsetStream.Latency.Collector
import HeadsetStream.Proofs.ExactArithmetic
import HeadsetStream.Proofs.LastSetting

/-!
# Delays of frames

Frames are reported at four stages of their way. A delay is the time from one report of a frame to a
later one, and never from a report of another frame: as soon as a frame takes over a slot, what was
known of the frame that had it is gone. The average of the decode times stays between the smallest
and the largest of them.
-/

namespace HeadsetStream.Latency
open Number Video

/-- Where on its way through the client a frame is reported. -/
inductive Stage where
  | received
  | decoderInput
  | decoderOutput
  | rendered
  deriving DecidableEq, Repr

/-- Whether a frame that is reported at a stage takes over its slot. -/
def Stage.claims : Stage → Bool
  | received | decoderInput => true
  | decoderOutput | rendered => false

structure Report where
  stage : Stage
  now : Nat
  frame : FrameIndex
  deriving DecidableEq, Repr

/-- Whether a report puts an end to what was known of a frame at a stage: it says the same anew, or
another frame takes over the slot. -/
def Report.Supersedes (report : Report) (stage : Stage) (frame : FrameIndex) : Prop :=
  report.stage = stage ∧ report.frame = frame ∨
    report.stage.claims = true ∧ report.frame ≠ frame ∧
      report.frame.toNat ≡ frame.toNat [MOD slotCount]

/-- The frame was last reported at this stage at a time, and no other took over its slot since. -/
def LastAt (stage : Stage) (frame : FrameIndex) (time : Nat) (reports : List Report) : Prop :=
  ∃ before after, reports = before ++ ⟨stage, time, frame⟩ :: after ∧
    ∀ later ∈ after, ¬ later.Supersedes stage frame

/-- The times from a frame's last report as decoder input to one as decoder output. -/
def decodeTimes (reports : List Report) : Set Nat :=
  {delay | ∃ before now frame after start,
    reports = before ++ ⟨.decoderOutput, now, frame⟩ :: after ∧
      LastAt .decoderInput frame start before ∧ delay = now - start}

/-- An average that is there is between the smallest and the largest of the times. -/
def Averages (times : Set Nat) : Option ℚ → Prop
  | none => times = ∅
  | some average => ∃ least greatest, IsLeast times least ∧ IsGreatest times greatest ∧
      (least : ℚ) ≤ average ∧ average ≤ greatest

/-- What a report makes of the time at which a frame was last at a stage. -/
def Report.setting (stage : Stage) (frame : FrameIndex) (report : Report) : Option (Option Nat) :=
  if report.stage.claims ∧ FrameLog.slot report.frame = FrameLog.slot frame then
    if report.frame = frame then
      if report.stage = stage then some (some report.now) else none
    else some none
  else none

private theorem slot_eq_iff {frame other : FrameIndex} :
    FrameLog.slot frame = FrameLog.slot other ↔ frame.toNat ≡ other.toNat [MOD slotCount] :=
  Fin.ext_iff

section

variable {stage : Stage} {frame : FrameIndex} {report : Report}

theorem setting_eq_some_iff (hstage : stage.claims = true) {time : Nat} :
    report.setting stage frame = some (some time) ↔ report = ⟨stage, time, frame⟩ := by
  obtain ⟨reported, now, other⟩ := report
  by_cases hframe : other = frame
  · subst hframe
    by_cases hreported : reported = stage
    · subst hreported
      simp [Report.setting, hstage]
    · simp [Report.setting, hreported]
  · simp [Report.setting, hframe]

theorem setting_eq_none_iff (hstage : stage.claims = true) :
    report.setting stage frame = none ↔ ¬ report.Supersedes stage frame := by
  obtain ⟨reported, now, other⟩ := report
  by_cases hframe : other = frame
  · subst hframe
    by_cases hreported : reported = stage
    · subst hreported
      simp [Report.setting, Report.Supersedes, hstage]
    · simp [Report.setting, Report.Supersedes, hreported]
  · simp [Report.setting, Report.Supersedes, hframe, slot_eq_iff]

/-- Frames that do not share a slot leave each other's times alone; of two that do, one drops the
times of the other. -/
theorem lastSet_setting_iff (hstage : stage.claims = true) {reports : List Report} {time : Nat} :
    lastSet (Report.setting stage frame) none reports = some time ↔
      LastAt stage frame time reports := by
  rw [lastSet_eq_iff (Option.some_ne_none time)]
  simp only [setting_eq_some_iff hstage, setting_eq_none_iff hstage, LastAt]
  constructor
  · rintro ⟨before, report, after, hreports, rfl, hafter⟩
    exact ⟨before, after, hreports, hafter⟩
  · rintro ⟨before, after, hreports, hafter⟩
    exact ⟨before, _, after, hreports, rfl, hafter⟩

end

/-- The time at which a frame was at a stage, if the stage has its time taken. -/
def FrameTimes.at? (times : FrameTimes) : Stage → Option Nat
  | .received => times.received
  | .decoderInput => times.decoderInput
  | .decoderOutput | .rendered => none

/-- The times of a frame that was reported at a stage now. -/
def FrameTimes.mark (now : Nat) (stage : Stage) (times : FrameTimes) : FrameTimes :=
  match stage with
  | .received => { times with received := some now }
  | .decoderInput => { times with decoderInput := some now }
  | .decoderOutput | .rendered => times

private theorem FrameTimes.frame_mark (now : Nat) (stage : Stage) (times : FrameTimes) :
    (times.mark now stage).frame = times.frame := by
  cases stage <;> rfl

private theorem FrameTimes.at?_mark {reported : Stage} (h : reported.claims = true) (now : Nat)
    (stage : Stage) (times : FrameTimes) :
    (times.mark now reported).at? stage =
      if reported = stage then some now else times.at? stage := by
  cases reported with
  | received => cases stage <;> rfl
  | decoderInput => cases stage <;> rfl
  | _ => exact nomatch h

/-- The time at which a frame was at a stage, if it has its slot. -/
def FrameLog.time? (log : FrameLog) (stage : Stage) (frame : FrameIndex) : Option Nat :=
  (log.times? frame).bind (·.at? stage)

namespace FrameLog

variable (log : FrameLog) (stage : Stage) (frame other : FrameIndex)

private theorem frame_times : ((log.times? frame).getD { frame }).frame = frame := by
  cases htimes : log.times? frame with
  | none => rfl
  | some times => simpa using (Option.filter_eq_some_iff.mp htimes).2

private theorem at?_times :
    ((log.times? frame).getD { frame }).at? stage = log.time? stage frame := by
  rw [time?]
  cases log.times? frame with
  | none => cases stage <;> rfl
  | some times => rfl

/-- What is marked is all that is known of the frames in a slot. -/
private theorem time?_mark {reported : Stage} (hclaims : reported.claims = true) (now : Nat) :
    (log.record frame (·.mark now reported)).time? stage other =
      if slot frame = slot other then
        if frame = other then if reported = stage then some now else log.time? stage frame
        else none
      else log.time? stage other := by
  rw [time?, times?_record]
  split
  · have hmarked := ((log.times? frame).getD { frame }).at?_mark hclaims now stage
    have hframe := (FrameTimes.frame_mark now reported _).trans (log.frame_times frame)
    rw [at?_times] at hmarked
    rw [Option.filter_some, hframe]
    split <;> simp_all
  · rfl

end FrameLog

namespace Collector

variable {α : Type} [Scalar α]

/-- The figures with one more report. -/
def hear (collector : Collector α) (report : Report) : Collector α :=
  match report.stage with
  | .received => collector.received report.now report.frame
  | .decoderInput => collector.decoderInput report.now report.frame
  | .decoderOutput => collector.decoderOutput report.now report.frame
  | .rendered => collector.rendered report.now report.frame

def after (reports : List Report) : Collector α := reports.foldl hear .empty

@[simp] theorem after_append_singleton (reports : List Report) (report : Report) :
    (after (reports ++ [report]) : Collector α) = (after reports).hear report :=
  List.foldl_append

private theorem frames_hear_of_claims (collector : Collector α) {report : Report}
    (h : report.stage.claims = true) : (collector.hear report).frames =
      collector.frames.record report.frame (·.mark report.now report.stage) := by
  obtain ⟨stage, now, frame⟩ := report
  cases stage with
  | received => rfl
  | decoderInput => rfl
  | _ => exact nomatch h

private theorem frames_hear_of_not_claims (collector : Collector α) {report : Report}
    (h : report.stage.claims = false) : (collector.hear report).frames = collector.frames := by
  obtain ⟨stage, now, frame⟩ := report
  cases stage with
  | decoderOutput => rfl
  | rendered =>
    simp only [hear, rendered]
    split <;> rfl
  | _ => exact nomatch h

private theorem time?_hear (collector : Collector α) (report : Report) (stage : Stage)
    (frame : FrameIndex) :
    (collector.hear report).frames.time? stage frame =
      (report.setting stage frame).getD (collector.frames.time? stage frame) := by
  cases hclaims : report.stage.claims with
  | false => simp [Report.setting, hclaims, collector.frames_hear_of_not_claims hclaims]
  | true =>
    rw [collector.frames_hear_of_claims hclaims, FrameLog.time?_mark _ _ _ _ hclaims]
    simp only [Report.setting, hclaims, true_and]
    split
    · split
      · next hframe => split <;> simp [hframe]
      · rfl
    · rfl

private theorem time?_after (reports : List Report) (stage : Stage) (frame : FrameIndex) :
    (after reports : Collector α).frames.time? stage frame =
      lastSet (Report.setting stage frame) none reports := by
  induction reports using List.reverseRecOn with
  | nil =>
    show FrameLog.empty.time? stage frame = none
    rw [FrameLog.time?, FrameLog.times?_empty, Option.bind_none]
  | append_singleton reports report ih =>
    rw [after_append_singleton, time?_hear, lastSet_append_singleton, ih]

section

variable {stage : Stage} {frame : FrameIndex} {reports : List Report}

theorem time?_after_eq_some_iff (hstage : stage.claims = true) {time : Nat} :
    (after reports : Collector α).frames.time? stage frame = some time ↔
      LastAt stage frame time reports := by
  rw [time?_after, lastSet_setting_iff hstage]

theorem time?_after_eq_none_iff (hstage : stage.claims = true) :
    (after reports : Collector α).frames.time? stage frame = none ↔
      ∀ time, ¬ LastAt stage frame time reports := by
  simp only [Option.eq_none_iff_forall_ne_some, ne_eq, time?_after_eq_some_iff hstage]

end

/-- The figures after a decoder output, by the time of the input that it belongs to. -/
theorem decoderOutput_stats (collector : Collector α) (now : Nat) (frame : FrameIndex) :
    (collector.decoderOutput now frame).stats =
      decoded collector.stats ((collector.frames.time? .decoderInput frame).map (now - ·)) :=
  rfl

omit [Scalar α] in
theorem rendered_stats (collector : Collector α) (now : Nat) (frame : FrameIndex) :
    (collector.rendered now frame).stats =
      { collector.stats with
        rendered := collector.stats.rendered + 1
        lastTotal := ((collector.frames.time? .received frame).map (now - ·)).or
          collector.stats.lastTotal } := by
  have htime : collector.frames.time? .received frame =
    (collector.frames.times? frame).bind (·.received) := rfl
  rw [htime, rendered]
  cases (collector.frames.times? frame).bind (·.received) <;> rfl

theorem decoderOutput_counts (collector : Collector α) (now : Nat) (frame : FrameIndex) :
    let later := (collector.decoderOutput now frame).stats
    later.received = collector.stats.received ∧ later.decoded = collector.stats.decoded + 1 ∧
      later.rendered = collector.stats.rendered := by
  rw [decoderOutput_stats]
  cases collector.frames.time? .decoderInput frame <;> exact ⟨rfl, rfl, rfl⟩

omit [Scalar α] in
theorem rendered_counts (collector : Collector α) (now : Nat) (frame : FrameIndex) :
    let later := (collector.rendered now frame).stats
    later.received = collector.stats.received ∧ later.decoded = collector.stats.decoded ∧
      later.rendered = collector.stats.rendered + 1 := by
  rw [rendered_stats]
  exact ⟨rfl, rfl, rfl⟩

private theorem counts_after (reports : List Report) :
    let stats := (after reports : Collector α).stats
    stats.received = reports.countP (·.stage = .received) ∧
      stats.decoded = reports.countP (·.stage = .decoderOutput) ∧
      stats.rendered = reports.countP (·.stage = .rendered) := by
  intro stats
  induction reports using List.reverseRecOn with
  | nil => exact ⟨rfl, rfl, rfl⟩
  | append_singleton reports report ih =>
    obtain ⟨hreceived, hdecoded, hrendered⟩ := ih
    obtain ⟨stage, now, frame⟩ := report
    let before : Collector α := after reports
    have hstats : stats = (before.hear ⟨stage, now, frame⟩).stats := by
      rw [← after_append_singleton]
    simp only [hstats, List.countP_append, List.countP_singleton]
    cases stage with
    | received => exact ⟨congrArg (· + 1) hreceived, hdecoded, hrendered⟩
    | decoderInput => exact ⟨hreceived, hdecoded, hrendered⟩
    | decoderOutput =>
      obtain ⟨h, h', h''⟩ := before.decoderOutput_counts now frame
      exact ⟨h.trans hreceived, h'.trans (congrArg (· + 1) hdecoded), h''.trans hrendered⟩
    | rendered =>
      obtain ⟨h, h', h''⟩ := before.rendered_counts now frame
      exact ⟨h.trans hreceived, h'.trans hdecoded, h''.trans (congrArg (· + 1) hrendered)⟩

/-- Only a decoder output has to do with decode times. -/
theorem decode_hear (collector : Collector α) {report : Report}
    (h : report.stage ≠ .decoderOutput) :
    (collector.hear report).stats.lastDecode = collector.stats.lastDecode ∧
      (collector.hear report).stats.averageDecode = collector.stats.averageDecode := by
  obtain ⟨stage, now, frame⟩ := report
  cases stage with
  | received => exact ⟨rfl, rfl⟩
  | decoderInput => exact ⟨rfl, rfl⟩
  | decoderOutput => exact absurd rfl h
  | rendered =>
    rw [hear, rendered_stats]
    exact ⟨rfl, rfl⟩

private theorem lastTotal_hear (collector : Collector α) {report : Report}
    (h : report.stage ≠ .rendered) :
    (collector.hear report).stats.lastTotal = collector.stats.lastTotal := by
  obtain ⟨stage, now, frame⟩ := report
  cases stage with
  | received => rfl
  | decoderInput => rfl
  | decoderOutput =>
    rw [hear, decoderOutput_stats]
    cases collector.frames.time? .decoderInput frame <;> rfl
  | rendered => exact absurd rfl h

/-- A decode time is measured from the frame's own input, and folded into the average. -/
theorem decoderOutput_of_lastAt {reports : List Report} {frame : FrameIndex} {start : Nat}
    (h : LastAt .decoderInput frame start reports) (now : Nat) :
    let collector : Collector α := after reports
    let later := (collector.decoderOutput now frame).stats
    later.lastDecode = some (now - start) ∧
      later.averageDecode = some (average collector.stats.averageDecode (now - start)) := by
  intro collector later
  have hlater : later = _ := collector.decoderOutput_stats now frame
  rw [hlater, (time?_after_eq_some_iff rfl).mpr h]
  exact ⟨rfl, rfl⟩

theorem average_eq (last : ℚ) (time : Nat) :
    average (some last) time = last + (time - last) / 10 := by
  show last + ((time : ℚ) - last) * (((1 : Nat) : ℚ) / ((10 : Nat) : ℚ)) = _
  push_cast
  ring

end Collector

theorem mem_decodeTimes_append_singleton {reports : List Report} {report : Report} {delay : Nat} :
    delay ∈ decodeTimes (reports ++ [report]) ↔
      delay ∈ decodeTimes reports ∨ report.stage = .decoderOutput ∧
        ∃ start, LastAt .decoderInput report.frame start reports ∧ delay = report.now - start := by
  constructor
  · rintro ⟨before, now, frame, after, start, hreports, hstart, rfl⟩
    obtain ⟨rfl, rfl, -⟩ | ⟨rest, -, hearlier⟩ := split_of_append_singleton hreports
    · exact .inr ⟨rfl, start, hstart, rfl⟩
    · exact .inl ⟨before, now, frame, rest, start, hearlier, hstart, rfl⟩
  · rintro (⟨before, now, frame, after, start, rfl, hstart, rfl⟩ | ⟨hstage, start, hstart, rfl⟩)
    · exact ⟨before, now, frame, after ++ [report], start, by simp, hstart, rfl⟩
    · obtain ⟨stage, now, frame⟩ := report
      obtain rfl := hstage
      exact ⟨reports, now, frame, [], start, rfl, hstart, rfl⟩

theorem LastAt.unique {stage : Stage} {frame : FrameIndex} {reports : List Report}
    (hstage : stage.claims = true) {time time' : Nat} (h : LastAt stage frame time reports)
    (h' : LastAt stage frame time' reports) : time = time' := by
  rw [← lastSet_setting_iff hstage] at h h'
  exact Option.some.inj (h.symm.trans h')

theorem decodeTimes_append_of_unmeasured {reports : List Report} {report : Report}
    (h : report.stage = .decoderOutput → ∀ start, ¬ LastAt .decoderInput report.frame start reports) :
    decodeTimes (reports ++ [report]) = decodeTimes reports := by
  ext delay
  rw [mem_decodeTimes_append_singleton, or_iff_left]
  rintro ⟨hstage, start, hstart, -⟩
  exact h hstage start hstart

private theorem decodeTimes_append_of_measured {reports : List Report} {frame : FrameIndex}
    {start : Nat} (hstart : LastAt .decoderInput frame start reports) (now : Nat) :
    decodeTimes (reports ++ [⟨.decoderOutput, now, frame⟩]) =
      insert (now - start) (decodeTimes reports) := by
  ext delay
  rw [mem_decodeTimes_append_singleton, Set.mem_insert_iff, or_comm]
  refine or_congr_left ⟨?_, fun h => ⟨rfl, start, hstart, h⟩⟩
  rintro ⟨-, start', hstart', h⟩
  rw [h, hstart'.unique rfl hstart]

/-- One more time moves the average towards it, but not beyond. -/
theorem Averages.insert {times : Set Nat} {last : Option ℚ} (h : Averages times last)
    (time : Nat) : Averages (insert time times) (some (Collector.average last time)) := by
  cases last with
  | none =>
    obtain rfl : times = ∅ := h
    refine ⟨time, time, ?_, ?_, le_refl _, le_refl _⟩
    · simp
    · simp
  | some last =>
    obtain ⟨least, greatest, hleast, hgreatest, hlow, hhigh⟩ := h
    have hmin : ((min time least : Nat) : ℚ) ≤ time := by exact_mod_cast min_le_left time least
    have hmin' : ((min time least : Nat) : ℚ) ≤ least := by exact_mod_cast min_le_right time least
    have hmax : (time : ℚ) ≤ (max time greatest : Nat) := by exact_mod_cast le_max_left time greatest
    have hmax' : (greatest : ℚ) ≤ (max time greatest : Nat) := by
      exact_mod_cast le_max_right time greatest
    rw [Collector.average_eq]
    exact ⟨min time least, max time greatest, hleast.insert time, hgreatest.insert time,
      by linarith, by linarith⟩

private theorem averages_after (reports : List Report) :
    Averages (decodeTimes reports) (Collector.after reports).stats.averageDecode := by
  induction reports using List.reverseRecOn with
  | nil =>
    show decodeTimes [] = ∅
    simp [decodeTimes]
  | append_singleton reports report ih =>
    rw [Collector.after_append_singleton]
    by_cases hstage : report.stage = .decoderOutput
    · obtain ⟨stage, now, frame⟩ := report
      obtain rfl := hstage
      rw [Collector.hear, Collector.decoderOutput_stats]
      cases hstart : (Collector.after reports : Collector ℚ).frames.time? .decoderInput frame with
      | none =>
        rw [Collector.time?_after_eq_none_iff rfl] at hstart
        rw [decodeTimes_append_of_unmeasured fun _ => hstart]
        exact ih
      | some start =>
        rw [Collector.time?_after_eq_some_iff rfl] at hstart
        rw [decodeTimes_append_of_measured hstart]
        exact ih.insert (now - start)
    · rw [decodeTimes_append_of_unmeasured fun h => absurd h hstage,
        (Collector.decode_hear _ hstage).2]
      exact ih

/-- A decode time, or the time from receipt to display, is measured from the last report of the
frame itself at the stage where it begins, provided no other frame took over its slot since;
otherwise the figures stay as they are. The first decode time is the average as it is, and each
later one moves the average a tenth of the way towards itself. The counts are those of the reports,
and the average is between the smallest and the largest of the decode times. -/
theorem delays_of_one_frame {α : Type} [Scalar α] (reports : List Report) :
    let collector : Collector α := .after reports
    (∀ now frame,
      let later := (collector.decoderOutput now frame).stats
      (∀ start, LastAt .decoderInput frame start reports →
        let time := now - start
        later.lastDecode = some time ∧
          (collector.stats.averageDecode = none → later.averageDecode = some (time : α)) ∧
          ∀ last, collector.stats.averageDecode = some last →
            later.averageDecode = some (last + ((time : α) - last) * (1 / 10))) ∧
      ((∀ start, ¬ LastAt .decoderInput frame start reports) →
        later.lastDecode = collector.stats.lastDecode ∧
          later.averageDecode = collector.stats.averageDecode)) ∧
    (∀ now frame,
      let later := (collector.rendered now frame).stats
      (∀ start, LastAt .received frame start reports → later.lastTotal = some (now - start)) ∧
      ((∀ start, ¬ LastAt .received frame start reports) →
        later.lastTotal = collector.stats.lastTotal)) ∧
    (∀ report,
      let later := (collector.hear report).stats
      (report.stage ≠ .decoderOutput → later.lastDecode = collector.stats.lastDecode ∧
        later.averageDecode = collector.stats.averageDecode) ∧
      (report.stage ≠ .rendered → later.lastTotal = collector.stats.lastTotal)) ∧
    (collector.stats.received = reports.countP (·.stage = .received) ∧
      collector.stats.decoded = reports.countP (·.stage = .decoderOutput) ∧
      collector.stats.rendered = reports.countP (·.stage = .rendered)) ∧
    (∀ now frame start (last : ℚ), LastAt .decoderInput frame start reports →
      (Collector.after reports).stats.averageDecode = some last →
        ((Collector.after reports).decoderOutput now frame).stats.averageDecode =
          some (last + ((now - start : Nat) - last) / 10)) ∧
    Averages (decodeTimes reports) (Collector.after reports).stats.averageDecode := by
  intro collector
  refine ⟨fun now frame => ?_, fun now frame => ?_,
    fun report => ⟨collector.decode_hear, collector.lastTotal_hear⟩,
    Collector.counts_after reports, fun now frame start last hstart hlast => ?_,
    averages_after reports⟩
  · intro later
    constructor
    · intro start hstart time
      obtain ⟨hlast, haverage⟩ := Collector.decoderOutput_of_lastAt (α := α) hstart now
      refine ⟨hlast, fun hnone => ?_, fun last hsome => ?_⟩
      · have hfirst : later.averageDecode = some (Collector.average none time) := hnone ▸ haverage
        exact hfirst
      · have hnext : later.averageDecode = some (Collector.average (some last) time) :=
          hsome ▸ haverage
        exact hnext
    · intro hnone
      have hlater : later = _ := collector.decoderOutput_stats now frame
      rw [hlater, (Collector.time?_after_eq_none_iff rfl).mpr hnone]
      exact ⟨rfl, rfl⟩
  · intro later
    have hlater : later = _ := collector.rendered_stats now frame
    constructor
    · intro start hstart
      rw [hlater, (Collector.time?_after_eq_some_iff rfl).mpr hstart]
      rfl
    · intro hnone
      rw [hlater, (Collector.time?_after_eq_none_iff rfl).mpr hnone]
      rfl
  · rw [(Collector.decoderOutput_of_lastAt hstart now).2, hlast, Collector.average_eq]

/-- Frames 1 and 257 share a slot, so that only the later one of them is measured. It took 20 before
and takes 10 now, which makes an average of 19. -/
theorem slot_taken_over :
    let reports : List Report := [⟨.decoderInput, 10, 1⟩, ⟨.decoderInput, 15, 257⟩,
      ⟨.decoderOutput, 35, 257⟩, ⟨.decoderInput, 40, 257⟩]
    let collector : Collector ℚ := .after reports
    let foreign := (collector.decoderOutput 50 1).stats
    let own := (collector.decoderOutput 50 257).stats
    foreign.lastDecode = some 20 ∧ foreign.averageDecode = some 20 ∧
      own.lastDecode = some 10 ∧ own.averageDecode = some 19 := by
  intro reports collector foreign own
  have hdropped (start : Nat) : ¬ LastAt .decoderInput 1 start reports := by
    rw [← lastSet_setting_iff rfl]
    exact nofun
  have hknown : LastAt .decoderInput 257 40 reports := by
    rw [← lastSet_setting_iff rfl]
    rfl
  have hbefore : collector.stats.averageDecode = some 20 := rfl
  obtain ⟨hdecode, -, -, -, hexact, -⟩ := @delays_of_one_frame ℚ _ reports
  obtain ⟨hlast, haverage⟩ := (hdecode 50 1).2 hdropped
  have hfolded : own.averageDecode = _ := hexact 50 257 40 20 hknown hbefore
  refine ⟨hlast, haverage.trans hbefore, ((hdecode 50 257).1 40 hknown).1, ?_⟩
  rw [hfolded]
  norm_num

end HeadsetStream.Latency
