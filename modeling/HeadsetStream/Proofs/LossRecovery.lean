import HeadsetStream.Bitstream.TestPattern
import HeadsetStream.Proofs.KeyframeRequests
import Mathlib.Data.List.Chain

/-!
# Recovery from loss

Within one stream that begins with no keyframe awaited, keyframes are requested as the packets'
counts say: at a gap, and not again until a keyframe came that got an input buffer. The mark
outlives the stream, however. A stream that begins while a request of an earlier one is outstanding
requests none until a keyframe got its buffer.
-/

namespace HeadsetStream.Streaming
open Bitstream Decoder Settings Video Wire

/-- A keyframe is requested at each gap in the count, unless a request is outstanding. -/
def RequestsAtGaps (arrivals : List Arrival) : Prop :=
  ∀ before arrival after, arrivals = before ++ arrival :: after →
    (arrival.requests = true ↔
      (∃ last, before.getLast? = some last ∧ arrival.counter ≠ last.counter + 1) ∧
        ¬ Outstanding before)

namespace RequestsAtGaps

variable {arrivals : List Arrival}

private theorem of_consecutive (h : RequestsAtGaps arrivals)
    (hconsecutive : arrivals.IsChain fun first second => second.counter = first.counter + 1)
    {arrival : Arrival} (hmem : arrival ∈ arrivals) : arrival.requests = false := by
  obtain ⟨before, after, rfl⟩ := List.append_of_mem hmem
  rw [Bool.eq_false_iff]
  intro hrequests
  obtain ⟨⟨last, hlast, hgap⟩, -⟩ := (h before arrival after rfl).mp hrequests
  obtain ⟨earlier, rfl⟩ := List.getLast?_eq_some_iff.mp hlast
  rw [List.append_assoc, List.singleton_append, List.isChain_append_cons_cons] at hconsecutive
  exact hgap hconsecutive.2.1

/-- Between two requests a keyframe got its buffer. -/
private theorem refreshed_between (h : RequestsAtGaps arrivals)
    {before between after : List Arrival}
    {first second : Arrival} (hsplit : arrivals = before ++ first :: between ++ second :: after)
    (hfirst : first.requests = true) (hsecond : second.requests = true) :
    ∃ arrival ∈ first :: between, arrival.refreshes = true := by
  obtain ⟨-, hsettled⟩ := (h _ second after hsplit).mp hsecond
  by_contra hnone
  refine hsettled ⟨before, first, between, rfl, hfirst, fun arrival hmem => ?_⟩
  rw [Bool.eq_false_iff]
  exact fun hrefreshes => hnone ⟨arrival, hmem, hrefreshes⟩

end RequestsAtGaps

def Incident.counter? {ε σ : Type} : Incident ε σ → Option UInt32
  | .packet _ header _ => some header.counter
  | .meanwhile _ => none

namespace Reception

variable {ε σ : Type} [Engine ε σ]

/-- No stream yet, and no keyframe awaited. -/
def idle (link : ServerLink) : Reception ε σ := { link := { link with waiting := false } }

omit [Engine ε σ] in
theorem follows_idle (link : ServerLink) : (idle link : Reception ε σ).Follows [] where
  waiting_iff := by
    have hnone := not_outstanding_nil
    simpa [idle, arrivalsOf] using hnone
  stream pipeline hpipeline := nomatch hpipeline

variable {reception : Reception ε σ}

private theorem seen_cases (step : Step ε σ) :
    reception.seen step = [] ∨ ∃ event, reception.seen step = [event] := by
  unfold seen
  split
  · exact .inr ⟨_, rfl⟩
  · split
    · exact .inr ⟨_, rfl⟩
    · exact .inl rfl
  all_goals exact .inl rfl

private theorem seen_arrived {step : Step ε σ} {arrival : Arrival}
    (h : reception.seen step = [.arrived arrival]) :
    ∃ now header payload pipeline, reception.decoding.pipeline = some pipeline ∧
      arrival = reception.arrival now header payload := by
  unfold seen at h
  split at h
  case h_2 now header payload =>
    split at h
    · next hrunning =>
      obtain ⟨pipeline, hpipeline⟩ := Option.isSome_iff_exists.mp hrunning
      obtain ⟨rfl⟩ := h
      exact ⟨now, header, payload, pipeline, hpipeline, rfl⟩
    · exact nomatch h
  all_goals exact nomatch h

/-- What is seen at a place of the history was seen at a step, and what is seen before it at the
steps before. -/
private theorem exists_step_of_history_eq {steps : List (Step ε σ)}
    {before after : List StreamEvent}
    {event : StreamEvent} (h : reception.history steps = before ++ event :: after) :
    ∃ first step, reception.history first = before ∧
      (reception.run first).seen step = [event] := by
  induction steps generalizing reception before with
  | nil => simp [history] at h
  | cons step rest ih =>
    rw [history] at h
    rcases reception.seen_cases step with hseen | ⟨earliest, hseen⟩
    · rw [hseen, List.nil_append] at h
      obtain ⟨first, last, hfirst, hlast⟩ := ih h
      exact ⟨step :: first, last, by rw [history, hseen, hfirst, List.nil_append], hlast⟩
    · rw [hseen, List.singleton_append, List.cons_eq_append_iff] at h
      rcases h with ⟨rfl, heq⟩ | ⟨before, rfl, hrest⟩
      · obtain ⟨rfl, -⟩ := List.cons.inj heq
        exact ⟨[], step, rfl, hseen⟩
      · obtain ⟨first, last, hfirst, hlast⟩ := ih hrest
        exact ⟨step :: first, last, by rw [history, hseen, hfirst, List.singleton_append], hlast⟩

private theorem Follows.requests_at {earlier : List StreamEvent} (h : reception.Follows earlier)
    {steps : List (Step ε σ)} {before after : List StreamEvent} {arrival : Arrival}
    (hhistory : reception.history steps = before ++ .arrived arrival :: after) :
    arrival.requests = true ↔
      (∃ last, lastCounterOf (earlier ++ before) = some last ∧ arrival.counter ≠ last + 1) ∧
        ¬ Outstanding (arrivalsOf (earlier ++ before)) := by
  obtain ⟨first, step, rfl, hseen⟩ := exists_step_of_history_eq hhistory
  obtain ⟨now, header, payload, pipeline, hpipeline, rfl⟩ := seen_arrived hseen
  exact (h.run first).requests_iff hpipeline now header payload

/-- In a stream a packet's count is compared with the one before it in the stream; what is
outstanding is so from all streams. -/
theorem requests_in_stream (link : ServerLink) {steps : List (Step ε σ)}
    {earlier later : List StreamEvent} {stream : List Arrival} {arrival : Arrival}
    (hhistory : (idle link).history steps =
      earlier ++ .started :: (stream.map .arrived ++ .arrived arrival :: later)) :
    arrival.requests = true ↔
      (∃ last, stream.getLast? = some last ∧ arrival.counter ≠ last.counter + 1) ∧
        ¬ Outstanding (arrivalsOf earlier ++ stream) := by
  rw [← List.cons_append, ← List.append_assoc] at hhistory
  -- A stream's begin sets its last count back, and leaves what is outstanding alone.
  rw [(follows_idle link).requests_at hhistory, List.nil_append, lastCounterOf_map]
  have harrivals : arrivalsOf (earlier ++ .started :: stream.map .arrived) =
      arrivalsOf earlier ++ stream := by
    rw [arrivalsOf_append]
    exact congrArg (arrivalsOf earlier ++ ·) (arrivalsOf_map stream)
  rw [harrivals]
  simp

theorem history_incidents (h : reception.decoding.isRunning = true)
    (incidents : List (Incident ε σ)) :
    ∃ arrivals : List Arrival,
      reception.history (incidents.map .incident) = arrivals.map .arrived ∧
      arrivals.map (·.counter) = incidents.filterMap Incident.counter? := by
  induction incidents generalizing reception with
  | nil => exact ⟨[], rfl, rfl⟩
  | cons incident rest ih =>
    obtain ⟨pipeline, hpipeline⟩ := Option.isSome_iff_exists.mp h
    cases incident with
    | meanwhile change =>
      have hlater : (reception.undergo (.meanwhile change)).decoding.isRunning = true := by
        simp [undergo, Decoding.isRunning, hpipeline]
      exact ih hlater
    | packet now header payload =>
      have hlater : (reception.undergo (.packet now header payload)).decoding.isRunning =
          true := by
        simp only [undergo, receive, Decoding.queue_of_some hpipeline]
        rfl
      obtain ⟨arrivals, hhistory, hcounters⟩ := ih hlater
      refine ⟨reception.arrival now header payload :: arrivals, ?_, ?_⟩
      · have hseen : reception.seen (.incident (.packet now header payload)) =
            [.arrived (reception.arrival now header payload)] := by
          simp [seen, h]
        rw [List.map_cons, history, hseen]
        exact congrArg (_ :: ·) hhistory
      · exact congrArg (header.counter :: ·) hcounters

/-- From the stream's begin to any time: every packet is counted, a keyframe is requested exactly at
the gaps with no request outstanding, and the mark is set exactly while one is. -/
theorem keyframes_requested_exactly (link : ServerLink) (now : Nat) (graphics : Bool) (engine : ε)
    (settings : DecoderSettings) (incidents : List (Incident ε σ)) :
    let steps := .start now graphics (.ok engine) settings :: incidents.map .incident
    let arrivals := arrivalsOf ((idle link).history steps)
    arrivals.map (·.counter) = incidents.filterMap Incident.counter? ∧
      RequestsAtGaps arrivals ∧
      (arrivals.IsChain (fun first second => second.counter = first.counter + 1) →
        ∀ arrival ∈ arrivals, arrival.requests = false) ∧
      (∀ before first between second after,
        arrivals = before ++ first :: between ++ second :: after →
        first.requests = true → second.requests = true →
        ∃ arrival ∈ first :: between, arrival.refreshes = true) ∧
      (((idle link).run steps).link.waiting = true ↔ Outstanding arrivals) := by
  intro steps arrivals
  let begun := (idle link).step (.start now graphics (.ok engine) settings)
  obtain ⟨stream, hstream, hcounters⟩ :=
    history_incidents (show begun.decoding.isRunning = true from rfl) incidents
  have hhistory : (idle link).history steps = .started :: stream.map .arrived :=
    congrArg (StreamEvent.started :: ·) hstream
  have harrivals : arrivals = stream := by
    show arrivalsOf _ = _
    rw [hhistory]
    exact arrivalsOf_map stream
  have hgaps : RequestsAtGaps arrivals := by
    intro before arrival after hsplit
    rw [harrivals] at hsplit
    rw [hsplit, List.map_append, List.map_cons, ← List.nil_append (_ :: _)] at hhistory
    exact requests_in_stream link hhistory
  refine ⟨by rw [harrivals, hcounters], hgaps, ?_, ?_, ((follows_idle link).run steps).waiting_iff⟩
  · exact fun hconsecutive arrival => hgaps.of_consecutive hconsecutive
  · exact fun before first between second after => hgaps.refreshed_between

/-- At a gap in a stream that has requested nothing yet a keyframe is requested, unless a request of
an earlier stream is outstanding: then only once a keyframe of the stream got its buffer. -/
theorem requested_at_first_gap_iff (link : ServerLink) (steps : List (Step ε σ))
    (earlier later : List StreamEvent) (stream : List Arrival) (last arrival : Arrival)
    (hhistory : (idle link).history steps =
      earlier ++ .started :: (stream.map .arrived ++ .arrived arrival :: later))
    (hlast : stream.getLast? = some last) (hgap : arrival.counter ≠ last.counter + 1)
    (hfirst : ∀ packet ∈ stream, packet.requests = false) :
    arrival.requests = true ↔
      ¬ Outstanding (arrivalsOf earlier) ∨ ∃ packet ∈ stream, packet.refreshes = true := by
  have hgaps : ∃ last, stream.getLast? = some last ∧ arrival.counter ≠ last.counter + 1 :=
    ⟨last, hlast, hgap⟩
  rw [requests_in_stream link hhistory, outstanding_append_iff hfirst, not_and_or]
  constructor
  · rintro ⟨-, hsettled | hrefreshed⟩
    · exact .inl hsettled
    · push Not at hrefreshed
      obtain ⟨packet, hmem, hrefreshes⟩ := hrefreshed
      exact .inr ⟨packet, hmem, by simpa using hrefreshes⟩
  · rintro (hsettled | ⟨packet, hmem, hrefreshes⟩)
    · exact ⟨hgaps, .inl hsettled⟩
    · refine ⟨hgaps, .inr fun hnone => ?_⟩
      exact absurd (hnone packet hmem) (by simp [hrefreshes])

def begins : Step SimulatedEngine SimulatedSession :=
  .start 0 true (.ok { mode := .manual }) {}

def counted (counter : UInt32) (payload : Bytes) : Step SimulatedEngine SimulatedSession :=
  .incident (.packet 0 { (default : VideoHeader) with counter } payload)

/-- A stream with a gap and no keyframe behind it. -/
def unfinished : List (Step SimulatedEngine SimulatedSession) :=
  [begins, counted 0 (TestPattern.deltaSlice .h264), counted 2 (TestPattern.deltaSlice .h264)]

def unfinishedHistory : List StreamEvent :=
  [.started, .arrived ⟨0, false, false⟩, .arrived ⟨2, true, false⟩]

/-- A request of an earlier stream is outstanding, but a keyframe settles it. -/
theorem requested_behind_keyframe :
    let keyframe : Arrival := ⟨0, false, true⟩
    let gap : Arrival := ⟨2, true, false⟩
    (idle { capacity := 8 }).history (unfinished ++ [begins,
        counted 0 (TestPattern.parameterSets .h264 ++ TestPattern.keyframeSlice .h264),
        counted 2 (TestPattern.deltaSlice .h264)]) =
      unfinishedHistory ++ .started :: ([keyframe].map .arrived ++ .arrived gap :: []) ∧
    (gap.requests = true ↔ ¬ Outstanding (arrivalsOf unfinishedHistory) ∨
      ∃ packet ∈ [keyframe], packet.refreshes = true) := by
  intro keyframe gap
  have hhistory : (idle { capacity := 8 }).history (unfinished ++ [begins,
      counted 0 (TestPattern.parameterSets .h264 ++ TestPattern.keyframeSlice .h264),
      counted 2 (TestPattern.deltaSlice .h264)]) =
      unfinishedHistory ++ .started :: ([keyframe].map .arrived ++ .arrived gap :: []) := by
    decide +kernel
  exact ⟨hhistory, requested_at_first_gap_iff { capacity := 8 } _ unfinishedHistory [] [keyframe]
    keyframe gap hhistory rfl (by decide) (by decide)⟩

/-- The request of the earlier stream has the first gap of the next one go unnoticed. -/
theorem unrequested_gap_after_restart :
    ¬ ∀ (steps : List (Step SimulatedEngine SimulatedSession))
        (earlier later : List StreamEvent) (stream : List Arrival) (last arrival : Arrival),
      (idle { capacity := 8 }).history steps =
        earlier ++ .started :: (stream.map .arrived ++ .arrived arrival :: later) →
      stream.getLast? = some last → arrival.counter ≠ last.counter + 1 →
      (∀ packet ∈ stream, packet.requests = false) → arrival.requests = true := by
  intro hall
  have hhistory : (idle { capacity := 8 }).history (unfinished ++ [begins,
      counted 0 (TestPattern.deltaSlice .h264), counted 2 (TestPattern.deltaSlice .h264)]) =
      unfinishedHistory ++ .started :: ([⟨0, false, false⟩].map .arrived ++
        .arrived ⟨2, false, false⟩ :: []) := by decide +kernel
  have hrequests := hall _ unfinishedHistory [] _ ⟨0, false, false⟩ _ hhistory rfl (by decide)
    (by decide)
  exact nomatch hrequests

end Reception

end HeadsetStream.Streaming
