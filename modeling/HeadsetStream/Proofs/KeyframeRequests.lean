import HeadsetStream.Proofs.AwaitedKeyframe
import HeadsetStream.Proofs.FrameIdentity

/-!
# When a keyframe is requested

Streams begin and end on one link to the server, and packets of any count arrive. A history lists
the streams that began and what came of each packet. A request is outstanding until a packet with a
keyframe slice, at or after it, gets an input buffer; the mark beside the link says so at any time,
across streams as well. At a packet a keyframe is requested exactly if its count does not follow the
last one of its stream and no request is outstanding.
-/

namespace HeadsetStream.Decoder

/-- The pipeline after whatever a change makes of it. Settings and links are its own for good. -/
def Pipeline.changed {ε σ : Type} (pipeline : Pipeline ε σ)
    (change : Pipeline ε σ → Pipeline ε σ) : Pipeline ε σ :=
  { change pipeline with settings := pipeline.settings, links := pipeline.links }

end HeadsetStream.Decoder

namespace HeadsetStream.Streaming
open Bitstream Decoder Settings Video Wire

/-- The decoding of streams, and the link with the mark. -/
structure Reception (ε σ : Type) where
  decoding : Decoding ε σ := {}
  link : ServerLink

inductive Incident (ε σ : Type) where
  | packet (now : Nat) (header : VideoHeader) (payload : Bytes)
  /-- Whatever goes on beside the packets: sessions report or fail, buffers come free, events are
  handled, the device has its turn. -/
  | meanwhile (change : Pipeline ε σ → Pipeline ε σ)

inductive Step (ε σ : Type) where
  | start (now : Nat) (graphics : Bool) (engine : Except DecoderError ε)
      (settings : DecoderSettings)
  | stop
  | incident (incident : Incident ε σ)

/-- A packet of a stream, and what came of it. -/
structure Arrival where
  counter : UInt32
  /-- Whether a keyframe was requested at it. -/
  requests : Bool
  /-- Whether it has a keyframe slice and got an input buffer of a running session. -/
  refreshes : Bool
  deriving DecidableEq, Repr

inductive StreamEvent where
  | started
  | arrived (arrival : Arrival)
  deriving DecidableEq, Repr

def arrivalsOf (history : List StreamEvent) : List Arrival :=
  history.filterMap fun
    | .arrived arrival => some arrival
    | .started => none

/-- A keyframe was requested, and since then, that packet included, none got an input buffer. -/
def Outstanding (arrivals : List Arrival) : Prop :=
  ∃ before asking after, arrivals = before ++ asking :: after ∧ asking.requests = true ∧
    ∀ arrival ∈ asking :: after, arrival.refreshes = false

/-- What an event makes the count of the stream's last packet. -/
def StreamEvent.counterSetting : StreamEvent → Option (Option UInt32)
  | .started => some none
  | .arrived arrival => some (some arrival.counter)

def lastCounterOf (history : List StreamEvent) : Option UInt32 :=
  lastSet StreamEvent.counterSetting none history

@[simp] theorem arrivalsOf_append (first rest : List StreamEvent) :
    arrivalsOf (first ++ rest) = arrivalsOf first ++ arrivalsOf rest :=
  List.filterMap_append ..

@[simp] theorem arrivalsOf_map (arrivals : List Arrival) :
    arrivalsOf (arrivals.map .arrived) = arrivals := by
  induction arrivals with
  | nil => rfl
  | cons arrival rest ih => exact congrArg (arrival :: ·) ih

theorem lastCounterOf_map (history : List StreamEvent) (arrivals : List Arrival) :
    lastCounterOf (history ++ .started :: arrivals.map .arrived) =
      arrivals.getLast?.map (·.counter) := by
  induction arrivals using List.reverseRecOn with
  | nil => exact lastSet_append_singleton
  | append_singleton arrivals arrival ih =>
    have hlast : history ++ .started :: (arrivals ++ [arrival]).map .arrived =
        (history ++ .started :: arrivals.map .arrived) ++ [.arrived arrival] := by simp
    rw [hlast, lastCounterOf, lastSet_append_singleton]
    simp [StreamEvent.counterSetting]

theorem not_outstanding_nil : ¬ Outstanding [] := by
  rintro ⟨before, asking, after, hnil, -, -⟩
  simp at hnil

theorem outstanding_append_singleton {arrivals : List Arrival} {arrival : Arrival} :
    Outstanding (arrivals ++ [arrival]) ↔
      arrival.refreshes = false ∧ (Outstanding arrivals ∨ arrival.requests = true) := by
  constructor
  · rintro ⟨before, asking, after, hsplit, hrequests, hnone⟩
    -- The packet that asks is the new one, or an earlier one that the new one leaves outstanding.
    obtain ⟨-, rfl, -⟩ | ⟨rest, rfl, rfl⟩ := split_of_append_singleton hsplit
    · exact ⟨hnone arrival (by simp), .inr hrequests⟩
    · refine ⟨hnone arrival (by simp), .inl ⟨before, asking, rest, rfl, hrequests, ?_⟩⟩
      intro earlier hmem
      apply hnone
      rw [← List.cons_append]
      exact List.mem_append_left _ hmem
  · rintro ⟨hlast, ⟨before, asking, after, rfl, hrequests, hnone⟩ | hrequests⟩
    · refine ⟨before, asking, after ++ [arrival], by simp, hrequests, fun earlier hmem => ?_⟩
      rw [← List.cons_append] at hmem
      rcases List.mem_append.mp hmem with hmem | hmem
      · exact hnone earlier hmem
      · rw [List.mem_singleton.mp hmem]
        exact hlast
    · exact ⟨arrivals, arrival, [], rfl, hrequests, by simpa using hlast⟩

/-- Packets that ask for nothing leave the request of earlier ones outstanding, unless one of them
settles it. -/
theorem outstanding_append_iff {arrivals later : List Arrival}
    (h : ∀ arrival ∈ later, arrival.requests = false) :
    Outstanding (arrivals ++ later) ↔
      Outstanding arrivals ∧ ∀ arrival ∈ later, arrival.refreshes = false := by
  induction later using List.reverseRecOn with
  | nil => simp
  | append_singleton later last ih =>
    have hearlier := ih fun arrival hmem => h arrival (List.mem_append_left _ hmem)
    have hlast : last.requests = false := h last (by simp)
    rw [← List.append_assoc, outstanding_append_singleton, hearlier, hlast]
    simp only [List.mem_append, List.mem_singleton]
    grind

namespace Decoding

variable {ε σ : Type}

private theorem follows_eq_false_iff {decoding : Decoding ε σ} {counter : UInt32} :
    decoding.follows counter = false ↔
      ∃ last, decoding.lastCounter = some last ∧ counter ≠ last + 1 := by
  unfold follows
  cases decoding.lastCounter <;> simp

theorem noticeLoss_notices (decoding : Decoding ε σ) (waiting : Bool) (counter : UInt32) :
    (decoding.noticeLoss waiting counter).notices =
      if !decoding.follows counter && !waiting then [.waiting true, .requestKeyframe] else [] := by
  unfold noticeLoss
  split <;> rfl

/-- What is said of keyframes while a packet is queued: the loss first, then what the pipeline says
of the packet. -/
theorem queue_onKeyframes [Engine ε σ] {decoding : Decoding ε σ} {pipeline : Pipeline ε σ}
    (h : decoding.pipeline = some pipeline) (now : Nat) (waiting : Bool) (header : VideoHeader)
    (payload : Bytes) :
    (decoding.queue now waiting header payload).notices.filter Notice.onKeyframes =
      (if !decoding.follows header.counter && !waiting then
        [.waiting true, .requestKeyframe] else []) ++
      if pipeline.getsBuffer payload && hasKeyframeSlice pipeline.settings.codec payload &&
        pipeline.links.client then [.waiting false] else [] := by
  rw [queue_of_some h]
  simp only [List.filter_append, Pipeline.queue_onKeyframes, noticeLoss_notices]
  rw [(Pipeline.drain_tells _).saysNothing.filter, List.append_nil]
  split <;> rfl

end Decoding

namespace Reception

variable {ε σ : Type} [Engine ε σ]

/-- A video packet, queued with what the link says of the mark. -/
def receive (reception : Reception ε σ) (now : Nat) (header : VideoHeader) (payload : Bytes) :
    Outcome (Reception ε σ) :=
  let queued := reception.decoding.queue now reception.link.waiting header payload
  { value :=
      { decoding := queued.value.2
        link := reception.link.observeAll queued.notices }
    notices := queued.notices }

def arrival (reception : Reception ε σ) (now : Nat) (header : VideoHeader) (payload : Bytes) :
    Arrival where
  counter := header.counter
  requests := .requestKeyframe ∈ (reception.receive now header payload).notices
  refreshes := reception.decoding.pipeline.any fun pipeline =>
    pipeline.getsBuffer payload && hasKeyframeSlice pipeline.settings.codec payload

def undergo (reception : Reception ε σ) : Incident ε σ → Reception ε σ
  | .packet now header payload => (reception.receive now header payload).value
  | .meanwhile change =>
    { reception with
      decoding.pipeline := reception.decoding.pipeline.map (·.changed change) }

def step (reception : Reception ε σ) : Step ε σ → Reception ε σ
  | .start now graphics engine settings =>
    { reception with decoding := reception.decoding.start now graphics engine settings }
  | .stop => { reception with decoding := reception.decoding.stop }
  | .incident incident => reception.undergo incident

/-- What a step adds to the history. A packet without a stream to go to does not count. -/
def seen (reception : Reception ε σ) : Step ε σ → List StreamEvent
  | .start _ _ (.ok _) _ => [.started]
  | .incident (.packet now header payload) =>
    if reception.decoding.isRunning then [.arrived (reception.arrival now header payload)] else []
  | .start _ _ (.error _) _ | .stop | .incident (.meanwhile _) => []

def run (reception : Reception ε σ) (steps : List (Step ε σ)) : Reception ε σ :=
  steps.foldl step reception

def history (reception : Reception ε σ) : List (Step ε σ) → List StreamEvent
  | [] => []
  | step :: rest => reception.seen step ++ history (reception.step step) rest

/-- The link says what is outstanding, and the stream knows its last count. -/
structure Follows (history : List StreamEvent) (reception : Reception ε σ) : Prop where
  waiting_iff : reception.link.waiting = true ↔ Outstanding (arrivalsOf history)
  stream : ∀ pipeline, reception.decoding.pipeline = some pipeline →
    pipeline.links.client = true ∧ reception.decoding.lastCounter = lastCounterOf history

variable {history : List StreamEvent} {reception : Reception ε σ}

/-- A keyframe is requested at a gap unless one is awaited; then the mark is set, until a keyframe
gets its buffer. -/
theorem receive_spec {pipeline : Pipeline ε σ} (h : reception.decoding.pipeline = some pipeline)
    (hclient : pipeline.links.client = true) (now : Nat) (header : VideoHeader)
    (payload : Bytes) :
    let arrival := reception.arrival now header payload
    arrival.requests =
        (!reception.decoding.follows header.counter && !reception.link.waiting) ∧
      (reception.receive now header payload).value.link.waiting =
        ((reception.link.waiting || arrival.requests) && !arrival.refreshes) := by
  have hnotices := Decoding.queue_onKeyframes h now reception.link.waiting header payload
  have hrefreshes : (reception.arrival now header payload).refreshes =
      (pipeline.getsBuffer payload && hasKeyframeSlice pipeline.settings.codec payload) := by
    simp [arrival, h]
  rw [hclient, Bool.and_true, ← hrefreshes] at hnotices
  have hrequests : (reception.arrival now header payload).requests =
      (!reception.decoding.follows header.counter && !reception.link.waiting) := by
    have hmem : .requestKeyframe ∈ (reception.receive now header payload).notices ↔
        .requestKeyframe ∈ (reception.receive now header payload).notices.filter
          Notice.onKeyframes := by
      simp [Notice.onKeyframes]
    simp only [arrival, hmem]
    rw [show List.filter _ (reception.receive now header payload).notices = _ from hnotices]
    cases reception.decoding.follows header.counter <;> cases reception.link.waiting <;>
      cases (reception.arrival now header payload).refreshes <;> rfl
  refine ⟨hrequests, ?_⟩
  -- The loss is said before the keyframe: one packet may set the mark and take it away.
  have hwaiting := reception.link.waiting_observeAll
    (reception.receive now header payload).notices
  rw [show List.filter _ (reception.receive now header payload).notices = _ from hnotices]
    at hwaiting
  rw [show (reception.receive now header payload).value.link.waiting = _ from hwaiting, hrequests]
  cases reception.decoding.follows header.counter <;> cases reception.link.waiting <;>
    cases (reception.arrival now header payload).refreshes <;> rfl

theorem Follows.requests_iff (h : reception.Follows history) {pipeline : Pipeline ε σ}
    (hpipeline : reception.decoding.pipeline = some pipeline) (now : Nat) (header : VideoHeader)
    (payload : Bytes) :
    (reception.arrival now header payload).requests = true ↔
      (∃ last, lastCounterOf history = some last ∧ header.counter ≠ last + 1) ∧
        ¬ Outstanding (arrivalsOf history) := by
  obtain ⟨hclient, hlast⟩ := h.stream pipeline hpipeline
  rw [(receive_spec hpipeline hclient now header payload).1, ← h.waiting_iff, ← hlast,
    ← Decoding.follows_eq_false_iff]
  simp

theorem Follows.packet (h : reception.Follows history) (now : Nat) (header : VideoHeader)
    (payload : Bytes) :
    (reception.receive now header payload).value.Follows
      (history ++ reception.seen (.incident (.packet now header payload))) := by
  cases hpipeline : reception.decoding.pipeline with
  | none =>
    have hqueue : reception.decoding.queue now reception.link.waiting header payload =
        pure (false, reception.decoding) := by
      simp only [Decoding.queue, hpipeline]
    have hseen : reception.seen (.incident (.packet now header payload)) = [] := by
      simp [seen, Decoding.isRunning, hpipeline]
    simp only [hseen, List.append_nil, receive, hqueue]
    exact h
  | some pipeline =>
    obtain ⟨hclient, -⟩ := h.stream pipeline hpipeline
    obtain ⟨-, hwaiting⟩ := receive_spec hpipeline hclient now header payload
    have hseen : reception.seen (.incident (.packet now header payload)) =
        [.arrived (reception.arrival now header payload)] := by
      simp [seen, Decoding.isRunning, hpipeline]
    rw [hseen]
    constructor
    · rw [hwaiting, arrivalsOf_append]
      show _ ↔ Outstanding (arrivalsOf history ++ [_])
      rw [outstanding_append_singleton, ← h.waiting_iff]
      simp [and_comm]
    · intro later hlater
      have hqueue := Decoding.queue_of_some hpipeline now reception.link.waiting header payload
      simp only [receive, hqueue] at hlater ⊢
      obtain rfl := Option.some.inj hlater
      obtain ⟨-, hqueued⟩ :=
        pipeline.queue_kept ((now - reception.decoding.started) / 1000) payload header.frame
      obtain ⟨-, hdrained⟩ :=
        (pipeline.queue ((now - reception.decoding.started) / 1000) payload
          header.frame).value.2.drain_kept
      refine ⟨by rw [hdrained, hqueued, hclient], ?_⟩
      rw [lastCounterOf, lastSet_append_singleton]
      rfl

theorem Follows.meanwhile (h : reception.Follows history)
    (change : Pipeline ε σ → Pipeline ε σ) :
    (reception.undergo (.meanwhile change)).Follows history := by
  refine ⟨h.waiting_iff, fun later hlater => ?_⟩
  obtain ⟨pipeline, hpipeline, rfl⟩ := Option.map_eq_some_iff.mp hlater
  exact h.stream pipeline hpipeline

theorem Follows.start (h : reception.Follows history) (now : Nat) (graphics : Bool)
    (engine : Except DecoderError ε) (settings : DecoderSettings) :
    let begun := Step.start now graphics engine settings
    (reception.step begun).Follows (history ++ reception.seen begun) := by
  cases engine with
  | error error =>
    simp only [seen, List.append_nil]
    exact ⟨h.waiting_iff, fun later hlater => nomatch hlater⟩
  | ok engine =>
    constructor
    · simp only [seen, arrivalsOf_append]
      show _ ↔ Outstanding (arrivalsOf history ++ [])
      rw [List.append_nil]
      exact h.waiting_iff
    · have hlast : lastCounterOf (history ++ [.started]) = none := lastSet_append_singleton
      rintro later ⟨⟩
      exact ⟨rfl, hlast.symm⟩

theorem Follows.step (h : reception.Follows history) (step : Step ε σ) :
    (reception.step step).Follows (history ++ reception.seen step) := by
  cases step with
  | start now graphics engine settings => exact h.start now graphics engine settings
  | stop =>
    simp only [seen, List.append_nil]
    exact ⟨h.waiting_iff, fun later hlater => nomatch hlater⟩
  | incident incident =>
    cases incident with
    | packet now header payload => exact h.packet now header payload
    | meanwhile change =>
      simp only [seen, List.append_nil]
      exact h.meanwhile change

theorem Follows.run (h : reception.Follows history) (steps : List (Step ε σ)) :
    (reception.run steps).Follows (history ++ reception.history steps) := by
  induction steps generalizing reception history with
  | nil =>
    simp only [Reception.history, List.append_nil]
    exact h
  | cons step rest ih =>
    simp only [Reception.history, ← List.append_assoc]
    exact ih (h.step step)

end Reception

/-- The client on the bench receives in this way. -/
def Bench.reception (bench : Bench) : Reception SimulatedEngine SimulatedSession where
  decoding := bench.client.decoding
  link := bench.link

theorem Bench.reception_receive (bench : Bench) (now : Nat) {packet : Bytes} {header : VideoHeader}
    {payload : Bytes} (hpacket : Packet.ofBytes packet = .ok (.video header payload)) :
    (bench.receive now packet).notices = (bench.reception.receive now header payload).notices ∧
      (bench.receive now packet).value.2.reception =
        (bench.reception.receive now header payload).value := by
  have hreceive := bench.client.receive_video now bench.link.waiting hpacket
  simp only [Bench.receive, hreceive]
  exact ⟨rfl, rfl⟩

end HeadsetStream.Streaming
