import HeadsetStream.Proofs.LossRecovery
import Mathlib.Data.List.Infix

/-!
# Whether a request gets to the server

The decoding has a thread of its own. What it notices at a packet reaches the link one notice after
the other, and between two of them others send messages too, or fetch some. A request for a keyframe
comes right behind the mark that one is awaited, as a message like any other: it is dropped if the
queue is full then. While the mark stays set it is not made again.
-/

namespace HeadsetStream.Streaming
open Bitstream Decoder HeadsetStream.Geometry Settings Video Wire

namespace ServerLink

variable {link : ServerLink} {notice : Notice}

/-- The messages of a notice that find room. -/
def admitted (link : ServerLink) (notice : Notice) : List Message :=
  if link.queue.length < link.capacity then (Message.ofNotice? notice).toList else []

private theorem requestKeyframe_mem_admitted :
    .requestKeyframe ∈ link.admitted notice ↔
      notice = .requestKeyframe ∧ link.queue.length < link.capacity := by
  unfold admitted
  split
  · cases notice <;> simp [Message.ofNotice?, *]
  · simp [*]

private theorem send_eq (hopen : link.closed = false) (message : Message) :
    link.send message =
      { link with queue := link.queue ++
          if link.queue.length < link.capacity then [message] else [] } := by
  obtain ⟨capacity, queue, closed, waiting⟩ := link
  obtain rfl : closed = false := hopen
  by_cases hroom : queue.length < capacity
  · simp [send, hroom]
  · simp [send, hroom, Nat.not_lt.mp hroom]

theorem observe_eq (hopen : link.closed = false) (notice : Notice) :
    link.observe notice =
      { link with
        waiting := notice.waitingSetting.getD link.waiting
        queue := link.queue ++ link.admitted notice } := by
  unfold admitted
  cases notice <;> simp [observe, send_eq hopen, Message.ofNotice?, Notice.waitingSetting]

end ServerLink

/-- A thread that decodes, the link, and the one who fetches from it. -/
structure Uplink (ε σ : Type) where
  decoding : Decoding ε σ := {}
  link : ServerLink
  /-- What was noticed at the last packet and did not reach the link yet. -/
  untold : List Notice := []
  /-- The messages that were fetched, oldest first. -/
  received : List Message := []

inductive Move (ε σ : Type) where
  /-- A packet comes. While notices of an earlier one are untold, none can. -/
  | packet (now : Nat) (header : VideoHeader) (payload : Bytes)
  /-- Whatever else becomes of the decoding: streams begin and end, sessions report or fail. -/
  | meanwhile (change : Decoding ε σ → Decoding ε σ)
  /-- The next notice of the decoding reaches the link. -/
  | tell
  | tracking (info : TrackingInfo)
  | view (eyes : EyeInfo)
  | timeSync (sync : TimeSync)
  /-- So many messages are fetched, if there are as many. -/
  | fetch (count : Nat)

/-- Neither a loss nor a request is among the notices. -/
def Calm (notices : List Notice) : Prop :=
  ∀ notice ∈ notices, notice ≠ .waiting true ∧ notice ≠ .requestKeyframe

/-- What can be left of the notices at a packet: a loss comes first, the request for a keyframe
right behind it. -/
inductive Phase : List Notice → Prop
  | lost {rest : List Notice} (h : Calm rest) : Phase (.waiting true :: .requestKeyframe :: rest)
  | asking {rest : List Notice} (h : Calm rest) : Phase (.requestKeyframe :: rest)
  | calm {rest : List Notice} (h : Calm rest) : Phase rest

theorem Calm.of_cons {notice : Notice} {rest : List Notice} (h : Calm (notice :: rest)) :
    Calm rest :=
  fun later hmem => h later (List.mem_cons_of_mem _ hmem)

theorem Calm.of_filter {notices : List Notice}
    (h : ∀ notice ∈ notices.filter Notice.onKeyframes, notice = .waiting false) :
    Calm notices := by
  intro notice hmem
  by_contra hloss
  have hkept : notice ∈ notices.filter Notice.onKeyframes := by
    refine List.mem_filter.mpr ⟨hmem, ?_⟩
    cases notice <;> simp_all [Notice.onKeyframes]
  obtain rfl := h notice hkept
  simp at hloss

namespace Phase

variable {notice : Notice} {rest : List Notice}

theorem tail (h : Phase (notice :: rest)) : Phase rest := by
  cases h with
  | lost h => exact .asking h
  | asking h => exact .calm h
  | calm h => exact .calm h.of_cons

private theorem of_lost (h : Phase (.waiting true :: rest)) :
    ∃ later, rest = .requestKeyframe :: later ∧ Calm later := by
  cases h with
  | lost h => exact ⟨_, rfl, h⟩
  | calm h => exact absurd rfl (h _ List.mem_cons_self).1

end Phase

namespace Decoding

variable {ε σ : Type} [Engine ε σ]

theorem queue_phase (decoding : Decoding ε σ) (now : Nat) (waiting : Bool) (header : VideoHeader)
    (payload : Bytes) :
    Phase (decoding.queue now waiting header payload).notices ∧
      (waiting = true → Calm (decoding.queue now waiting header payload).notices) := by
  cases hpipeline : decoding.pipeline with
  | none =>
    have hnone : Calm (decoding.queue now waiting header payload).notices := by
      simp [queue, hpipeline, Calm]
    exact ⟨.calm hnone, fun _ => hnone⟩
  | some pipeline =>
    simp only [queue_of_some hpipeline, noticeLoss_notices]
    generalize hqueued :
      pipeline.queue ((now - decoding.started) / 1000) payload header.frame = queued
    -- Behind the loss only the mark is taken away.
    have hcalm : Calm (queued.notices ++ queued.value.2.drain.notices) := by
      apply Calm.of_filter
      rw [List.filter_append, (Pipeline.drain_tells _).saysNothing.filter, List.append_nil,
        ← hqueued, Pipeline.queue_onKeyframes]
      split <;> simp
    split
    · next hloss => exact ⟨.lost hcalm, fun hwaiting => by simp [hwaiting] at hloss⟩
    · exact ⟨.calm hcalm, fun _ => hcalm⟩

end Decoding

namespace Uplink

variable {ε σ : Type}

def new (capacity : Nat) : Uplink ε σ := { link := { capacity } }

/-- All messages that ever found room, fetched or not. -/
def accepted (uplink : Uplink ε σ) : List Message := uplink.received ++ uplink.link.queue

/-- What the link is told with a move. -/
def hears (uplink : Uplink ε σ) : Move ε σ → Option Notice
  | .tell => uplink.untold.head?
  | .tracking info => some (.tracking info)
  | .view eyes => some (.view eyes)
  | .timeSync sync => some (.timeSync sync)
  | .packet .. | .meanwhile _ | .fetch _ => none

def hear (uplink : Uplink ε σ) (notice : Notice) : Uplink ε σ :=
  { uplink with link := uplink.link.observe notice }

def tell (uplink : Uplink ε σ) : Uplink ε σ :=
  match uplink.untold with
  | [] => uplink
  | notice :: rest => { uplink.hear notice with untold := rest }

variable [Engine ε σ]

def receive (uplink : Uplink ε σ) (now : Nat) (header : VideoHeader) (payload : Bytes) :
    Uplink ε σ :=
  if uplink.untold.isEmpty then
    let queued := uplink.decoding.queue now uplink.link.waiting header payload
    { uplink with decoding := queued.value.2, untold := queued.notices }
  else uplink

def take (uplink : Uplink ε σ) : Move ε σ → Uplink ε σ
  | .packet now header payload => uplink.receive now header payload
  | .meanwhile change => { uplink with decoding := change uplink.decoding }
  | .tell => uplink.tell
  | .tracking info => uplink.hear (.tracking info)
  | .view eyes => uplink.hear (.view eyes)
  | .timeSync sync => uplink.hear (.timeSync sync)
  | .fetch count =>
    { uplink with
      link.queue := uplink.link.queue.drop count
      received := uplink.received ++ uplink.link.queue.take count }

def run (uplink : Uplink ε σ) (moves : List (Move ε σ)) : Uplink ε σ := moves.foldl take uplink

variable {uplink : Uplink ε σ}

@[simp] theorem run_append (uplink : Uplink ε σ) (first rest : List (Move ε σ)) :
    uplink.run (first ++ rest) = (uplink.run first).run rest :=
  List.foldl_append

private theorem run_tell_all (uplink : Uplink ε σ) :
    uplink.run (List.replicate uplink.untold.length .tell) =
      { uplink with link := uplink.link.observeAll uplink.untold, untold := [] } := by
  obtain ⟨decoding, link, untold, received⟩ := uplink
  induction untold generalizing link with
  | nil => rfl
  | cons notice rest ih => exact ih (link.observe notice)

/-- With nothing in between, a packet is received at one go. -/
theorem run_packet (uplink : Uplink ε σ) (h : uplink.untold = []) (now : Nat)
    (header : VideoHeader) (payload : Bytes) :
    let packet := uplink.take (.packet now header payload)
    let told := packet.run (List.replicate packet.untold.length .tell)
    let reception : Reception ε σ := { decoding := uplink.decoding, link := uplink.link }
    told.untold = [] ∧ { decoding := told.decoding, link := told.link } =
      (reception.receive now header payload).value := by
  intro packet told reception
  have htold : told = _ := run_tell_all packet
  have hpacket : packet = uplink.receive now header payload := rfl
  simp only [receive, h, List.isEmpty_nil, if_true] at hpacket
  rw [htold, hpacket]
  exact ⟨rfl, rfl⟩

/-- Someone fetches, and the notices of a packet come in their order. -/
structure Live (capacity : Nat) (uplink : Uplink ε σ) : Prop where
  closed_eq : uplink.link.closed = false
  capacity_eq : uplink.link.capacity = capacity
  phase : Phase uplink.untold

omit [Engine ε σ] in
theorem live_new (capacity : Nat) : (new capacity : Uplink ε σ).Live capacity where
  closed_eq := rfl
  capacity_eq := rfl
  phase := .calm fun _ hmem => absurd hmem List.not_mem_nil

variable {capacity : Nat}

omit [Engine ε σ] in
theorem Live.hear (h : uplink.Live capacity) (notice : Notice) :
    (uplink.hear notice).Live capacity := by
  obtain ⟨hclosed, hcapacity, hphase⟩ := h
  unfold Uplink.hear
  rw [ServerLink.observe_eq hclosed]
  exact ⟨hclosed, hcapacity, hphase⟩

omit [Engine ε σ] in
theorem Live.tell (h : uplink.Live capacity) : uplink.tell.Live capacity := by
  have hphase := h.phase
  unfold Uplink.tell
  split
  · exact h
  · next notice rest huntold =>
    rw [huntold] at hphase
    exact { h.hear notice with phase := hphase.tail }

theorem Live.take (h : uplink.Live capacity) (move : Move ε σ) :
    (uplink.take move).Live capacity := by
  cases move with
  | packet now header payload =>
    show (uplink.receive now header payload).Live capacity
    unfold receive
    split
    · exact { h with phase := (uplink.decoding.queue_phase now _ header payload).1 }
    · exact h
  | tell => exact h.tell
  | tracking info => exact h.hear _
  | view eyes => exact h.hear _
  | timeSync sync => exact h.hear _
  | meanwhile change => exact { h with }
  | fetch count => exact { h with }

theorem Live.run (h : uplink.Live capacity) (moves : List (Move ε σ)) :
    (uplink.run moves).Live capacity := by
  induction moves generalizing uplink with
  | nil => exact h
  | cons move rest ih => exact ih (h.take move)

omit [Engine ε σ] in
private theorem Live.accepted_hear (h : uplink.Live capacity) (notice : Notice) :
    (uplink.hear notice).accepted = uplink.accepted ++ uplink.link.admitted notice := by
  simp [accepted, Uplink.hear, ServerLink.observe_eq h.closed_eq]

/-- What finds room stays accepted, whoever fetches it. -/
private theorem Live.accepted_take (h : uplink.Live capacity) (move : Move ε σ) :
    (uplink.take move).accepted =
      uplink.accepted ++ (uplink.hears move).elim [] uplink.link.admitted := by
  have hhear := h.accepted_hear
  cases move with
  | packet now header payload =>
    simp only [Uplink.take, receive, hears, Option.elim_none, List.append_nil]
    split <;> rfl
  | tell =>
    simp only [Uplink.take, Uplink.tell, hears]
    split
    · next huntold => simp [huntold]
    · next notice rest huntold =>
      rw [huntold]
      exact hhear notice
  | tracking info => exact hhear _
  | view eyes => exact hhear _
  | timeSync sync => exact hhear _
  | meanwhile change => exact (List.append_nil _).symm
  | fetch count => simp [Uplink.take, accepted, hears]

omit [Engine ε σ] in
private theorem hears_requestKeyframe_iff {move : Move ε σ} :
    uplink.hears move = some .requestKeyframe ↔
      move = .tell ∧ uplink.untold.head? = some .requestKeyframe := by
  cases move <;> simp [hears]

/-- Of a run the requests are accepted that find room when they are told. -/
theorem Live.accepted_run (h : uplink.Live capacity) (moves : List (Move ε σ)) :
    ∃ added, (uplink.run moves).accepted = uplink.accepted ++ added ∧
      (.requestKeyframe ∈ added ↔ ∃ first rest, moves = first ++ .tell :: rest ∧
        (uplink.run first).untold.head? = some .requestKeyframe ∧
        (uplink.run first).link.queue.length < capacity) := by
  induction moves generalizing uplink with
  | nil => exact ⟨[], (List.append_nil _).symm, by simp⟩
  | cons move rest ih =>
    obtain ⟨added, hadded, hmem⟩ := ih (h.take move)
    refine ⟨(uplink.hears move).elim [] uplink.link.admitted ++ added, ?_, ?_⟩
    · rw [← List.append_assoc, ← h.accepted_take move, ← hadded]
      rfl
    have hnow : .requestKeyframe ∈ (uplink.hears move).elim [] uplink.link.admitted ↔
        move = .tell ∧ uplink.untold.head? = some .requestKeyframe ∧
          uplink.link.queue.length < capacity := by
      rw [← and_assoc, ← hears_requestKeyframe_iff, ← h.capacity_eq]
      cases uplink.hears move with
      | none => simp
      | some notice => simp [ServerLink.requestKeyframe_mem_admitted]
    rw [List.mem_append, hnow, hmem]
    constructor
    · rintro (⟨rfl, hhead, hroom⟩ | ⟨first, later, rfl, hlater⟩)
      · exact ⟨[], rest, rfl, hhead, hroom⟩
      · exact ⟨move :: first, later, rfl, hlater⟩
    · rintro ⟨first, later, hsplit, hhead, hroom⟩
      cases first with
      | nil =>
        obtain ⟨rfl, -⟩ := List.cons.inj hsplit
        exact .inl ⟨rfl, hhead, hroom⟩
      | cons earliest first =>
        obtain ⟨rfl, rfl⟩ := List.cons.inj hsplit
        exact .inr ⟨first, later, rfl, hhead, hroom⟩

/-- A loss is noticed with the next notice that is told. -/
theorem Live.raised (h : uplink.Live capacity) {move : Move ε σ}
    (hcalm : uplink.link.waiting = false) (hwaiting : (uplink.take move).link.waiting = true) :
    ∃ later, (uplink.take move).untold = .requestKeyframe :: later ∧ Calm later := by
  have hphase := h.phase
  cases move with
  | tell =>
    simp only [Uplink.take, Uplink.tell] at hwaiting ⊢
    split at hwaiting
    · exact nomatch hcalm.symm.trans hwaiting
    · next notice rest huntold =>
      rw [huntold] at hphase
      simp only [Uplink.hear, ServerLink.waiting_observe, hcalm] at hwaiting
      have hnotice : notice = .waiting true := by
        cases notice <;> simp_all [Notice.waitingSetting]
      subst hnotice
      exact hphase.of_lost
  | packet now header payload =>
    simp only [Uplink.take, receive] at hwaiting
    split at hwaiting <;> exact nomatch hcalm.symm.trans hwaiting
  | _ =>
    simp [Uplink.take, Uplink.hear, ServerLink.waiting_observe, Notice.waitingSetting, hcalm]
      at hwaiting

/-- As long as nothing is told, the notices wait. -/
theorem untold_run (huntold : uplink.untold ≠ []) {moves : List (Move ε σ)}
    (h : .tell ∉ moves) : (uplink.run moves).untold = uplink.untold := by
  induction moves generalizing uplink with
  | nil => rfl
  | cons move rest ih =>
    have hmove : (uplink.take move).untold = uplink.untold := by
      cases move <;> simp_all [take, receive, hear]
    rw [List.mem_cons, not_or] at h
    rw [← hmove] at huntold ⊢
    exact ih huntold h.2

/-- While a keyframe is awaited no other loss is noticed. -/
private theorem calm_run (hcalm : Calm uplink.untold) {moves : List (Move ε σ)}
    (hwaiting : ∀ first, first <+: moves → (uplink.run first).link.waiting = true) :
    Calm (uplink.run moves).untold := by
  induction moves generalizing uplink with
  | nil => exact hcalm
  | cons move rest ih =>
    have hnow : uplink.link.waiting = true := hwaiting [] List.nil_prefix
    have hmove : Calm (uplink.take move).untold := by
      cases move with
      | packet now header payload =>
        simp only [take, receive]
        split
        · exact (uplink.decoding.queue_phase now _ header payload).2 hnow
        · exact hcalm
      | tell =>
        simp only [take, tell]
        split
        · exact hcalm
        · next notice rest huntold =>
          rw [huntold] at hcalm
          exact hcalm.of_cons
      | _ => exact hcalm
    exact ih hmove fun first hfirst =>
      hwaiting (move :: first) (List.cons_prefix_cons.mpr ⟨rfl, hfirst⟩)

/-- A request is told at one time only while the keyframe is awaited: with the first notice behind
the loss. -/
private theorem head_untold_iff {later : List Notice}
    (huntold : uplink.untold = .requestKeyframe :: later) (hcalm : Calm later)
    {moves : List (Move ε σ)}
    (hwaiting : ∀ first, first <+: moves → (uplink.run first).link.waiting = true) :
    (uplink.run moves).untold.head? = some .requestKeyframe ↔ .tell ∉ moves := by
  have hasks : uplink.untold ≠ [] := huntold ▸ List.cons_ne_nil _ _
  constructor
  · intro hhead htell
    obtain ⟨first, rest, rfl, hfirst⟩ := List.eq_append_cons_of_mem htell
    have hkept := untold_run hasks hfirst
    have htold : ((uplink.run first).take .tell).untold = later := by
      simp only [take, tell, hkept, huntold]
    have hafter : Calm (((uplink.run first).take .tell).run rest).untold := by
      refine calm_run (htold ▸ hcalm) fun between hbetween => ?_
      have hprefix : first ++ .tell :: between <+: first ++ .tell :: rest := by
        simpa using hbetween
      simpa [run] using hwaiting _ hprefix
    rw [run_append] at hhead
    exact (hafter .requestKeyframe (List.mem_of_mem_head? hhead)).2 rfl
  · intro htell
    rw [untold_run hasks htell, huntold]
    rfl

/-- Once a loss has set the mark, and while the mark is not taken away, the request is the next
notice. It is in the queue or fetched exactly if it has been told and the queue had room then. -/
theorem request_accepted_iff (capacity : Nat) (before after : List (Move ε σ)) (raise : Move ε σ)
    (hbefore : ((new capacity).run before).link.waiting = false)
    (hwaiting : ∀ first, first <+: after →
      ((new capacity).run (before ++ raise :: first)).link.waiting = true) :
    let raised := (new capacity).run (before ++ [raise])
    raised.untold.head? = some .requestKeyframe ∧
      (.requestKeyframe ∈ (raised.run after).accepted.drop raised.accepted.length ↔
        ∃ first rest, after = first ++ .tell :: rest ∧ .tell ∉ first ∧
          (raised.run first).link.queue.length < capacity) := by
  intro raised
  have hlive := (live_new capacity).run before
  have hraised : raised = ((new capacity).run before).take raise := run_append ..
  have hstays : ∀ first, first <+: after → (raised.run first).link.waiting = true := by
    intro first hfirst
    have hthen := hwaiting first hfirst
    rw [run_append] at hthen
    rw [hraised]
    exact hthen
  obtain ⟨later, huntold, hcalm⟩ :=
    hlive.raised hbefore (hraised ▸ hstays [] List.nil_prefix)
  have hraisedLive : raised.Live capacity := hraised ▸ hlive.take raise
  rw [← hraised] at huntold
  obtain ⟨added, hadded, hmem⟩ := hraisedLive.accepted_run after
  refine ⟨by rw [huntold]; rfl, ?_⟩
  rw [hadded, List.drop_left, hmem]
  refine exists_congr fun first => exists_congr fun rest => and_congr_right ?_
  rintro rfl
  rw [head_untold_iff huntold hcalm fun earlier hearlier =>
    hstays earlier (hearlier.trans (List.prefix_append ..))]

/-- A stream with a gap, of which the link was told nothing yet. -/
def gapped : List (Move SimulatedEngine SimulatedSession) :=
  [.meanwhile fun decoding => decoding.start 0 true (.ok { mode := .manual }) {},
    .packet 0 { (default : VideoHeader) with counter := 0 } (TestPattern.deltaSlice .h264),
    .packet 0 { (default : VideoHeader) with counter := 2 } (TestPattern.deltaSlice .h264)]

/-- Another message comes between the mark and the request, but is fetched in time. -/
theorem request_accepted_after_fetch :
    let after : List (Move SimulatedEngine SimulatedSession) :=
      [.timeSync default, .fetch 1, .tell, .fetch 1]
    let raised := (new 1).run (gapped ++ [.tell])
    ((new 1).run gapped).link.waiting = false ∧
      (∀ first, first <+: after →
        ((new 1).run (gapped ++ .tell :: first)).link.waiting = true) ∧
      raised.untold.head? = some .requestKeyframe ∧
      (.requestKeyframe ∈ (raised.run after).accepted.drop raised.accepted.length ↔
        ∃ first rest, after = first ++ .tell :: rest ∧ .tell ∉ first ∧
          (raised.run first).link.queue.length < 1) := by
  intro after raised
  have hbefore : ((new 1).run gapped).link.waiting = false := by decide +kernel
  have hwaiting : ∀ first ∈ after.inits,
      ((new 1).run (gapped ++ .tell :: first)).link.waiting = true := by decide +kernel
  have hprefix : ∀ first, first <+: after →
      ((new 1).run (gapped ++ .tell :: first)).link.waiting = true :=
    fun first hfirst => hwaiting first ((List.mem_inits ..).mpr hfirst)
  exact ⟨hbefore, hprefix, request_accepted_iff 1 gapped after .tell hbefore hprefix⟩

/-- A queue that is full when the request is told drops it. The mark stays. -/
theorem request_dropped_when_full :
    ¬ ∀ (capacity : Nat) (before after : List (Move SimulatedEngine SimulatedSession))
        (raise : Move SimulatedEngine SimulatedSession), 1 ≤ capacity →
      ((new capacity).run before).link.waiting = false →
      (∀ first, first <+: after →
        ((new capacity).run (before ++ raise :: first)).link.waiting = true) →
      let raised := (new capacity).run (before ++ [raise])
      (raised.run after).untold = [] →
      .requestKeyframe ∈ (raised.run after).accepted.drop raised.accepted.length := by
  intro hall
  have hwaiting : ∀ first ∈ ([.tell, .fetch 1] : List (Move _ _)).inits,
      ((new 1).run (gapped ++ [.timeSync default] ++ .tell :: first)).link.waiting = true := by
    decide +kernel
  have hmem := hall 1 (gapped ++ [.timeSync default]) [.tell, .fetch 1] .tell le_rfl
    (by decide +kernel) (fun first hfirst => hwaiting first ((List.mem_inits ..).mpr hfirst))
    (by decide +kernel)
  revert hmem
  decide +kernel

end Uplink

end HeadsetStream.Streaming
