import HeadsetStream.Bitstream.TestPattern
import HeadsetStream.Proofs.ManualDecoding
import HeadsetStream.Proofs.SurfaceFrames

/-!
# The life of a session

A pipeline has at most one session that is not over: the current one, which runs or has failed. A
session fails by a fault that its engine reports, and is over when its parameter sets are no longer
those of the stream or decoding stops; no report brings it back. Packets decide by the parameter
sets in front of them alone whether a session is opened.
-/

namespace HeadsetStream.Decoder
open Video Bitstream Settings

/-- What a session may have come to: one that has failed does not run again, and one that is stopped
stays so. -/
def SessionState.Leads (before after : SessionState) : Prop :=
  after = before ∨ after = .stopped ∨ (before ≠ .stopped ∧ after = .error)

theorem SessionState.Leads.trans {before between after : SessionState} (h : before.Leads between)
    (h' : between.Leads after) : before.Leads after := by
  rcases h with rfl | rfl | ⟨hbefore, rfl⟩
  · exact h'
  · rcases h' with rfl | rfl | ⟨hstopped, -⟩
    · exact .inr (.inl rfl)
    · exact .inr (.inl rfl)
    · exact absurd rfl hstopped
  · rcases h' with rfl | rfl | ⟨-, rfl⟩
    · exact .inr (.inr ⟨hbefore, rfl⟩)
    · exact .inr (.inl rfl)
    · exact .inr (.inr ⟨hbefore, rfl⟩)

namespace SimulatedSession

private theorem prompt_stopped (session : SimulatedSession) (prompt : Prompt) :
    (session.prompt prompt).session.stopped = session.stopped := by
  cases prompt <;> rfl

private theorem fault_mem_prompt (session : SimulatedSession) {prompt : Prompt}
    (h : .event .fault ∈ (session.prompt prompt).reports) : prompt = .fault := by
  cases prompt with
  | offer buffer => simp [prompt] at h
  | complete pts =>
    simp only [prompt, complete] at h
    split at h <;> simp at h
  | present pts => simp [prompt] at h
  | fault => rfl

private theorem fault_not_mem_submit (session : SimulatedSession) (buffer : Nat) (data : Bytes)
    (pts : Nat)
    (flags : BufferFlags) : .event .fault ∉ (session.submit buffer data pts flags).reports := by
  unfold submit
  split
  · simp
  · dsimp only
    split
    · simp
    · split
      · simp
      · simp only [complete]
        split <;> simp

end SimulatedSession

namespace Session

variable {σ : Type} {session later last : Session σ} {faulty : Prop}

/-- What no report changes. Only a fault has an effect on the state. -/
structure Lasts (before after : Session σ) (faulty : Prop) : Prop where
  csd : after.csd = before.csd
  surface : before.surface.Alike after.surface
  state : after.state = before.state ∨ faulty ∧ after.state = before.state.degrade

theorem Lasts.refl (session : Session σ) (faulty : Prop) : session.Lasts session faulty :=
  ⟨rfl, .refl _, .inl rfl⟩

theorem Lasts.trans (h : session.Lasts later faulty) (h' : later.Lasts last faulty) :
    session.Lasts last faulty := by
  refine ⟨h'.csd.trans h.csd, h.surface.trans h'.surface, ?_⟩
  have hdegrade : session.state.degrade.degrade = session.state.degrade := by
    cases session.state <;> rfl
  rcases h.state with hstate | ⟨hfaulty, hstate⟩ <;>
    rcases h'.state with hstate' | ⟨hfaulty', hstate'⟩
  · exact .inl (hstate'.trans hstate)
  · exact .inr ⟨hfaulty', by rw [hstate', hstate]⟩
  · exact .inr ⟨hfaulty, hstate'.trans hstate⟩
  · exact .inr ⟨hfaulty, by rw [hstate', hstate, hdegrade]⟩

theorem Lasts.imp {faulty' : Prop} (h : session.Lasts later faulty) (himp : faulty → faulty') :
    session.Lasts later faulty' :=
  ⟨h.csd, h.surface, h.state.imp_right fun ⟨hfaulty, hstate⟩ => ⟨himp hfaulty, hstate⟩⟩

theorem Lasts.state_eq (h : session.Lasts later False) : later.state = session.state :=
  h.state.resolve_right And.left

theorem push_lasts (session : Session σ) (event : Event) :
    session.Lasts (session.push event).2 False := by
  unfold push
  split <;> exact ⟨rfl, .refl _, .inl rfl⟩

private theorem take_lasts (session : Session σ) (event : Event) :
    session.Lasts (session.take event).2 (event = .fault) := by
  cases event with
  | output buffer pts => exact (session.push_lasts _).imp False.elim
  | formatChanged => exact (session.push_lasts _).imp False.elim
  | fault =>
    have hpush := ({ session with state := session.state.degrade } : Session σ).push_lasts .fault
    exact ⟨hpush.csd, hpush.surface, .inr ⟨rfl, hpush.state_eq⟩⟩

private theorem hear_lasts (session : Session σ) (report : Callback) :
    session.Lasts (session.hear report).value.2 (report = .event .fault) := by
  unfold hear
  split
  · exact .refl session _
  · cases report with
    | inputFree buffer => dsimp only; split <;> exact ⟨rfl, .refl _, .inl rfl⟩
    | event event => exact (session.take_lasts event).imp (congrArg Callback.event)
    | image image => exact ⟨rfl, session.surface.alike_offer image, .inl rfl⟩

theorem hearAll_lasts (session : Session σ) (reports : List Callback) :
    session.Lasts (session.hearAll reports).value.2 (.event .fault ∈ reports) ∧
      (session.hearAll reports).value.2.engine = session.engine := by
  induction reports generalizing session with
  | nil => exact ⟨.refl session _, rfl⟩
  | cons report rest ih =>
    obtain ⟨hrest, hengine⟩ := ih (session.hear report).value.2
    rw [(session.hearAll_cons report rest).1]
    refine ⟨?_, hengine.trans (session.hear_engine report)⟩
    have hheard : session.Lasts (session.hear report).value.2 (.event .fault ∈ report :: rest) :=
      (session.hear_lasts report).imp fun hfault => by simp [hfault]
    exact hheard.trans (hrest.imp fun hmem => List.mem_cons_of_mem _ hmem)

theorem settle_lasts (session : Session σ) (faulty : Prop) :
    session.Lasts session.settle.value faulty :=
  ⟨rfl, session.surface.alike_settle, .inl rfl⟩

/-- Over, with nothing left to do for its engine. -/
structure Over (session : Session SimulatedSession) : Prop where
  stopped : session.state = .stopped
  closed : session.surface.closed = true
  engineStopped : session.engine.stopped = true

/-- Running or failed, on a surface that can be closed at once. -/
structure Live (session : Session SimulatedSession) : Prop where
  state : session.state = .running ∨ session.state = .error
  free : session.surface.busy = false
  nothingPublishing : session.surface.publishing = none

/-- A session now and later. -/
structure Ages (before after : Session σ) : Prop where
  csd : after.csd = before.csd
  state : before.state.Leads after.state

theorem Ages.trans {session later last : Session σ} (h : session.Ages later)
    (h' : later.Ages last) : session.Ages last :=
  ⟨h'.csd.trans h.csd, h.state.trans h'.state⟩

theorem Lasts.ages {session later : Session σ} (h : session.Lasts later faulty) :
    session.Ages later := by
  refine ⟨h.csd, ?_⟩
  rcases h.state with hstate | ⟨-, hstate⟩
  · exact .inl hstate
  · rw [hstate]
    cases session.state with
    | stopped => exact .inl rfl
    | uninitialized => exact .inr (.inr ⟨nofun, rfl⟩)
    | configuring => exact .inr (.inr ⟨nofun, rfl⟩)
    | running => exact .inr (.inr ⟨nofun, rfl⟩)
    | error => exact .inl rfl

private theorem ages_shutdown {ε : Type} [Engine ε σ] (session : Session σ) :
    session.Ages (session.shutdown (ε := ε)) := by
  unfold shutdown finish
  split <;> exact ⟨rfl, .inr (.inl rfl)⟩

variable {session later : Session SimulatedSession}

theorem Live.lasts (h : session.Live) (hlasts : session.Lasts later faulty) : later.Live := by
  refine ⟨?_, hlasts.surface.busy.trans h.free,
    (hlasts.surface.publishing h.free).trans h.nothingPublishing⟩
  rcases hlasts.state with hstate | ⟨-, hstate⟩
  · rw [hstate]
    exact h.state
  · rw [hstate]
    rcases h.state with hstate' | hstate' <;> rw [hstate'] <;> exact .inr rfl

theorem Over.lasts (h : session.Over) (hlasts : session.Lasts later faulty)
    (hengine : later.engine.stopped = session.engine.stopped) : later.Over := by
  refine ⟨?_, hlasts.surface.closed.trans h.closed, hengine.trans h.engineStopped⟩
  rcases hlasts.state with hstate | ⟨-, hstate⟩ <;> rw [hstate, h.stopped]
  rfl

private theorem Live.over_shutdown (h : session.Live) :
    (session.shutdown (ε := SimulatedEngine)).Over := by
  have hclosed : session.surface.close.closed = true :=
    Surface.close_of_idle h.nothingPublishing
  unfold shutdown finish
  rw [if_pos hclosed]
  exact ⟨rfl, hclosed, rfl⟩

theorem prompted_lasts (session : Session SimulatedSession) (prompt : Prompt) :
    session.Lasts (session.prompted prompt).value (prompt = .fault) ∧
      (session.prompted prompt).value.engine.stopped = session.engine.stopped := by
  let reply := session.engine.prompt prompt
  let replied : Session SimulatedSession := { session with engine := reply.session }
  obtain ⟨hheard, hengine⟩ := replied.hearAll_lasts reply.reports
  have hlasts : session.Lasts (replied.hearAll reply.reports).value.2 (prompt = .fault) :=
    ⟨hheard.csd, hheard.surface,
      hheard.state.imp_right (And.imp_left session.engine.fault_mem_prompt)⟩
  refine ⟨hlasts.trans (settle_lasts _ _), ?_⟩
  show (replied.hearAll reply.reports).value.2.engine.stopped = _
  rw [hengine]
  exact session.engine.prompt_stopped prompt

theorem submit_lasts (session : Session SimulatedSession) (buffer : Nat) (data : Bytes) (pts : Nat)
    (flags : BufferFlags) :
    session.Lasts (session.submit (ε := SimulatedEngine) buffer data pts flags).value.2 False := by
  let reply := session.engine.submit buffer data pts flags
  let replied : Session SimulatedSession := { session with engine := reply.session }
  have hheard := (replied.hearAll_lasts reply.reports).1.imp
    (session.engine.fault_not_mem_submit buffer data pts flags)
  rw [submit_eq]
  exact ⟨hheard.csd, hheard.surface, hheard.state⟩

private theorem handle_lasts (session : Session SimulatedSession) (latency : Bool) (event : Event) :
    session.Lasts (session.handle (ε := SimulatedEngine) latency event).value.2 False := by
  cases event with
  | formatChanged => exact .refl session False
  | fault => exact .refl session False
  | output buffer pts =>
    let reply := session.engine.release buffer true
    let replied : Session SimulatedSession := { session with engine := reply.session }
    have hfault : .event .fault ∉ reply.reports.map Callback.image := by simp
    have hheard := (replied.hearAll_lasts (reply.reports.map .image)).1.imp hfault
    rw [handle_output]
    exact ⟨hheard.csd, hheard.surface, hheard.state⟩

private theorem handleNext_lasts (session : Session SimulatedSession) (latency : Bool) :
    session.Lasts (session.handleNext (ε := SimulatedEngine) latency).value False := by
  unfold handleNext
  split
  · exact .refl session False
  · next event rest _ =>
    have hhandle := session.handle_lasts latency event
    have hrest : session.Lasts ({ (session.handle (ε := SimulatedEngine) latency event).value.2 with
        events := rest } : Session SimulatedSession) False :=
      ⟨hhandle.csd, hhandle.surface, hhandle.state⟩
    exact hrest.trans (settle_lasts _ _)

end Session

namespace Pipeline

variable {ε σ : Type} {pipeline : Pipeline ε σ}

theorem sessions_getElem?_eq_some_iff {number : Nat} {session : Session σ} :
    pipeline.sessions[number]? = some session ↔
      pipeline.past[number]? = some session ∨
        (number = pipeline.past.length ∧ pipeline.current = some session) := by
  unfold sessions
  rcases Nat.lt_trichotomy number pipeline.past.length with hlt | rfl | hgt
  · simp [List.getElem?_append_left hlt, Nat.ne_of_lt hlt]
  · cases pipeline.current <;> simp
  · have hnone : pipeline.past[number]? = none := List.getElem?_eq_none (Nat.le_of_lt hgt)
    obtain ⟨more, hmore⟩ := Nat.exists_eq_add_of_lt hgt
    have hindex : number - pipeline.past.length = more + 1 := by omega
    rw [List.getElem?_append_right (Nat.le_of_lt hgt), hindex]
    cases pipeline.current <;> simp [hnone, Nat.ne_of_gt hgt]

theorem needsSession_iff {csd : Bytes} :
    pipeline.needsSession csd = true ↔ csd ≠ [] ∧
      ∀ session, pipeline.current = some session →
        session.state = .error ∨ session.state = .stopped ∨ session.csd ≠ csd := by
  unfold needsSession
  cases pipeline.current <;> simp [or_assoc]

theorem length_sessions : pipeline.sessions.length =
    pipeline.past.length + pipeline.current.toList.length := by
  simp [sessions]

end Pipeline

namespace TrialPipeline

variable {pipeline later last : TrialPipeline} {session session' : Session SimulatedSession}
  {number : Nat}

/-- No session is lost, and all are what they were, or have aged. -/
def Ages (before after : TrialPipeline) : Prop :=
  ∀ (number : Nat) (session : Session SimulatedSession), before.sessions[number]? = some session →
    ∃ session', after.sessions[number]? = some session' ∧ session.Ages session'

/-- All sessions but the current one are over. -/
structure Orderly (pipeline : TrialPipeline) : Prop where
  graphics : pipeline.links.graphics = true
  free : pipeline.busy = false
  past : ∀ session ∈ pipeline.past, session.Over
  current : ∀ session, pipeline.current = some session → session.Live

theorem Ages.refl (pipeline : TrialPipeline) : pipeline.Ages pipeline :=
  fun _ session h => ⟨session, h, rfl, .inl rfl⟩

theorem Ages.trans (h : pipeline.Ages later) (h' : later.Ages last) : pipeline.Ages last := by
  intro number session hsession
  obtain ⟨between, hbetween, hages⟩ := h number session hsession
  obtain ⟨session', hsession', hages'⟩ := h' number between hbetween
  exact ⟨session', hsession', hages.trans hages'⟩

theorem ages_of_current (hpast : later.past = pipeline.past)
    (hcurrent : ∀ session, pipeline.current = some session →
      ∃ session', later.current = some session' ∧ session.Ages session') :
    pipeline.Ages later := by
  intro number session hsession
  rcases Pipeline.sessions_getElem?_eq_some_iff.mp hsession with hold | ⟨rfl, hlast⟩
  · refine ⟨session, Pipeline.sessions_getElem?_eq_some_iff.mpr (.inl ?_), rfl, .inl rfl⟩
    rw [hpast]
    exact hold
  · obtain ⟨session', hsession', hages⟩ := hcurrent session hlast
    refine ⟨session', Pipeline.sessions_getElem?_eq_some_iff.mpr (.inr ⟨?_, hsession'⟩), hages⟩
    rw [hpast]

theorem ages_retire (pipeline : TrialPipeline) : pipeline.Ages pipeline.retire := by
  cases hcurrent : pipeline.current with
  | none =>
    rw [Pipeline.retire_of_none hcurrent]
    exact .refl pipeline
  | some last =>
    rw [Pipeline.retire_of_some hcurrent]
    intro number session hsession
    rcases Pipeline.sessions_getElem?_eq_some_iff.mp hsession with hold | ⟨rfl, hlast⟩
    · refine ⟨session, Pipeline.sessions_getElem?_eq_some_iff.mpr (.inl ?_), rfl, .inl rfl⟩
      obtain ⟨hlt, -⟩ := List.getElem?_eq_some_iff.mp hold
      simpa [List.getElem?_append_left hlt] using hold
    · obtain rfl : last = session := Option.some.inj (hcurrent.symm.trans hlast)
      exact ⟨last.shutdown (ε := SimulatedEngine),
        Pipeline.sessions_getElem?_eq_some_iff.mpr (.inl (by simp)), last.ages_shutdown⟩

private theorem ages_set (h : pipeline.past[number]? = some session)
    (hages : session.Ages session') :
    pipeline.Ages { pipeline with past := pipeline.past.set number session' } := by
  intro number' other hother
  rcases Pipeline.sessions_getElem?_eq_some_iff.mp hother with hold | ⟨rfl, hlast⟩
  · by_cases hnumber : number = number'
    · subst hnumber
      obtain rfl : session = other := Option.some.inj (h.symm.trans hold)
      obtain ⟨hlt, -⟩ := List.getElem?_eq_some_iff.mp h
      exact ⟨session', Pipeline.sessions_getElem?_eq_some_iff.mpr (.inl (by simp [hlt])), hages⟩
    · refine ⟨other, Pipeline.sessions_getElem?_eq_some_iff.mpr (.inl ?_), rfl, .inl rfl⟩
      rw [← hold]
      exact List.getElem?_set_ne hnumber
  · exact ⟨other, Pipeline.sessions_getElem?_eq_some_iff.mpr (.inr ⟨by simp, hlast⟩), rfl, .inl rfl⟩

theorem Orderly.retire (h : pipeline.Orderly) : Orderly pipeline.retire := by
  cases hcurrent : pipeline.current with
  | none =>
    rw [Pipeline.retire_of_none hcurrent]
    exact h
  | some last =>
    rw [Pipeline.retire_of_some hcurrent]
    refine ⟨h.graphics, h.free, ?_, nofun⟩
    intro session hsession
    rcases List.mem_append.mp hsession with hsession | hsession
    · exact h.past session hsession
    · obtain rfl := List.mem_singleton.mp hsession
      exact (h.current last hcurrent).over_shutdown

/-- The pipeline once the engine has failed to open a session. -/
def refused (pipeline : TrialPipeline) : TrialPipeline :=
  { pipeline.retire with engine := { pipeline.engine with failNext := false }, idle := .error }

/-- The pipeline once it has a session for these parameter sets. -/
def renewed (pipeline : TrialPipeline) (csd : Bytes) : TrialPipeline :=
  { pipeline.retire with idle := .configuring, current := some (pipeline.opened csd) }

/-- Parameter sets leave the sessions alone, or end the current one: then there is no other, or one
for them. -/
private theorem prepare_cases (hgraphics : pipeline.links.graphics = true) (csd : Bytes) :
    let prepared := (pipeline.prepare csd).value.2
    (pipeline.needsSession csd = false ∧ pipeline.prepare csd = pure (0, pipeline)) ∨
      (pipeline.needsSession csd = true ∧ pipeline.engine.failNext = true ∧
        prepared = pipeline.refused) ∨
      (pipeline.needsSession csd = true ∧ pipeline.engine.failNext = false ∧
        prepared = pipeline.renewed csd) := by
  intro prepared
  cases hneeds : pipeline.needsSession csd with
  | false => exact .inl ⟨rfl, by simp [Pipeline.prepare, hneeds]⟩
  | true =>
    have hprepare : pipeline.prepare csd = pipeline.retire.openSession csd := by
      simp [Pipeline.prepare, hneeds]
    have hkept : pipeline.retire.links = pipeline.links ∧ pipeline.retire.engine = pipeline.engine ∧
        opened pipeline.retire csd = pipeline.opened csd := by
      cases hcurrent : pipeline.current with
      | none => simp [Pipeline.retire_of_none hcurrent]
      | some session => simp [Pipeline.retire_of_some hcurrent, opened]
    obtain ⟨hlinks, hengine, hopened⟩ := hkept
    have hgraphics' : pipeline.retire.links.graphics = true := by rw [hlinks, hgraphics]
    cases hfail : pipeline.engine.failNext with
    | true =>
      have hfail' : pipeline.retire.engine.failNext = true := by rw [hengine, hfail]
      refine .inr (.inl ⟨rfl, rfl, ?_⟩)
      show (pipeline.prepare csd).value.2 = _
      rw [hprepare, openSession_of_failNext hgraphics' hfail', refused, ← hengine]
      rfl
    | false =>
      have hfail' : pipeline.retire.engine.failNext = false := by rw [hengine, hfail]
      obtain ⟨dropped, hopen⟩ := openSession_of_graphics hgraphics' hfail' csd
      refine .inr (.inr ⟨rfl, rfl, ?_⟩)
      show (pipeline.prepare csd).value.2 = _
      rw [hprepare, hopen, renewed, ← hopened]

theorem Orderly.renewed (h : pipeline.Orderly) (csd : Bytes) : (pipeline.renewed csd).Orderly := by
  refine ⟨h.retire.graphics, h.retire.free, h.retire.past, ?_⟩
  rintro session ⟨⟩
  exact ⟨.inl rfl, h.free, rfl⟩

theorem Orderly.refused (h : pipeline.Orderly) : pipeline.refused.Orderly :=
  ⟨h.retire.graphics, h.retire.free, h.retire.past, h.retire.current⟩

theorem Orderly.with_current {faulty : Prop} (h : pipeline.Orderly)
    (hcurrent : pipeline.current = some session) (hlasts : session.Lasts session' faulty)
    (clock : PtsClock) :
    Orderly { pipeline with clock, current := some session' } ∧
      pipeline.Ages { pipeline with clock, current := some session' } := by
  refine ⟨⟨h.graphics, h.free, h.past, ?_⟩, ages_of_current rfl ?_⟩
  · rintro later ⟨⟩
    exact (h.current session hcurrent).lasts hlasts
  · intro other hother
    obtain rfl : session = other := Option.some.inj (hcurrent.symm.trans hother)
    exact ⟨session', rfl, hlasts.ages⟩

/-- What is delivered leaves the current session in its state. -/
theorem deliver_lasts (pipeline : TrialPipeline) (now : Nat) (payload : Bytes)
    (frame : FrameIndex) :
    ∃ clock current,
      (pipeline.deliver now payload frame).value.2 = { pipeline with clock, current } ∧
      Option.Rel (fun before after => before.Lasts after False) pipeline.current current := by
  have hdelivered := pipeline.deliver_delivered now payload frame
  generalize pipeline.deliver now payload frame = done at hdelivered ⊢
  have hfed : ∀ (session : Session SimulatedSession) inputs,
      session.Lasts { session with inputs } False := fun _ _ => ⟨rfl, .refl _, .inl rfl⟩
  cases hdelivered with
  | dropped =>
    refine ⟨pipeline.clock, pipeline.current, rfl, ?_⟩
    cases pipeline.current with
    | none => exact .none
    | some session => exact .some (.refl session False)
  | refused session buffer inputs hcurrent =>
    rw [hcurrent]
    exact ⟨pipeline.clock, _, rfl, .some (hfed session inputs)⟩
  | configuration session buffer capacity inputs sent hcurrent _ hsent =>
    rw [hcurrent]
    have hsubmitted := ({ session with inputs } : Session SimulatedSession).submit_lasts buffer
      (payload.take capacity) 0 { configuration := true }
    rw [← hsent] at hsubmitted
    exact ⟨pipeline.clock, _, rfl, .some ((hfed session inputs).trans hsubmitted)⟩
  | picture session buffer capacity inputs sent hcurrent _ hsent =>
    rw [hcurrent]
    let fed : Session SimulatedSession := { session with inputs }
    let named := fed.withFrames (fed.surface.frames.set (pipeline.clock.next now).1 frame)
    have hnamed : fed.Lasts named False := ⟨rfl, ⟨rfl, rfl, rfl, fun _ => rfl⟩, .inl rfl⟩
    have hsubmitted := named.submit_lasts buffer (payload.take capacity)
      (pipeline.clock.next now).1
      { keyframe := hasKeyframeSlice pipeline.settings.codec payload }
    rw [← hsent] at hsubmitted
    exact ⟨_, _, rfl, .some ((hfed session inputs).trans (hnamed.trans hsubmitted))⟩

theorem deliver_of_not_running
    (h : ∀ session, pipeline.current = some session → session.state ≠ .running) (now : Nat)
    (payload : Bytes) (frame : FrameIndex) :
    pipeline.deliver now payload frame = pure (false, pipeline) := by
  obtain hdrop | ⟨session, -, -, hcurrent, hstate, -⟩ := pipeline.deliver_cases now payload frame
  · exact hdrop
  · exact absurd hstate (h session hcurrent)

theorem Orderly.deliver (h : pipeline.Orderly) (now : Nat) (payload : Bytes) (frame : FrameIndex) :
    Orderly (pipeline.deliver now payload frame).value.2 ∧
      pipeline.Ages (pipeline.deliver now payload frame).value.2 := by
  obtain ⟨clock, current, hvalue, hrel⟩ := pipeline.deliver_lasts now payload frame
  rw [hvalue]
  generalize hcurrent : pipeline.current = before at hrel
  cases hrel with
  | none => exact ⟨⟨h.graphics, h.free, h.past, nofun⟩, ages_of_current rfl (by simp [hcurrent])⟩
  | some hlasts => exact h.with_current hcurrent hlasts clock

/-- The engine was asked for a session: it opened one, or did not when it was told to fail. -/
def Requested (before after : TrialPipeline) : Prop :=
  before.sessions.length < after.sessions.length ∨
    (before.engine.failNext = true ∧ after.engine.failNext = false)

/-- There is no session that goes on with these parameter sets. -/
def Lacks (pipeline : TrialPipeline) (csd : Bytes) : Prop :=
  ∀ session, pipeline.current = some session →
    session.state = .error ∨ session.state = .stopped ∨ session.csd ≠ csd

/-- What becomes of the sessions when a packet with these parameter sets in front is queued. -/
structure Serves (before : TrialPipeline) (csd : Bytes) (done : Outcome (Bool × TrialPipeline)) :
    Prop where
  requested_iff : Requested before done.value.2 ↔ csd ≠ [] ∧ before.Lacks csd
  running : csd ≠ [] →
    (Requested before done.value.2 ∧ before.engine.failNext = true ∧
      done.value.2.current = none ∧ done.value.2.state = .error) ∨
    ∃ session, done.value.2.current = some session ∧ session.state = .running ∧ session.csd = csd
  kept : csd = [] → done.value.2.past = before.past ∧
    done.value.2.current.map (fun session => (session.csd, session.state)) =
      before.current.map fun session => (session.csd, session.state)
  dropped : csd = [] → (∀ session, before.current = some session → session.state ≠ .running) →
    done = pure (false, before)

private theorem length_sessions_retire (pipeline : TrialPipeline) :
    pipeline.retire.past.length = pipeline.sessions.length := by
  cases hcurrent : pipeline.current with
  | none => simp [Pipeline.retire_of_none hcurrent, Pipeline.length_sessions, hcurrent]
  | some session => simp [Pipeline.retire_of_some hcurrent, Pipeline.length_sessions, hcurrent]

/-- Parameter sets that ask for nothing leave the sessions as they are. -/
private theorem Orderly.serves_of_kept (h : pipeline.Orderly) {csd : Bytes}
    (hneeds : pipeline.needsSession csd = false) (now : Nat) (payload : Bytes)
    (frame : FrameIndex) : pipeline.Serves csd (pipeline.deliver now payload frame) := by
  have hnot : ¬ (csd ≠ [] ∧ pipeline.Lacks csd) := by
    rw [Lacks, ← Pipeline.needsSession_iff, hneeds]
    exact Bool.false_ne_true
  obtain ⟨clock, current, hvalue, hrel⟩ := pipeline.deliver_lasts now payload frame
  refine ⟨⟨fun hrequested => ?_, fun hlacks => absurd hlacks hnot⟩, fun hcsd => .inr ?_,
    fun _ => ?_, fun _ hidle => deliver_of_not_running hidle now payload frame⟩
  · rw [hvalue] at hrequested
    rcases hrequested with hmore | ⟨hfail, hfail'⟩
    · have hsame : current.toList.length = pipeline.current.toList.length := by
        generalize pipeline.current = before at hrel ⊢
        cases hrel <;> rfl
      rw [Pipeline.length_sessions, Pipeline.length_sessions] at hmore
      dsimp only at hmore
      omega
    · exact absurd (hfail.symm.trans hfail') nofun
  · rw [hvalue]
    -- The session that goes on with the parameter sets can only be running.
    have hsession : ∃ session, pipeline.current = some session ∧ session.state = .running ∧
        session.csd = csd := by
      by_contra hnone
      refine hnot ⟨hcsd, fun session hcurrent => ?_⟩
      rcases (h.current session hcurrent).state with hstate | hstate
      · exact .inr (.inr fun hsame => hnone ⟨session, hcurrent, hstate, hsame⟩)
      · exact .inl hstate
    obtain ⟨session, hcurrent, hstate, hsame⟩ := hsession
    rw [hcurrent] at hrel
    cases hrel with
    | some hlasts =>
      exact ⟨_, rfl, hlasts.state_eq.trans hstate, hlasts.csd.trans hsame⟩
  · rw [hvalue]
    refine ⟨rfl, ?_⟩
    generalize pipeline.current = before at hrel ⊢
    cases hrel with
    | none => rfl
    | some hlasts => simp [hlasts.csd, hlasts.state_eq]

private theorem serves_of_refused {csd : Bytes} {done : Outcome (Bool × TrialPipeline)}
    (hneeds : pipeline.needsSession csd = true) (hfail : pipeline.engine.failNext = true)
    (hdone : done.value.2 = pipeline.refused) : pipeline.Serves csd done := by
  have hasks := Pipeline.needsSession_iff.mp hneeds
  have hrequested : Requested pipeline done.value.2 := .inr ⟨hfail, by rw [hdone]; rfl⟩
  have hnone : done.value.2.current = none := by
    rw [hdone]
    exact pipeline.retire_current
  refine ⟨⟨fun _ => hasks, fun _ => hrequested⟩, fun _ => .inl ⟨hrequested, hfail, hnone, ?_⟩,
    fun hcsd => absurd hcsd hasks.1, fun hcsd => absurd hcsd hasks.1⟩
  rw [Pipeline.state, hnone, hdone]
  rfl

private theorem serves_of_renewed {csd payload : Bytes} {now : Nat} {frame : FrameIndex}
    {done : Outcome (Bool × TrialPipeline)} (hneeds : pipeline.needsSession csd = true)
    (hdone : done.value.2 = ((pipeline.renewed csd).deliver now payload frame).value.2) :
    pipeline.Serves csd done := by
  have hasks := Pipeline.needsSession_iff.mp hneeds
  obtain ⟨clock, current, hvalue, hrel⟩ := (pipeline.renewed csd).deliver_lasts now payload frame
  obtain ⟨session, rfl, hlasts⟩ : ∃ session, current = some session ∧
      (pipeline.opened csd).Lasts session False := by
    cases hrel with
    | some hlasts => exact ⟨_, rfl, hlasts⟩
  rw [hvalue] at hdone
  have hrequested : Requested pipeline done.value.2 := by
    have hlength := pipeline.length_sessions_retire
    have hlength' : done.value.2.sessions.length = pipeline.retire.past.length + 1 := by
      rw [hdone, Pipeline.length_sessions]
      rfl
    left
    omega
  refine ⟨⟨fun _ => hasks, fun _ => hrequested⟩, fun _ => .inr ?_,
    fun hcsd => absurd hcsd hasks.1, fun hcsd => absurd hcsd hasks.1⟩
  rw [hdone]
  exact ⟨session, rfl, hlasts.state_eq, hlasts.csd⟩

/-- What a packet does to the sessions, by what its parameter sets do: nothing, close the last one,
or replace it. Behind that the running session takes the rest. -/
theorem Orderly.queue (h : pipeline.Orderly) (now : Nat) (packet : Bytes) (frame : FrameIndex) :
    let csd := configurationPrefix pipeline.settings.codec packet
    pipeline.Serves csd (pipeline.queue now packet frame) ∧
      Orderly (pipeline.queue now packet frame).value.2 ∧
      pipeline.Ages (pipeline.queue now packet frame).value.2 := by
  intro csd
  let prepared := pipeline.prepare csd
  let delivered := prepared.value.2.deliver (Pipeline.delayed now prepared.value.1)
    (Pipeline.payload csd packet) frame
  have hqueue : pipeline.queue now packet frame =
      ⟨delivered.value, prepared.notices ++ delivered.notices⟩ := pipeline.queue_eq now packet frame
  have hvalue : (pipeline.queue now packet frame).value.2 = delivered.value.2 := by rw [hqueue]
  rcases pipeline.prepare_cases h.graphics csd with
    ⟨hneeds, -⟩ | ⟨hneeds, hfail, hprepare⟩ | ⟨hneeds, hfail, hprepare⟩
  · rw [Pipeline.queue_of_current hneeds]
    exact ⟨h.serves_of_kept hneeds _ _ _, h.deliver _ _ _⟩
  · -- The engine refused: there is nothing that the packet could go into.
    have hdropped : delivered.value.2 = pipeline.refused := by
      have hnone : pipeline.refused.current = none := pipeline.retire_current
      simp only [delivered, prepared, hprepare]
      rw [deliver_of_not_running (by simp [hnone])]
      rfl
    rw [hvalue, hdropped]
    exact ⟨serves_of_refused hneeds hfail (hvalue.trans hdropped), h.refused,
      pipeline.ages_retire.trans (.refl _)⟩
  · have hopened : pipeline.Ages (pipeline.renewed csd) :=
      pipeline.ages_retire.trans (ages_of_current rfl (by simp))
    have hdelivered := (h.renewed csd).deliver (Pipeline.delayed now prepared.value.1)
      (Pipeline.payload csd packet) frame
    have hdone : delivered.value.2 = ((pipeline.renewed csd).deliver
        (Pipeline.delayed now prepared.value.1) (Pipeline.payload csd packet) frame).value.2 := by
      rw [← hprepare]
    rw [hvalue, hdone]
    exact ⟨serves_of_renewed hneeds (hvalue.trans hdone), hdelivered.1,
      hopened.trans hdelivered.2⟩

theorem Orderly.prompt (h : pipeline.Orderly) (number : Nat) (prompt : Prompt) :
    Orderly (pipeline.perform (.prompt number prompt)).value ∧
      pipeline.Ages (pipeline.perform (.prompt number prompt)).value := by
  cases hpast : pipeline.past[number]? with
  | some session =>
    obtain ⟨hlasts, hengine⟩ := session.prompted_lasts prompt
    rw [perform_prompt_past hpast]
    refine ⟨⟨h.graphics, h.free, fun other hother => ?_, h.current⟩, ages_set hpast hlasts.ages⟩
    rcases List.mem_or_eq_of_mem_set hother with hother | rfl
    · exact h.past other hother
    · exact (h.past session (List.mem_of_getElem? hpast)).lasts hlasts hengine
  | none =>
    by_cases hlast : ∃ session, pipeline.current = some session ∧ number = pipeline.past.length
    · obtain ⟨session, hcurrent, rfl⟩ := hlast
      obtain ⟨hlasts, -⟩ := session.prompted_lasts prompt
      rw [perform_prompt_current hcurrent]
      exact h.with_current hcurrent hlasts pipeline.clock
    · rw [perform_prompt_none hpast fun session hcurrent hnumber =>
        hlast ⟨session, hcurrent, hnumber⟩]
      exact ⟨h, .refl pipeline⟩

theorem Orderly.handle (h : pipeline.Orderly) :
    Orderly (pipeline.perform .handle).value ∧ pipeline.Ages (pipeline.perform .handle).value := by
  cases hcurrent : pipeline.current with
  | none =>
    have hnothing : pipeline.perform .handle = pure pipeline := by simp only [perform, hcurrent]
    rw [hnothing]
    exact ⟨h, .refl pipeline⟩
  | some session =>
    have hlasts := session.handleNext_lasts pipeline.links.latency
    generalize hnext : session.handleNext (ε := SimulatedEngine) pipeline.links.latency = handled
      at hlasts
    have hhandled : (pipeline.perform .handle).value =
        { pipeline with current := some handled.value } := by
      simp only [perform, hcurrent, hnext]
      rfl
    rw [hhandled]
    exact h.with_current hcurrent hlasts pipeline.clock

theorem Orderly.perform (h : pipeline.Orderly) (operation : Operation) :
    Orderly (pipeline.perform operation).value ∧
      pipeline.Ages (pipeline.perform operation).value := by
  cases operation with
  | queue now packet frame => exact (h.queue now packet frame).2
  | prompt number prompt => exact h.prompt number prompt
  | handle => exact h.handle
  | failNext => exact ⟨⟨h.graphics, h.free, h.past, h.current⟩, .refl pipeline⟩
  | stop =>
    have hretire := h.retire
    exact ⟨⟨hretire.graphics, hretire.free, hretire.past, hretire.current⟩, pipeline.ages_retire⟩

theorem Orderly.run (h : pipeline.Orderly) (operations : List Operation) :
    Orderly (pipeline.run operations).value ∧ pipeline.Ages (pipeline.run operations).value := by
  induction operations generalizing pipeline with
  | nil => exact ⟨h, .refl pipeline⟩
  | cons operation rest ih =>
    obtain ⟨hperformed, hages⟩ := h.perform operation
    obtain ⟨hrun, hages'⟩ := ih hperformed
    rw [run_cons]
    exact ⟨hrun, hages.trans hages'⟩

private theorem over_of_mem_stop (h : pipeline.Orderly) {session : Session SimulatedSession}
    (hsession : session ∈ pipeline.stop.sessions) : session.Over := by
  have hstop : pipeline.stop.sessions = pipeline.retire.past := by
    simp [Pipeline.stop, Pipeline.sessions]
  rw [hstop] at hsession
  exact h.retire.past session hsession

/-- With a graphics device, after any operations: a packet has a session opened if it has parameter
sets in front that the current session does not go on with, and then one runs with them unless the
engine failed; all other sessions are over, and all when decoding stops; and whatever comes later,
what has failed does not run again and what is stopped stays so. -/
theorem sessions_live_and_end (settings : DecoderSettings) (links : Links)
    (engine : SimulatedEngine) (hgraphics : links.graphics = true) (operations : List Operation) :
    let start : TrialPipeline := { settings, links, engine }
    let pipeline : TrialPipeline := (start.run operations).value
    (∀ now packet frame, pipeline.Serves (configurationPrefix pipeline.settings.codec packet)
        (pipeline.queue now packet frame)) ∧
      (∀ session ∈ pipeline.past, session.Over) ∧
      (∀ session ∈ pipeline.stop.sessions, session.Over) ∧
      ∀ later, pipeline.Ages (pipeline.run later).value := by
  intro start pipeline
  have hstart : start.Orderly := ⟨hgraphics, rfl, by simp [start], by simp [start]⟩
  have h : pipeline.Orderly := (hstart.run operations).1
  exact ⟨fun now packet frame => (h.queue now packet frame).1, h.past,
    fun session hsession => over_of_mem_stop h hsession, fun later => (h.run later).2⟩

/-- A pipeline by hand, the only session of which has failed. -/
def failed : TrialPipeline :=
  ((manual {} {} 4).run [.queue 0 (TestPattern.parameterSets .h264) 0, .prompt 0 .fault]).value

/-- A session that has failed is replaced by one with the same parameter sets. -/
theorem failed_reopens :
    let sets := TestPattern.parameterSets .h264
    failed.state = .error ∧ ∃ session, (failed.queue 0 sets 0).value.2.current = some session ∧
      session.state = .running ∧ session.csd = sets := by
  intro sets
  have hstate : failed.state = .error := by rfl
  have hfail : failed.engine.failNext = false := by rfl
  have hcodec : failed.settings.codec = .h264 := by rfl
  have hsets : configurationPrefix .h264 sets = sets := by decide
  have hserves : failed.Serves (configurationPrefix failed.settings.codec sets)
      (failed.queue 0 sets 0) :=
    (sessions_live_and_end {} {} { mode := .manual } rfl
      [.queue 0 sets 0, .prompt 0 .fault]).1 0 sets 0
  rw [hcodec, hsets] at hserves
  rcases hserves.running (by simp [sets, TestPattern.parameterSets]) with ⟨-, hfail', -⟩ | hrunning
  · exact absurd (hfail.symm.trans hfail') nofun
  · exact ⟨hstate, hrunning⟩

end TrialPipeline

end HeadsetStream.Decoder
