import HeadsetStream.Decoder.Scripted
import HeadsetStream.Proofs.ConfigurationPrefix
import HeadsetStream.Proofs.FormatPrecedence
import HeadsetStream.Proofs.SessionIsolation

/-!
# Every byte of a packet reaches the engine once

A session is opened with parameter sets in its format, and a packet that is submitted to it later
goes without the parameter sets in front of it. Nothing is missing for that: whatever happens to a
pipeline, the format of its current session holds the parameter sets that the session stands for,
and those are the ones in front of any packet that is submitted to it. Only what an input buffer has
no room for is left out.
-/

namespace HeadsetStream.Decoder
open Video Bitstream Settings

/-- The sessions of the engine can be asked for the format that they were opened with. -/
class KnowsFormat (ε : Type) (σ : outParam Type) [Engine ε σ] where
  format : σ → MediaFormat
  format_create : ∀ (engine : ε) (wanted : MediaFormat) (opened : σ),
    (Engine.create engine wanted).2 = .ok opened → format opened = wanted
  format_start : ∀ session, format (Engine.start ε session).session = format session
  format_submit : ∀ session buffer data pts flags,
    format (Engine.submit ε session buffer data pts flags).session = format session
  format_release : ∀ session buffer render,
    format (Engine.release ε session buffer render).session = format session
  format_stop : ∀ session, format (Engine.stop ε session) = format session

instance : KnowsFormat SimulatedEngine SimulatedSession where
  format := SimulatedSession.format
  format_create engine wanted opened h := by
    simp only [Engine.create, SimulatedEngine.create] at h
    split at h
    · exact nomatch h
    · cases h
      rfl
  format_start session := by
    simp only [Engine.start, SimulatedSession.start]
    split <;> rfl
  format_submit session buffer data pts flags := by
    simp only [Engine.submit, SimulatedSession.submit]
    repeat' split
    all_goals rfl
  format_release session buffer render := by
    simp only [Engine.release, SimulatedSession.release]
    repeat' split
    all_goals rfl
  format_stop _ := rfl

instance : KnowsFormat ScriptedEngine ScriptedSession where
  format := ScriptedSession.format
  format_create engine wanted opened h := by
    simp only [Engine.create, resultOf] at h
    split at h
    · exact nomatch h
    · cases h
      rfl
  format_start _ := rfl
  format_submit _ _ _ _ _ := rfl
  format_release _ _ _ := rfl
  format_stop _ := rfl

/-- An engine, with a note of the format for each session that it opens. -/
structure Noting (ε : Type) where
  engine : ε

structure Noted (σ : Type) where
  session : σ
  format : MediaFormat

def Reply.noted {σ ρ : Type} (reply : Reply σ ρ) (format : MediaFormat) : Reply (Noted σ) ρ where
  session := ⟨reply.session, format⟩
  reports := reply.reports
  result := reply.result

instance {ε σ : Type} [Engine ε σ] : Engine (Noting ε) (Noted σ) where
  name noting := Engine.name noting.engine
  create noting format :=
    let (engine, opened) := Engine.create noting.engine format
    (⟨engine⟩, opened.map (⟨·, format⟩))
  start noted := (Engine.start ε noted.session).noted noted.format
  capacity noted buffer := Engine.capacity ε noted.session buffer
  submit noted buffer data pts flags :=
    (Engine.submit ε noted.session buffer data pts flags).noted noted.format
  release noted buffer render := (Engine.release ε noted.session buffer render).noted noted.format
  stop noted := { noted with session := Engine.stop ε noted.session }

/-- Any engine's formats are known once they are noted. -/
instance {ε σ : Type} [Engine ε σ] : KnowsFormat (Noting ε) (Noted σ) where
  format := Noted.format
  format_create noting wanted opened h := by
    simp only [Engine.create] at h
    cases hcreated : (Engine.create noting.engine wanted).2 with
    | error error =>
      rw [hcreated] at h
      exact nomatch h
    | ok session =>
      rw [hcreated] at h
      cases h
      rfl
  format_start _ := rfl
  format_submit _ _ _ _ _ := rfl
  format_release _ _ _ := rfl
  format_stop _ := rfl

/-- What a session's engine does by itself, or is made to do by others: it changes and reports, but
it takes no other format. -/
structure Deed (ε : Type) {σ : Type} [Engine ε σ] [KnowsFormat ε σ] where
  act : σ → Reply σ Callback
  format_act : ∀ session, KnowsFormat.format ε (act session).session = KnowsFormat.format ε session

def Deed.perform {ε σ : Type} [Engine ε σ] [KnowsFormat ε σ] (deed : Deed ε)
    (session : Session σ) : Outcome (Nat × Session σ) :=
  let reply := deed.act session.engine
  ({ session with engine := reply.session } : Session σ).hearAll reply.reports

/-- How the bytes of a packet are shared out between the parameter sets of a format and what is
submitted. A packet without bytes has no parameter sets. -/
structure SharesOut (codec : Codec) (packet : Bytes) (capacity : Nat) (csd data : Bytes) :
    Prop where
  configuration : packet ≠ [] → configurationPrefix codec packet = packet →
    csd = packet ∧ data = packet.take capacity
  both : configurationPrefix codec packet ≠ [] → configurationPrefix codec packet ≠ packet →
    csd = configurationPrefix codec packet ∧
      ∃ rest, csd ++ rest = packet ∧ data = rest.take capacity
  picture : configurationPrefix codec packet = [] → data = packet.take capacity

private theorem sharesOut_payload {codec : Codec} {packet csd : Bytes} (capacity : Nat)
    (hcsd : configurationPrefix codec packet ≠ [] → csd = configurationPrefix codec packet) :
    SharesOut codec packet capacity csd
      ((Pipeline.payload (configurationPrefix codec packet) packet).take capacity) := by
  have happend := (splitsInto_configurationPrefix codec packet).append_eq
  refine ⟨fun hne hall => ?_, fun hne hpart => ?_, fun hempty => ?_⟩
  · rw [hall] at hcsd ⊢
    exact ⟨hcsd hne, by simp [Pipeline.payload]⟩
  · refine ⟨hcsd hne, pictureData codec packet, by rw [hcsd hne, happend], ?_⟩
    have hlength : (configurationPrefix codec packet).length ≠ packet.length := by
      intro hlength
      have hlead : configurationPrefix codec packet <+: packet := ⟨_, happend⟩
      exact hpart (hlead.eq_of_length hlength)
    rw [Pipeline.payload, if_neg hlength, drop_configurationPrefix]
  · rw [hempty]
    simp [Pipeline.payload]

/-- The buffers that are submitted, oldest first. -/
def submissionsIn (notices : List Notice) : List Submission :=
  notices.filterMap fun
    | .submit buffer data pts flags => some ⟨buffer, data, pts, flags⟩
    | _ => none

@[simp] theorem submissionsIn_append (first rest : List Notice) :
    submissionsIn (first ++ rest) = submissionsIn first ++ submissionsIn rest :=
  List.filterMap_append ..

namespace Session

variable {ε σ : Type} [Engine ε σ] [KnowsFormat ε σ] {session later last : Session σ}

/-- What a session was opened for stays as it is. -/
structure Stays (ε : Type) {σ : Type} [Engine ε σ] [KnowsFormat ε σ] (before after : Session σ) :
    Prop where
  csd : after.csd = before.csd
  format : KnowsFormat.format ε after.engine = KnowsFormat.format ε before.engine

theorem Stays.refl (session : Session σ) : session.Stays ε session := ⟨rfl, rfl⟩

theorem Stays.trans (h : session.Stays ε later) (h' : later.Stays ε last) :
    session.Stays ε last :=
  ⟨h'.csd.trans h.csd, h'.format.trans h.format⟩

/-- Whatever an engine replies, hearing it changes nothing but what the engine has changed. -/
theorem heard_stays {ρ : Type} {reply : Reply σ ρ} (reports : List Callback)
    (h : KnowsFormat.format ε reply.session = KnowsFormat.format ε session.engine) :
    session.Stays ε
      (({ session with engine := reply.session } : Session σ).hearAll reports).value.2 := by
  obtain ⟨hlasts, hengine⟩ :=
    ({ session with engine := reply.session } : Session σ).hearAll_lasts reports
  exact ⟨hlasts.csd, by rw [hengine]; exact h⟩

private theorem start_stays (session : Session σ) :
    session.Stays ε (session.start (ε := ε)).value.2.2 :=
  heard_stays _ (KnowsFormat.format_start session.engine)

private theorem submit_stays (session : Session σ) (buffer : Nat) (data : Bytes) (pts : Nat)
    (flags : BufferFlags) :
    session.Stays ε (session.submit (ε := ε) buffer data pts flags).value.2 := by
  rw [submit_eq]
  exact heard_stays _ (KnowsFormat.format_submit session.engine buffer data pts flags)

theorem handle_stays (session : Session σ) (latency : Bool) (event : Event) :
    session.Stays ε (session.handle (ε := ε) latency event).value.2 := by
  cases event with
  | formatChanged => exact .refl session
  | fault => exact .refl session
  | output buffer pts =>
    rw [handle_output]
    exact heard_stays _ (KnowsFormat.format_release session.engine buffer true)

private theorem handleAll_stays (session : Session σ) (latency : Bool) (events : List Event) :
    session.Stays ε (session.handleAll (ε := ε) latency events).value := by
  induction events generalizing session with
  | nil => exact ⟨rfl, rfl⟩
  | cons event rest ih =>
    have hhandle := session.handle_stays (ε := ε) latency event
    rw [handleAll, Outcome.value_bind]
    dsimp only
    split
    · exact ⟨hhandle.csd, hhandle.format⟩
    · exact hhandle.trans (ih _)

private theorem handleNext_stays (session : Session σ) (latency : Bool) :
    session.Stays ε (session.handleNext (ε := ε) latency).value := by
  unfold handleNext
  split
  · exact .refl session
  · next event rest _ =>
    have hhandle := session.handle_stays (ε := ε) latency event
    exact ⟨hhandle.csd, hhandle.format⟩

private theorem drain_stays (session : Session σ) (latency : Bool) :
    session.Stays ε (session.drain (ε := ε) latency).value := by
  have hhandled := session.handleAll_stays (ε := ε) latency session.events
  exact ⟨hhandled.csd, hhandled.format⟩

private theorem finish_stays (session : Session σ) : session.Stays ε (session.finish (ε := ε)) := by
  unfold finish
  split
  · exact ⟨rfl, KnowsFormat.format_stop session.engine⟩
  · exact .refl session

private theorem resume_stays (session : Session σ) :
    session.Stays ε (session.resume (ε := ε)).value := by
  let resumed : Session σ := { session with surface := session.surface.resume.value }
  have hvalue : (session.resume (ε := ε)).value =
      if session.surface.closing then resumed.finish (ε := ε) else resumed := rfl
  have hresumed : session.Stays ε resumed := ⟨rfl, rfl⟩
  rw [hvalue]
  split
  · exact hresumed.trans resumed.finish_stays
  · exact hresumed

omit [KnowsFormat ε σ] in
/-- Hearing what an engine reports submits nothing. -/
private theorem submissionsIn_hearAll (session : Session σ) (reports : List Callback) :
    submissionsIn (session.hearAll reports).notices = [] := by
  rw [submissionsIn, List.filterMap_eq_nil_iff]
  intro notice hmem
  obtain ⟨decoded, rfl⟩ := image_of_mem_hearAll reports hmem
  rfl

omit [KnowsFormat ε σ] in
theorem submissionsIn_submit (session : Session σ) (buffer : Nat) (data : Bytes) (pts : Nat)
    (flags : BufferFlags) :
    submissionsIn (session.submit (ε := ε) buffer data pts flags).notices =
      [⟨buffer, data, pts, flags⟩] := by
  rw [submit_eq]
  exact congrArg (_ :: ·) (submissionsIn_hearAll _ _)

end Session

namespace Pipeline

variable {ε σ : Type} [Engine ε σ]

omit [Engine ε σ] in
@[simp] theorem submissionsIn_announcements (pipeline : Pipeline ε σ) (buffer : Nat)
    (payload : Bytes) (frame : FrameIndex) :
    submissionsIn (pipeline.announcements buffer payload frame) = [] := by
  unfold announcements
  split <;> split <;> rfl

private theorem submissionsIn_prepare (pipeline : Pipeline ε σ) (csd : Bytes) :
    submissionsIn (pipeline.prepare csd).notices = [] := by
  rw [submissionsIn, List.filterMap_eq_nil_iff]
  intro notice hmem
  rw [pipeline.prepare_notices csd notice hmem]

variable [KnowsFormat ε σ]

/-- The format of the current session holds the parameter sets that the session stands for. -/
def Configured (pipeline : Pipeline ε σ) : Prop :=
  ∀ session, pipeline.current = some session →
    (KnowsFormat.format ε session.engine).buffer? "csd-0" = some session.csd

variable {pipeline later : Pipeline ε σ}

theorem Configured.of_stays (h : pipeline.Configured)
    (hstays : ∀ session', later.current = some session' →
      ∃ session, pipeline.current = some session ∧ session.Stays ε session') :
    later.Configured := by
  intro session' hsession'
  obtain ⟨session, hsession, hkept⟩ := hstays session' hsession'
  rw [hkept.csd, hkept.format]
  exact h session hsession

theorem Configured.of_current (h : pipeline.Configured) {session session' : Session σ}
    (hcurrent : pipeline.current = some session) (hstays : session.Stays ε session')
    (hlater : later.current = some session') : later.Configured := by
  refine h.of_stays fun other hother => ⟨session, hcurrent, ?_⟩
  obtain rfl := Option.some.inj (hlater.symm.trans hother)
  exact hstays

theorem configured_of_none (h : pipeline.current = none) : pipeline.Configured := by
  intro session hsession
  rw [h] at hsession
  exact nomatch hsession

/-- Where there is no session, one that is opened has a format with its parameter sets. -/
theorem openSession_configured (hcurrent : pipeline.current = none) (csd : Bytes) :
    let opened := (pipeline.openSession csd).value.2
    opened.Configured ∧ ∀ session, opened.current = some session → session.csd = csd := by
  have hnothing : ∀ opened : Pipeline ε σ, opened.current = none →
      opened.Configured ∧ ∀ session, opened.current = some session → session.csd = csd :=
    fun opened hnone => ⟨configured_of_none hnone, fun session hsession => by simp_all⟩
  unfold openSession
  split
  · exact hnothing _ hcurrent
  dsimp only
  split
  · exact hnothing _ hcurrent
  · next engine opened hcreated =>
    have hformat := KnowsFormat.format_create pipeline.engine _ opened (congrArg Prod.snd hcreated)
    -- What is launched has the parameter sets in its format, and starting leaves them there.
    have hfresh : ∀ session : Session σ, session.csd = csd → session.engine = opened →
        ∀ fresh : Pipeline ε σ, fresh.current = none →
        (fresh.launch session).value.2.Configured ∧
          ∀ launched, (fresh.launch session).value.2.current = some launched →
            launched.csd = csd := by
      intro session hcsd hengine fresh hnone
      have hstarted := session.start_stays (ε := ε)
      rw [launch, Outcome.value_bind]
      dsimp only
      split
      · have hlaunched : (KnowsFormat.format ε
            (session.start (ε := ε)).value.2.2.engine).buffer? "csd-0" = some csd := by
          rw [hstarted.format, hengine, hformat]
          exact MediaFormat.buffer?_video pipeline.settings csd
        have hkept : (session.start (ε := ε)).value.2.2.csd = csd := hstarted.csd.trans hcsd
        constructor
        · rintro launched ⟨⟩
          rw [hlaunched]
          exact congrArg some hkept.symm
        · rintro launched ⟨⟩
          exact hkept
      · exact hnothing _ hnone
    exact hfresh _ rfl rfl _ hcurrent

/-- Behind its parameter sets a packet finds a session that stands for them, or none. -/
theorem Configured.prepare (h : pipeline.Configured) (csd : Bytes) :
    let prepared := (pipeline.prepare csd).value.2
    prepared.Configured ∧
      (csd ≠ [] → ∀ session, prepared.current = some session → session.csd = csd) := by
  cases hneeds : pipeline.needsSession csd with
  | true =>
    have hprepare : pipeline.prepare csd = pipeline.retire.openSession csd := by
      simp [Pipeline.prepare, hneeds]
    obtain ⟨hconfigured, hcsd⟩ := openSession_configured pipeline.retire_current csd
    rw [hprepare]
    exact ⟨hconfigured, fun _ => hcsd⟩
  | false =>
    have hprepare : pipeline.prepare csd = pure (0, pipeline) := by
      simp [Pipeline.prepare, hneeds]
    rw [hprepare]
    refine ⟨h, fun hne session hsession => ?_⟩
    by_contra hother
    have hlacks := Pipeline.needsSession_iff.not.mp (ne_true_of_eq_false hneeds)
    refine hlacks ⟨hne, fun other hcurrent => .inr (.inr ?_)⟩
    obtain rfl := Option.some.inj (hcurrent.symm.trans hsession)
    exact hother

/-- What a payload is submitted as: as much of it as the input buffer holds, to the session that was
current. -/
structure HandsOver (pipeline : Pipeline ε σ) (payload : Bytes)
    (done : Outcome (Bool × Pipeline ε σ)) (submission : Submission) (session : Session σ)
    (capacity : Nat) : Prop where
  only : submissionsIn done.notices = [submission]
  fills : Engine.capacity ε session.engine submission.buffer = .ok capacity
  data : submission.data = payload.take capacity
  current : ∃ before, pipeline.current = some before ∧ before.Stays ε session
  submitted : done.value.2.current =
    some (session.submit (ε := ε) submission.buffer submission.data submission.pts
      submission.flags).value.2

/-- Nothing is submitted and the current session stays, or the payload is handed over to it. -/
theorem deliver_handsOver (pipeline : Pipeline ε σ) (now : Nat) (payload : Bytes)
    (frame : FrameIndex) :
    let done := pipeline.deliver now payload frame
    (submissionsIn done.notices = [] ∧ ∀ session', done.value.2.current = some session' →
        ∃ session, pipeline.current = some session ∧ session.Stays ε session') ∨
      ∃ submission session capacity,
        pipeline.HandsOver payload done submission session capacity := by
  obtain hdrop | ⟨session, buffer, inputs, hcurrent, -, -, hsubmit⟩ :=
    pipeline.deliver_cases now payload frame
  · rw [hdrop]
    exact .inl ⟨rfl, fun session hsession => ⟨session, hsession, .refl session⟩⟩
  let fed : Session σ := { session with inputs }
  have hfed : session.Stays ε fed := ⟨rfl, rfl⟩
  intro done
  have hdone : done = pipeline.submit fed buffer now payload frame := hsubmit
  rw [hdone]
  cases hcapacity : Engine.capacity ε fed.engine buffer with
  | error error =>
    rw [submit_of_error hcapacity]
    refine .inl ⟨submissionsIn_announcements .., ?_⟩
    rintro session' ⟨⟩
    exact ⟨session, hcurrent, hfed⟩
  | ok capacity =>
    refine .inr ?_
    cases hconf : opensWithParameterSet pipeline.settings.codec payload with
    | true =>
      rw [submit_configuration hcapacity hconf]
      refine ⟨⟨buffer, payload.take capacity, 0, { configuration := true }⟩, _, capacity, ?_,
        hcapacity, rfl, ⟨session, hcurrent, hfed⟩, rfl⟩
      rw [submissionsIn_append, submissionsIn_announcements, Session.submissionsIn_submit]
      rfl
    | false =>
      rw [submit_picture hcapacity hconf]
      let framed := fed.withFrames (fed.surface.frames.set (pipeline.clock.next now).1 frame)
      refine ⟨⟨buffer, payload.take capacity, (pipeline.clock.next now).1,
        { keyframe := hasKeyframeSlice pipeline.settings.codec payload }⟩, framed, capacity, ?_,
        hcapacity, rfl, ⟨session, hcurrent, ⟨rfl, rfl⟩⟩, rfl⟩
      rw [submissionsIn_append, submissionsIn_announcements, Session.submissionsIn_submit]
      rfl

theorem Configured.deliver (h : pipeline.Configured) (now : Nat) (payload : Bytes)
    (frame : FrameIndex) : (pipeline.deliver now payload frame).value.2.Configured := by
  obtain ⟨-, hstays⟩ | ⟨submission, session, capacity, hhands⟩ :=
    pipeline.deliver_handsOver now payload frame
  · exact h.of_stays hstays
  · obtain ⟨before, hbefore, hstays⟩ := hhands.current
    exact h.of_current hbefore (hstays.trans (session.submit_stays ..)) hhands.submitted

/-- A packet, as it is submitted, is shared out between the format of the session that it is
submitted to and the buffer. -/
private theorem Configured.queue_sharesOut (h : pipeline.Configured) (now : Nat) (packet : Bytes)
    (frame : FrameIndex) {submission : Submission}
    (hmem : submission ∈ submissionsIn (pipeline.queue now packet frame).notices) :
    submissionsIn (pipeline.queue now packet frame).notices = [submission] ∧
      ∃ (session : Session σ) (csd : Bytes) (capacity : Nat),
        (pipeline.queue now packet frame).value.2.current =
          some (session.submit (ε := ε) submission.buffer submission.data submission.pts
            submission.flags).value.2 ∧
        (KnowsFormat.format ε session.engine).buffer? "csd-0" = some csd ∧
        Engine.capacity ε session.engine submission.buffer = .ok capacity ∧
        SharesOut pipeline.settings.codec packet capacity csd submission.data := by
  let csd := configurationPrefix pipeline.settings.codec packet
  obtain ⟨hprepared, hcsd⟩ := h.prepare csd
  rw [queue_eq] at hmem ⊢
  rw [Outcome.notices_bind, submissionsIn_append, submissionsIn_prepare, List.nil_append] at hmem ⊢
  rw [Outcome.value_bind]
  obtain ⟨hnone, -⟩ | ⟨sent, session, capacity, hhands⟩ :=
    (pipeline.prepare csd).value.2.deliver_handsOver
      (delayed now (pipeline.prepare csd).value.1) (payload csd packet) frame
  · rw [hnone] at hmem
    exact absurd hmem List.not_mem_nil
  · obtain ⟨before, hbefore, hstays⟩ := hhands.current
    rw [hhands.only] at hmem ⊢
    obtain rfl := List.mem_singleton.mp hmem
    refine ⟨rfl, session, session.csd, capacity, hhands.submitted, ?_, hhands.fills, ?_⟩
    · rw [hstays.format, hstays.csd]
      exact hprepared before hbefore
    · rw [hhands.data]
      refine sharesOut_payload capacity fun hne => ?_
      rw [hstays.csd]
      exact hcsd hne before hbefore

theorem Configured.queue (h : pipeline.Configured) (now : Nat) (packet : Bytes)
    (frame : FrameIndex) : (pipeline.queue now packet frame).value.2.Configured := by
  rw [queue_eq]
  exact (h.prepare _).1.deliver _ _ _

/-- What happens to a pipeline, whatever its engine. -/
inductive Move (ε : Type) {σ : Type} [Engine ε σ] [KnowsFormat ε σ] where
  | queue (now : Nat) (packet : Bytes) (frame : FrameIndex)
  /-- The oldest event of the current session is handled. -/
  | handle
  /-- All events of the current session are handled. -/
  | drain
  | stop
  /-- The graphics device takes its time from now on. -/
  | hold
  /-- The graphics device is done. -/
  | resume
  /-- The engine is told something, for instance to fail. -/
  | engine (change : ε → ε)
  /-- One of the sessions acts, and its reports are heard. -/
  | deed (number : Nat) (deed : Deed ε)

def perform (pipeline : Pipeline ε σ) : Move ε → Outcome (Pipeline ε σ)
  | .queue now packet frame => do return (← pipeline.queue now packet frame).2
  | .handle =>
    match pipeline.current with
    | none => return pipeline
    | some session => do
      return { pipeline with
        current := some (← session.handleNext (ε := ε) pipeline.links.latency) }
  | .drain => pipeline.drain
  | .stop => return pipeline.stop
  | .hold => return pipeline.hold
  | .resume => pipeline.resume
  | .engine change => return { pipeline with engine := change pipeline.engine }
  | .deed number deed => do return (← pipeline.withSession number deed.perform).2

def run (pipeline : Pipeline ε σ) (moves : List (Move ε)) : Outcome (Pipeline ε σ) :=
  moves.foldlM perform pipeline

/-- The settings are those from the start, and the format of the current session holds the parameter
sets that the session stands for. -/
structure Keeps (settings : DecoderSettings) (pipeline : Pipeline ε σ) : Prop where
  settings_eq : pipeline.settings = settings
  configured : pipeline.Configured

variable {settings : DecoderSettings}

theorem Keeps.withSession (h : pipeline.Keeps settings) (number : Nat) (deed : Deed ε) :
    (pipeline.perform (.deed number deed)).value.Keeps settings := by
  simp only [perform, Pipeline.withSession]
  split
  · exact ⟨h.settings_eq, h.configured⟩
  · split
    · next session hcurrent =>
      split
      · refine ⟨h.settings_eq, h.configured.of_current hcurrent ?_ rfl⟩
        have hheard : session.Stays ε (deed.perform session).value.2 :=
          Session.heard_stays _ (deed.format_act session.engine)
        exact ⟨hheard.csd, hheard.format⟩
      · exact h
    · exact h

theorem Keeps.perform (h : pipeline.Keeps settings) (move : Move ε) :
    (pipeline.perform move).value.Keeps settings := by
  cases move with
  | queue now packet frame =>
    exact ⟨(pipeline.queue_kept now packet frame).1.trans h.settings_eq,
      h.configured.queue now packet frame⟩
  | handle =>
    simp only [Pipeline.perform]
    split
    · exact h
    · next session hcurrent =>
      exact ⟨h.settings_eq, h.configured.of_current hcurrent (session.handleNext_stays _) rfl⟩
  | drain =>
    refine ⟨pipeline.drain_kept.1.trans h.settings_eq, ?_⟩
    simp only [Pipeline.perform, Pipeline.drain]
    split
    · exact h.configured
    · next session hcurrent => exact h.configured.of_current hcurrent (session.drain_stays _) rfl
  | stop =>
    refine ⟨?_, configured_of_none pipeline.retire_current⟩
    rw [← h.settings_eq]
    cases hcurrent : pipeline.current with
    | none => simp [Pipeline.perform, Pipeline.stop, retire_of_none hcurrent]
    | some session => simp [Pipeline.perform, Pipeline.stop, retire_of_some hcurrent]
  | hold =>
    refine ⟨h.settings_eq, h.configured.of_stays fun session' hsession' => ?_⟩
    obtain ⟨session, hsession, rfl⟩ := Option.map_eq_some_iff.mp hsession'
    exact ⟨session, hsession, rfl, rfl⟩
  | resume =>
    refine ⟨h.settings_eq, h.configured.of_stays fun session' hsession' => ?_⟩
    simp only [Pipeline.perform, Pipeline.resume, Outcome.value_bind, Outcome.option_mapM_eq]
      at hsession'
    obtain ⟨session, hsession, rfl⟩ := Option.map_eq_some_iff.mp hsession'
    exact ⟨session, hsession, session.resume_stays⟩
  | engine change => exact ⟨h.settings_eq, h.configured⟩
  | deed number deed => exact h.withSession number deed

theorem Keeps.run (h : pipeline.Keeps settings) (moves : List (Move ε)) :
    (pipeline.run moves).value.Keeps settings := by
  induction moves generalizing pipeline with
  | nil => exact h
  | cons move rest ih =>
    rw [Pipeline.run, List.foldlM_cons, Outcome.value_bind]
    exact ih (h.perform move)

/-- Whatever has happened to a pipeline: of a packet one buffer is submitted at most, to a session
that has the parameter sets in front of the packet in its format. What else there is of the packet
is in the buffer, or as much of it as that holds. A packet that is nothing but parameter sets is in
both. -/
theorem submitted_bytes_complete (settings : DecoderSettings) (links : Links) (engine : ε)
    (moves : List (Move ε)) (now : Nat) (packet : Bytes) (frame : FrameIndex)
    {submission : Submission} :
    let start : Pipeline ε σ := { settings, links, engine }
    let done := (start.run moves).value.queue now packet frame
    submission ∈ submissionsIn done.notices →
      submissionsIn done.notices = [submission] ∧
        ∃ (session : Session σ) (csd : Bytes) (capacity : Nat),
          done.value.2.current = some (session.submit (ε := ε) submission.buffer submission.data
            submission.pts submission.flags).value.2 ∧
          (KnowsFormat.format ε session.engine).buffer? "csd-0" = some csd ∧
          Engine.capacity ε session.engine submission.buffer = .ok capacity ∧
          SharesOut settings.codec packet capacity csd submission.data := by
  intro start done hmem
  have hstart : start.Keeps settings := ⟨rfl, configured_of_none rfl⟩
  obtain ⟨hsettings, hconfigured⟩ := hstart.run moves
  have hshares := hconfigured.queue_sharesOut now packet frame hmem
  rw [hsettings] at hshares
  exact hshares

/-- A session that was opened by its parameter sets. -/
def opened : TrialPipeline :=
  (({ settings := {}, engine := { mode := .manual } } : TrialPipeline).run
    [.queue 0 (TestPattern.parameterSets .h264) 0]).value

def keyframe : Bytes := TestPattern.parameterSets .h264 ++ TestPattern.keyframeSlice .h264

/-- A keyframe behind its parameter sets, in the second packet of a session that they opened. -/
theorem keyframe_shared_out :
    submissionsIn (opened.queue 3 keyframe 7).notices =
        [⟨1, TestPattern.keyframeSlice .h264, 3, { keyframe := true }⟩] ∧
      ∃ (session : Session SimulatedSession) (csd : Bytes) (capacity : Nat),
        (KnowsFormat.format SimulatedEngine session.engine).buffer? "csd-0" = some csd ∧
        SharesOut .h264 keyframe capacity csd (TestPattern.keyframeSlice .h264) ∧
        csd = TestPattern.parameterSets .h264 := by
  have hnotices : submissionsIn (opened.queue 3 keyframe 7).notices =
      [⟨1, TestPattern.keyframeSlice .h264, 3, { keyframe := true }⟩] := by rfl
  have hmem : ⟨1, TestPattern.keyframeSlice .h264, 3, { keyframe := true }⟩ ∈
      submissionsIn (opened.queue 3 keyframe 7).notices := by
    rw [hnotices]
    exact List.mem_singleton_self _
  have hsets : configurationPrefix .h264 keyframe = TestPattern.parameterSets .h264 := by decide
  obtain ⟨-, session, csd, capacity, -, hcsd, -, hshares⟩ :=
    submitted_bytes_complete {} {} ({ mode := .manual } : SimulatedEngine)
      [.queue 0 (TestPattern.parameterSets .h264) 0] 3 keyframe 7 hmem
  refine ⟨hnotices, session, csd, capacity, hcsd, hshares, ?_⟩
  rw [(hshares.both (by rw [hsets]; decide) (by rw [hsets]; decide)).1, hsets]

end Pipeline

end HeadsetStream.Decoder
