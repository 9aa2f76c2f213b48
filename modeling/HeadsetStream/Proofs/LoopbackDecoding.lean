import HeadsetStream.Proofs.SessionOpening

/-!
# Decoding in loopback

A session in loopback has handled everything by the time the next packet comes: its surface is idle,
no event is left and an input buffer is free. A packet that is queued and drained leaves it so
again. Of what is noticed meanwhile the screen changes by two things only, a session that is opened
and the image of a picture that was submitted.
-/

namespace HeadsetStream

/-- Whether a notice changes what the headset shows. -/
def Notice.onScreen : Notice → Bool
  | .renderMode _ | .image _ | .clear => true
  | _ => false

/-- Whether a notice is of a picture that is submitted, not of parameter sets. -/
def Notice.isPicture : Notice → Bool
  | .submit _ _ _ flags => !flags.configuration
  | _ => false

@[simp] theorem filter_onScreen_reports (frames : List Video.FrameIndex) :
    (frames.map Notice.decoderOutput).filter Notice.onScreen = [] := by
  simp [List.filter_eq_nil_iff, Notice.onScreen]

@[simp] theorem filter_onScreen_images (images : List Video.DecodedImage) :
    (images.map Notice.image).filter Notice.onScreen = images.map Notice.image := by
  simp [List.filter_eq_self, Notice.onScreen]

end HeadsetStream

namespace HeadsetStream.Decoder
open Video Settings Bitstream

namespace SimulatedSession

/-- In loopback and not stopped. -/
structure Looping (session : SimulatedSession) : Prop where
  loopback : session.mode = .loopback
  live : session.stopped = false

namespace Looping

variable {session : SimulatedSession}

theorem submit_configuration (h : session.Looping) (buffer : Nat) (data : Bytes) (pts : Nat)
    {flags : BufferFlags} (hflags : flags.configuration = true) :
    ∃ later, later.Looping ∧
      session.submit buffer data pts flags =
        { session := later, reports := [.inputFree buffer] } := by
  obtain ⟨hmode, hlive⟩ := h
  refine ⟨{ session with submitted := session.submitted.push ⟨buffer, data, pts, flags⟩ },
    ⟨hmode, hlive⟩, ?_⟩
  simp [submit, hlive, hmode, hflags]

/-- A picture comes back in the next output buffer, the first time after the format. -/
theorem submit_picture (h : session.Looping) (buffer : Nat) (data : Bytes) (pts : Nat)
    {flags : BufferFlags} (hflags : flags.configuration = false) :
    ∃ (later : SimulatedSession) (number : Nat) (first : List Event), later.Looping ∧
      later.pending.lookup number = some pts ∧ (first = [] ∨ first = [.formatChanged]) ∧
      session.submit buffer data pts flags =
        { session := later
          reports := (first ++ [Event.output number pts]).map .event ++ [.inputFree buffer] } := by
  obtain ⟨hmode, hlive⟩ := h
  let kept := { session with submitted := session.submitted.push ⟨buffer, data, pts, flags⟩ }
  refine ⟨(kept.complete pts).2.session, session.nextOutput,
    if session.formatReported then [] else [.formatChanged], ⟨hmode, hlive⟩, ?_, ?_, ?_⟩
  · simp [complete, kept]
  · cases session.formatReported <;> simp
  · cases hformat : session.formatReported <;>
      simp [submit, complete, kept, hlive, hmode, hflags, hformat]

theorem release (h : session.Looping) {buffer pts : Nat}
    (hpending : session.pending.lookup buffer = some pts) :
    ∃ later, later.Looping ∧
      session.release buffer true = { session := later, reports := [imageAt pts] } := by
  obtain ⟨hmode, hlive⟩ := h
  refine ⟨{ session with
    pending := session.pending.filter (·.1 ≠ buffer)
    released := session.released.push (buffer, true) }, ⟨hmode, hlive⟩, ?_⟩
  simp [SimulatedSession.release, hlive, hmode, hpending]

end Looping

end SimulatedSession

namespace Session

variable {session : Session SimulatedSession}

/-- Running in loopback, with nothing left to do. -/
structure Ready (session : Session SimulatedSession) : Prop where
  looping : session.engine.Looping
  running : session.state = .running
  idle : session.surface.Idle
  noEvents : session.events = []

/-- An input buffer is free, and none of them was dropped. -/
def HasInput (session : Session SimulatedSession) : Prop :=
  session.inputs ≠ [] ∧ session.inputs.length ≤ queueDepth

theorem hasInput_append {inputs : List Nat} (hroom : inputs.length < queueDepth) (buffer : Nat) :
    inputs ++ [buffer] ≠ [] ∧ (inputs ++ [buffer]).length ≤ queueDepth := by
  refine ⟨by simp, ?_⟩
  rw [List.length_append, List.length_singleton]
  omega

theorem hear_offered (hopen : session.surface.closed = false)
    (hroom : session.inputs.length < queueDepth) (buffer : Nat) :
    session.hear (.inputFree buffer) =
      pure (true, { session with inputs := session.inputs ++ [buffer] }) := by
  simp [hear, hopen, hroom]

private theorem hear_event (hopen : session.surface.closed = false)
    (hroom : session.events.length < queueDepth) {event : Event} (hfault : event ≠ .fault) :
    session.hear (.event event) =
      pure (true, { session with events := session.events ++ [event] }) := by
  cases event with
  | output buffer pts => simp [hear, hopen, take, push, hroom]
  | formatChanged => simp [hear, hopen, take, push, hroom]
  | fault => exact absurd rfl hfault

private theorem hearAll_of_heard {report : Callback} {later : Session SimulatedSession}
    {taken : Bool} (h : session.hear report = pure (taken, later)) (rest : List Callback) :
    (session.hearAll (report :: rest)).value.2 = (later.hearAll rest).value.2 ∧
      (session.hearAll (report :: rest)).notices = (later.hearAll rest).notices := by
  obtain ⟨hvalue, hnotices⟩ := session.hearAll_cons report rest
  rw [hvalue, hnotices, h]
  exact ⟨rfl, rfl⟩

/-- Events other than faults are kept, as long as there is room for them. -/
private theorem hearAll_events (hopen : session.surface.closed = false) {events : List Event}
    (hfaults : .fault ∉ events) (hroom : session.events.length + events.length ≤ queueDepth)
    (rest : List Callback) :
    let later : Session SimulatedSession := { session with events := session.events ++ events }
    (session.hearAll (events.map .event ++ rest)).value.2 = (later.hearAll rest).value.2 ∧
      (session.hearAll (events.map .event ++ rest)).notices = (later.hearAll rest).notices := by
  induction events generalizing session with
  | nil => simp
  | cons event events ih =>
    let later : Session SimulatedSession :=
      { session with events := session.events ++ [event] }
    have hevent : event ≠ .fault := by
      rintro rfl
      exact hfaults List.mem_cons_self
    rw [List.length_cons] at hroom
    obtain ⟨hvalue, hnotices⟩ := hearAll_of_heard (hear_event hopen (by omega) hevent)
      (events.map .event ++ rest)
    have hlater := ih (show later.surface.closed = false from hopen)
      (fun hmem => hfaults (List.mem_cons_of_mem _ hmem)) (by simp [later]; omega)
    simp only [later, List.append_assoc, List.singleton_append] at hlater
    rw [List.map_cons, List.cons_append, hvalue, hnotices]
    exact hlater

namespace Ready

theorem submit_configuration (h : session.Ready) (hroom : session.inputs.length < queueDepth)
    (buffer : Nat) (data : Bytes) (pts : Nat) {flags : BufferFlags}
    (hflags : flags.configuration = true) :
    ∃ engine, engine.Looping ∧
      session.submit (ε := SimulatedEngine) buffer data pts flags =
        ⟨(.ok (), { session with engine, inputs := session.inputs ++ [buffer] }),
          [.submit buffer data pts flags]⟩ := by
  obtain ⟨engine, hlooping, hreply⟩ := h.looping.submit_configuration buffer data pts hflags
  refine ⟨engine, hlooping, ?_⟩
  let replied : Session SimulatedSession := { session with engine }
  have hheard := hear_offered (show replied.surface.closed = false from h.idle.isOpen) hroom buffer
  rw [submit_eq]
  simp only [Engine.submit, hreply, hearAll_singleton]
  rw [hheard]
  rfl

/-- A picture that is submitted has its output wait among the events. -/
theorem submit_picture (h : session.Ready) (hroom : session.inputs.length < queueDepth)
    (buffer : Nat) (data : Bytes) (pts : Nat) {flags : BufferFlags}
    (hflags : flags.configuration = false) :
    ∃ (engine : SimulatedSession) (number : Nat) (first : List Event), engine.Looping ∧
      engine.pending.lookup number = some pts ∧ (first = [] ∨ first = [.formatChanged]) ∧
      session.submit (ε := SimulatedEngine) buffer data pts flags =
        ⟨(.ok (), { session with
            engine
            events := first ++ [.output number pts]
            inputs := session.inputs ++ [buffer] }),
          [.submit buffer data pts flags]⟩ := by
  obtain ⟨engine, number, first, hlooping, hpending, hfirst, hreply⟩ :=
    h.looping.submit_picture buffer data pts hflags
  refine ⟨engine, number, first, hlooping, hpending, hfirst, ?_⟩
  let events := first ++ [.output number pts]
  let replied : Session SimulatedSession := { session with engine }
  let told : Session SimulatedSession := { session with engine, events }
  have hfaults : .fault ∉ events := by
    rcases hfirst with rfl | rfl <;> simp [events]
  have hlength : replied.events.length + events.length ≤ queueDepth := by
    have hnone : replied.events = [] := h.noEvents
    rcases hfirst with rfl | rfl <;> simp [events, hnone, queueDepth]
  obtain ⟨hvalue, hnotices⟩ := hearAll_events (show replied.surface.closed = false from
    h.idle.isOpen) hfaults hlength [.inputFree buffer]
  have htold : ({ replied with events := replied.events ++ events } : Session _) = told := by
    simp [replied, told, h.noEvents]
  have hheard := hear_offered (show told.surface.closed = false from h.idle.isOpen) hroom buffer
  rw [htold, hearAll_singleton, hheard] at hvalue hnotices
  rw [submit_eq]
  apply Outcome.ext
  · simp only [Engine.submit, hreply]
    exact congrArg (Except.ok (), ·) hvalue
  · simp only [Engine.submit, hreply]
    exact congrArg (_ :: ·) hnotices

end Ready

/-- An output that is handled in loopback has its image wait on the surface. -/
private theorem handle_output_loopback (hlooping : session.engine.Looping)
    (hidle : session.surface.Idle)
    {number pts : Nat} (hpending : session.engine.pending.lookup number = some pts)
    (latency : Bool) :
    let reported := if latency then (session.surface.frames.get? pts).toList else []
    ∃ engine : SimulatedSession, engine.Looping ∧
      session.handle (ε := SimulatedEngine) latency (.output number pts) =
        ⟨(false, { session with
            engine
            surface := { session.surface with waiting := [SimulatedSession.imageAt pts] } }),
          reported.map .decoderOutput ++ [.release number true]⟩ := by
  obtain ⟨engine, hlater, hreply⟩ := hlooping.release hpending
  refine ⟨engine, hlater, ?_⟩
  let replied : Session SimulatedSession := { session with engine }
  have hheard := hear_image_of_idle (show replied.surface.Idle from hidle)
    (SimulatedSession.imageAt pts)
  have hrelease : session.release (ε := SimulatedEngine) number true =
      ⟨(.ok (), 0, { session with
          engine
          surface := { session.surface with waiting := [SimulatedSession.imageAt pts] } }),
        [.release number true]⟩ := by
    apply Outcome.ext
    · simp only [release, Engine.release, hreply, List.map_cons, List.map_nil, hearAll_singleton]
      rw [Outcome.value_bind, Outcome.value_bind, hheard]
      rfl
    · simp only [release, Engine.release, hreply, List.map_cons, List.map_nil, hearAll_singleton]
      rw [Outcome.notices_bind, Outcome.notices_bind, hheard]
      rfl
  rw [handle_output, hrelease]
  rfl

/-- A picture's output that is drained has its image published, if its slot holds a frame. -/
private theorem drain_picture (hlooping : session.engine.Looping) (hidle : session.surface.Idle)
    {number pts : Nat} {first : List Event} (hfirst : first = [] ∨ first = [.formatChanged])
    (hevents : session.events = first ++ [.output number pts])
    (hpending : session.engine.pending.lookup number = some pts) (latency : Bool) :
    let reported := if latency then (session.surface.frames.get? pts).toList else []
    ∃ engine : SimulatedSession, engine.Looping ∧
      session.drain (ε := SimulatedEngine) latency =
        ⟨({ session with engine, events := [] } : Session _).withFrames
            (session.surface.frames.take pts).2,
          reported.map .decoderOutput ++ .release number true ::
            (session.surface.published (SimulatedSession.imageAt pts)).map .image⟩ := by
  intro reported
  obtain ⟨engine, hlater, hhandle⟩ :=
    handle_output_loopback hlooping hidle hpending latency
  refine ⟨engine, hlater, ?_⟩
  let image := SimulatedSession.imageAt pts
  let handled : Session SimulatedSession :=
    { session with engine, events := [], surface := { session.surface with waiting := [image] } }
  have hlast : session.handleAll (ε := SimulatedEngine) latency [.output number pts] =
      ⟨handled, reported.map .decoderOutput ++ [.release number true]⟩ := by
    rw [handleAll, hhandle]
    exact Outcome.ext rfl (List.append_nil _)
  have hall : session.handleAll (ε := SimulatedEngine) latency session.events =
      ⟨handled, reported.map .decoderOutput ++ [.release number true]⟩ := by
    rcases hfirst with rfl | rfl
    · rw [hevents, List.nil_append, hlast]
    · rw [hevents, List.singleton_append, handleAll]
      exact hlast
  have hsettle := hidle.settle_waiting image
  rw [SimulatedSession.imageAt_pts] at hsettle
  rw [drain, hall]
  apply Outcome.ext
  · exact congrArg (fun done => { session with engine, events := [], surface := done.value })
      hsettle
  · have hsettled := congrArg Outcome.notices hsettle
    rw [Outcome.notices_bind, settle, Outcome.notices_bind]
    simp only [Outcome.notices_pure, List.append_nil]
    rw [show (Surface.settle _).notices = _ from hsettled, List.append_assoc]
    rfl

theorem Ready.drain (h : session.Ready) (latency : Bool) :
    session.drain (ε := SimulatedEngine) latency = pure session := by
  have hsame : { session with events := [] } = session := by rw [← h.noEvents]
  rw [Session.drain, h.noEvents, handleAll, hsame]
  exact settle_of_surface h.idle.settle

end Session

/-- The images of a frame, one if there is such a frame and none otherwise. -/
def imagesOfFrame (image : SurfaceImage) (frame : FrameIndex) : List DecodedImage :=
  (frame.named?.map (⟨image, ·⟩)).toList

namespace TrialPipeline

/-- A pipeline in loopback between two packets. -/
structure Ready (pipeline : TrialPipeline) : Prop where
  engine_eq : pipeline.engine = .loopback
  graphics : pipeline.links.graphics = true
  free : pipeline.busy = false
  current : ∀ session, pipeline.current = some session → session.Ready ∧ session.HasInput

theorem length_sessions (pipeline : TrialPipeline) :
    pipeline.sessions.length =
      pipeline.past.length + if pipeline.current.isSome then 1 else 0 := by
  cases hcurrent : pipeline.current <;> simp [Pipeline.sessions, hcurrent]

private theorem length_sessions_congr {before after : TrialPipeline}
    (hpast : after.past = before.past) (hsome : after.current.isSome = before.current.isSome) :
    after.sessions.length = before.sessions.length := by
  rw [length_sessions, length_sessions, hpast, hsome]

theorem drain_of_some {pipeline : TrialPipeline} {session : Session SimulatedSession}
    (h : pipeline.current = some session) :
    pipeline.drain =
      (let drained := session.drain (ε := SimulatedEngine) pipeline.links.latency
      ⟨{ pipeline with current := some drained.value }, drained.notices⟩) := by
  simp only [Pipeline.drain, h]
  exact Outcome.ext rfl (List.append_nil _)

theorem announcements_not_onScreen (pipeline : TrialPipeline) (buffer : Nat) (payload : Bytes)
    (frame : FrameIndex) :
    (pipeline.announcements buffer payload frame).filter Notice.onScreen = [] ∧
      (pipeline.announcements buffer payload frame).any Notice.isPicture = false := by
  unfold Pipeline.announcements
  constructor
  · split <;> split <;> rfl
  · split <;> split <;> rfl

/-- What is noticed of a payload once its buffer is filled, until all of it is drained: parameter
sets just go in, a picture comes back with the frame that was put into its slot. -/
inductive Played (latency : Bool) (buffer : Nat) (frame : FrameIndex) : Bool → List Notice → Prop
  where
  | configuration (data : Bytes) {flags : BufferFlags} (hflags : flags.configuration = true) :
      Played latency buffer frame true [.submit buffer data 0 flags]
  | picture (data : Bytes) (pts number : Nat) {flags : BufferFlags}
      (hflags : flags.configuration = false) :
      Played latency buffer frame false (.submit buffer data pts flags ::
        ((if latency then frame.named?.toList else []).map .decoderOutput ++ .release number true ::
          (imagesOfFrame (SimulatedSession.imageAt pts) frame).map .image))

section Playing

variable {pipeline : TrialPipeline} {session : Session SimulatedSession}

theorem capacity_eq (hsession : session.Ready) (buffer : Nat) :
    Engine.capacity SimulatedEngine session.engine buffer = .ok SimulatedSession.bufferSize := by
  simp [Engine.capacity, SimulatedSession.capacity, hsession.looping.live]

/-- A payload that goes into a session and is drained leaves the session ready, with the buffer free
again behind the others. -/
structure Plays (pipeline : TrialPipeline) (inputs : List Nat) (buffer now : Nat) (payload : Bytes)
    (frame : FrameIndex) (done : Outcome (Bool × TrialPipeline)) : Prop where
  accepted : done.value.1 = true
  later : ∃ (session : Session SimulatedSession) (clock : PtsClock),
    session.Ready ∧ session.inputs = inputs ++ [buffer] ∧
      done.value.2.drain.value = { pipeline with clock, current := some session }
  notices : ∃ played, Played pipeline.links.latency buffer frame
      (opensWithParameterSet pipeline.settings.codec payload) played ∧
    done.notices ++ done.value.2.drain.notices =
      pipeline.announcements buffer payload frame ++ played

private theorem plays_configuration (hsession : session.Ready)
    (hroom : session.inputs.length < Session.queueDepth) (buffer now : Nat) {payload : Bytes}
    (frame : FrameIndex)
    (hconf : opensWithParameterSet pipeline.settings.codec payload = true) :
    Plays pipeline session.inputs buffer now payload frame
      (pipeline.submit session buffer now payload frame) := by
  let data := payload.take SimulatedSession.bufferSize
  let flags : BufferFlags := { configuration := true }
  obtain ⟨engine, hlooping, hsubmit⟩ := hsession.submit_configuration hroom buffer data 0
    (show flags.configuration = true from rfl)
  let kept : Session SimulatedSession :=
    { session with engine, inputs := session.inputs ++ [buffer] }
  have hkept : kept.Ready := ⟨hlooping, hsession.running, hsession.idle, hsession.noEvents⟩
  let submitted : TrialPipeline := { pipeline with current := some kept }
  have hdrain : submitted.drain = pure submitted := by
    rw [drain_of_some (show submitted.current = some kept from rfl), hkept.drain]
    rfl
  have hdone : pipeline.submit session buffer now payload frame = ⟨(true, submitted),
      pipeline.announcements buffer payload frame ++ [.submit buffer data 0 flags]⟩ := by
    rw [Pipeline.submit_configuration (capacity_eq hsession buffer) hconf]
    exact congrArg (fun done : Outcome (Except DecoderError Unit × Session SimulatedSession) =>
      (⟨(done.value.1.isOk, { pipeline with current := some done.value.2 }),
        pipeline.announcements buffer payload frame ++ done.notices⟩ :
        Outcome (Bool × TrialPipeline))) hsubmit
  rw [hdone]
  refine ⟨rfl, ⟨kept, pipeline.clock, hkept, rfl, ?_⟩, [.submit buffer data 0 flags], ?_, ?_⟩
  · exact congrArg Outcome.value hdrain
  · rw [hconf]
    exact .configuration data rfl
  · rw [hdrain, Outcome.notices_pure, List.append_nil]

private theorem plays_picture (hsession : session.Ready)
    (hroom : session.inputs.length < Session.queueDepth) (buffer now : Nat) {payload : Bytes}
    (frame : FrameIndex)
    (hconf : opensWithParameterSet pipeline.settings.codec payload = false) :
    Plays pipeline session.inputs buffer now payload frame
      (pipeline.submit session buffer now payload frame) := by
  let data := payload.take SimulatedSession.bufferSize
  let pts := (pipeline.clock.next now).1
  let flags : BufferFlags :=
    { keyframe := hasKeyframeSlice pipeline.settings.codec payload }
  let named := session.withFrames (session.surface.frames.set pts frame)
  have hnamed : named.Ready :=
    ⟨hsession.looping, hsession.running, hsession.idle.withFrames _, hsession.noEvents⟩
  obtain ⟨engine, number, first, hlooping, hpending, hfirst, hsubmit⟩ :=
    hnamed.submit_picture hroom buffer data pts (show flags.configuration = false from rfl)
  let kept : Session SimulatedSession :=
    { named with
      engine
      events := first ++ [.output number pts]
      inputs := session.inputs ++ [buffer] }
  obtain ⟨engine', hlooping', hdrained⟩ := Session.drain_picture
    (show kept.engine.Looping from hlooping) hnamed.idle hfirst rfl hpending
    pipeline.links.latency
  let shown : Session SimulatedSession :=
    ({ kept with engine := engine', events := [] } : Session _).withFrames
      (kept.surface.frames.take pts).2
  have hshown : shown.Ready := ⟨hlooping', hnamed.running, hnamed.idle.withFrames _, rfl⟩
  -- Nothing comes between the submission and the drain, so that the slot still holds the frame.
  have hframe : kept.surface.frames.get? pts = frame.named? := by
    rw [show kept.surface.frames = session.surface.frames.set pts frame from rfl,
      FrameMap.get?_set, if_pos rfl]
  have himages : kept.surface.published (SimulatedSession.imageAt pts) =
      imagesOfFrame (SimulatedSession.imageAt pts) frame := by
    rw [Surface.published, SimulatedSession.imageAt_pts, hframe]
    rfl
  rw [hframe, himages] at hdrained
  let submitted : TrialPipeline :=
    { pipeline with clock := (pipeline.clock.next now).2, current := some kept }
  have hdone : pipeline.submit session buffer now payload frame = ⟨(true, submitted),
      pipeline.announcements buffer payload frame ++ [.submit buffer data pts flags]⟩ := by
    rw [Pipeline.submit_picture (capacity_eq hsession buffer) hconf]
    exact congrArg (fun done : Outcome (Except DecoderError Unit × Session SimulatedSession) =>
      (⟨(done.value.1.isOk,
          { pipeline with clock := (pipeline.clock.next now).2, current := some done.value.2 }),
        pipeline.announcements buffer payload frame ++ done.notices⟩ :
        Outcome (Bool × TrialPipeline))) hsubmit
  let back : List Notice :=
    (if pipeline.links.latency then frame.named?.toList else []).map .decoderOutput ++
      .release number true :: (imagesOfFrame (SimulatedSession.imageAt pts) frame).map .image
  have hdrain : submitted.drain = ⟨{ submitted with current := some shown }, back⟩ := by
    rw [drain_of_some (show submitted.current = some kept from rfl)]
    exact congrArg (fun done : Outcome (Session SimulatedSession) =>
      (⟨{ submitted with current := some done.value }, done.notices⟩ : Outcome TrialPipeline))
      hdrained
  have hplayed : Played pipeline.links.latency buffer frame false
      (.submit buffer data pts flags :: back) :=
    .picture data pts number rfl
  rw [hdone]
  refine ⟨rfl, ⟨shown, (pipeline.clock.next now).2, hshown, rfl, ?_⟩, _, hconf ▸ hplayed, ?_⟩
  · exact congrArg Outcome.value hdrain
  · rw [hdrain, List.append_assoc]
    rfl

/-- A payload that is delivered to a ready session with a free buffer is taken and played. -/
theorem plays_of_ready (hcurrent : pipeline.current = some session) (hsession : session.Ready)
    {buffer : Nat} {inputs : List Nat} (hinputs : session.inputs = buffer :: inputs)
    (hroom : session.inputs.length ≤ Session.queueDepth) (now : Nat) (payload : Bytes)
    (frame : FrameIndex) :
    Plays pipeline inputs buffer now payload frame (pipeline.deliver now payload frame) := by
  let fed : Session SimulatedSession := { session with inputs }
  have hfed : fed.Ready := ⟨hsession.looping, hsession.running, hsession.idle, hsession.noEvents⟩
  have hroom' : fed.inputs.length < Session.queueDepth := by
    rw [hinputs, List.length_cons] at hroom
    exact hroom
  rw [Pipeline.deliver_of_room hcurrent hsession.running hinputs]
  cases hconf : opensWithParameterSet pipeline.settings.codec payload with
  | true => exact plays_configuration hfed hroom' buffer now frame hconf
  | false => exact plays_picture hfed hroom' buffer now frame hconf

end Playing

namespace Ready

variable {pipeline : TrialPipeline} {session : Session SimulatedSession}

theorem withCurrent (h : pipeline.Ready) (hsession : session.Ready) (hinput : session.HasInput)
    (clock : PtsClock) (idle : SessionState) (past : List (Session SimulatedSession)) :
    Ready { pipeline with clock, idle, past, current := some session } where
  engine_eq := h.engine_eq
  graphics := h.graphics
  free := h.free
  current later hlater := by
    cases hlater
    exact ⟨hsession, hinput⟩

theorem retire (h : pipeline.Ready) :
    Ready pipeline.retire ∧ pipeline.retire.past.length = pipeline.sessions.length := by
  cases hcurrent : pipeline.current with
  | none =>
    rw [Pipeline.retire_of_none hcurrent, length_sessions, hcurrent]
    exact ⟨h, rfl⟩
  | some session =>
    rw [Pipeline.retire_of_some hcurrent, length_sessions, hcurrent]
    refine ⟨⟨h.engine_eq, h.graphics, h.free, fun later hlater => ?_⟩, List.length_append⟩
    exact nomatch hlater

theorem state_eq (h : pipeline.Ready) (hcurrent : pipeline.current.isSome = true) :
    pipeline.state = .running := by
  obtain ⟨session, hsession⟩ := Option.isSome_iff_exists.mp hcurrent
  rw [Pipeline.state, hsession]
  exact (h.current session hsession).1.running

theorem opened (h : pipeline.Ready) (csd : Bytes) :
    (pipeline.opened csd).Ready ∧ (pipeline.opened csd).HasInput := by
  have hidle := Surface.idle_of_frames (.empty pipeline.settings.frameIndexCapacity)
  unfold TrialPipeline.opened
  rw [h.engine_eq, h.free]
  have hinputs : (List.range 4).take Session.queueDepth ≠ [] ∧
      ((List.range 4).take Session.queueDepth).length ≤ Session.queueDepth := by decide
  exact ⟨⟨⟨rfl, rfl⟩, rfl, hidle, rfl⟩, hinputs⟩

/-- A session is opened if the parameter sets ask for one, and then the video is shown. -/
theorem prepare (h : pipeline.Ready) (csd : Bytes) :
    let prepared := pipeline.prepare csd
    Ready prepared.value.2 ∧
      prepared.value.2.sessions.length =
        pipeline.sessions.length + (if pipeline.needsSession csd then 1 else 0) ∧
      (pipeline.needsSession csd = true → prepared.value.2.current.isSome = true) ∧
      prepared.notices = if pipeline.needsSession csd then [.renderMode .video] else [] := by
  cases hneeds : pipeline.needsSession csd with
  | false => simpa [Pipeline.prepare, hneeds] using h
  | true =>
    obtain ⟨hretired, hlength⟩ := h.retire
    have hfail : pipeline.retire.engine.failNext = false := by
      rw [hretired.engine_eq]
      rfl
    obtain ⟨dropped, hopen⟩ := openSession_of_graphics hretired.graphics hfail csd
    obtain ⟨hsession, hinput⟩ := hretired.opened csd
    simp only [Pipeline.prepare, hneeds, if_true, hopen]
    refine ⟨hretired.withCurrent hsession hinput _ _ _, ?_, fun _ => rfl, trivial⟩
    rw [length_sessions]
    exact congrArg (· + 1) hlength

theorem drain (h : pipeline.Ready) : pipeline.drain = pure pipeline := by
  cases hcurrent : pipeline.current with
  | none => simp only [Pipeline.drain, hcurrent]
  | some session =>
    have hsame : { pipeline with current := some session } = pipeline := by rw [← hcurrent]
    rw [drain_of_some hcurrent, (h.current session hcurrent).1.drain]
    exact congrArg (fun later => (pure later : Outcome TrialPipeline)) hsame

/-- A packet that is delivered and drained changes the screen only if it is a picture of a frame. -/
private theorem deliver_drain (h : pipeline.Ready) (now : Nat) (payload : Bytes)
    (frame : FrameIndex) :
    let delivered := pipeline.deliver now payload frame
    let drained := delivered.value.2.drain
    let notices := delivered.notices ++ drained.notices
    Ready drained.value ∧ drained.value.past = pipeline.past ∧
      drained.value.current.isSome = pipeline.current.isSome ∧
      ∃ image, notices.filter Notice.onScreen =
        if delivered.value.1 && notices.any Notice.isPicture then
          (imagesOfFrame image frame).map .image
        else [] := by
  intro delivered drained notices
  cases hcurrent : pipeline.current with
  | none =>
    have hdrop : delivered = pure (false, pipeline) :=
      Pipeline.deliver_of_no_room (by simp [Pipeline.hasRoom, hcurrent]) now payload frame
    simp only [notices, drained, hdrop, Outcome.value_pure, Outcome.notices_pure, h.drain]
    exact ⟨h, trivial, by rw [hcurrent], SimulatedSession.imageAt 0, rfl⟩
  | some session =>
    obtain ⟨hsession, hinput, hroom⟩ := h.current session hcurrent
    obtain ⟨buffer, inputs, hinputs⟩ := List.exists_cons_of_ne_nil hinput
    obtain ⟨haccepted, ⟨later, clock, hlater, hkept, hvalue⟩, played, hplayed, hnotices⟩ :=
      plays_of_ready hcurrent hsession hinputs hroom now payload frame
    have hfree : later.HasInput := by
      rw [hinputs, List.length_cons] at hroom
      rw [Session.HasInput, hkept]
      exact Session.hasInput_append hroom buffer
    obtain ⟨hscreen, hpicture⟩ := announcements_not_onScreen pipeline buffer payload frame
    simp only [notices, drained, delivered, haccepted, hnotices, hvalue]
    refine ⟨h.withCurrent hlater hfree _ _ _, trivial, rfl, ?_⟩
    rw [List.filter_append, hscreen, List.any_append, hpicture]
    generalize opensWithParameterSet pipeline.settings.codec payload = configuration at hplayed
    cases hplayed with
    | configuration data hflags =>
      exact ⟨SimulatedSession.imageAt 0, by simp [hflags, Notice.isPicture, Notice.onScreen]⟩
    | picture data pts number hflags =>
      exact ⟨SimulatedSession.imageAt pts, by simp [hflags, Notice.isPicture, Notice.onScreen]⟩

/-- A packet that is queued and drained changes the screen by the session that was opened for it, if
one was, and then by the image of its frame, if it went into the session as a picture. -/
theorem queue_drain (h : pipeline.Ready) (now : Nat) (packet : Bytes) (frame : FrameIndex) :
    let queued := pipeline.queue now packet frame
    let drained := queued.value.2.drain
    let notices := queued.notices ++ drained.notices
    Ready drained.value ∧
      (pipeline.sessions.length < drained.value.sessions.length →
        drained.value.state = .running) ∧
      ∃ image, notices.filter Notice.onScreen =
        (if pipeline.sessions.length < drained.value.sessions.length then
          [.renderMode .video] else []) ++
        (if queued.value.1 && notices.any Notice.isPicture then
          (imagesOfFrame image frame).map .image else []) := by
  let csd := configurationPrefix pipeline.settings.codec packet
  let prepared := pipeline.prepare csd
  let now' := Pipeline.delayed now prepared.value.1
  let payload := Pipeline.payload csd packet
  obtain ⟨hready, hlength, hopened, hnotices⟩ := h.prepare csd
  obtain ⟨hdrained, hpast, hsome, image, hscreen⟩ := hready.deliver_drain now' payload frame
  let delivered := prepared.value.2.deliver now' payload frame
  have hqueue : pipeline.queue now packet frame =
      ⟨delivered.value, prepared.notices ++ delivered.notices⟩ :=
    Pipeline.queue_eq pipeline now packet frame
  have hstarted : pipeline.sessions.length < delivered.value.2.drain.value.sessions.length ↔
      pipeline.needsSession csd = true := by
    rw [length_sessions_congr hpast hsome, hlength]
    cases pipeline.needsSession csd <;> simp
  have hpicture : prepared.notices.any Notice.isPicture = false := by
    rw [show prepared.notices = _ from hnotices]
    cases pipeline.needsSession csd <;> rfl
  simp only [hqueue]
  refine ⟨hdrained, ?_, image, ?_⟩
  · intro hmore
    exact hdrained.state_eq (hsome.trans (hopened (hstarted.mp hmore)))
  · rw [List.append_assoc, List.filter_append, List.any_append, hpicture, Bool.false_or]
    simp only [hstarted]
    rw [show List.filter _ (delivered.notices ++ _) = _ from hscreen,
      show prepared.notices = _ from hnotices]
    cases pipeline.needsSession csd <;> rfl

end Ready

end TrialPipeline

end HeadsetStream.Decoder
