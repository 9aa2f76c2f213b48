import HeadsetStream.Proofs.SessionOpening

/-!
# Decoding by hand

A pipeline whose engine is operated by hand goes through any sequence of operations: packets come
in, someone has the sessions report what they like, and events are handled one at a time. The
history of such a run lists what can be seen of it from outside: submissions, images that were
presented with what was published for them, and events that were handled with what was reported for
them. Sessions are numbered in the order in which they were opened.
-/

namespace HeadsetStream.Decoder
open Video Settings

/-- What someone who operates a session by hand has it report. -/
inductive Prompt where
  | offer (buffer : Nat)
  | complete (pts : Nat)
  | present (pts : Nat)
  | fault
  deriving DecidableEq, Repr

/-- The image that is presented for a timestamp: its nanoseconds are cut to 64 bits. -/
def SimulatedSession.imageByHand (pts : Nat) : SurfaceImage :=
  { imageAt pts with timestampNs := pts * 1000 % 0x10000000000000000 }

/-- The image has the timestamp that it is presented for, if the nanoseconds fit. -/
theorem SimulatedSession.imageByHand_pts {pts : Nat} (h : pts * 1000 < 0x10000000000000000) :
    (imageByHand pts).pts = pts := by
  rw [imageByHand, Nat.mod_eq_of_lt h]
  exact imageAt_pts pts

def SimulatedSession.prompt (session : SimulatedSession) :
    Prompt → Reply SimulatedSession Callback
  | .offer buffer => { session, reports := [.inputFree buffer] }
  | .complete pts => (session.complete pts).2
  | .present pts => { session, reports := [.image (imageByHand pts)] }
  | .fault => { session, reports := [.event .fault] }

/-- Has a session report, and says how many of its reports were dropped. -/
def Session.prompt (session : Session SimulatedSession) (prompt : Prompt) :
    Outcome (Nat × Session SimulatedSession) :=
  let reply := session.engine.prompt prompt
  { session with engine := reply.session }.hearAll reply.reports

def Session.prompted (session : Session SimulatedSession) (prompt : Prompt) :
    Outcome (Session SimulatedSession) := do
  (← session.prompt prompt).2.settle

def Session.handleNext {ε σ : Type} [Engine ε σ] (latency : Bool) (session : Session σ) :
    Outcome (Session σ) :=
  match session.events with
  | [] => return session
  | event :: rest => do
    let (_, session) ← session.handle (ε := ε) latency event
    ({ session with events := rest } : Session σ).settle

/-- One thing that happens to a pipeline from outside. -/
inductive Operation where
  | queue (now : Nat) (packet : Bytes) (frame : FrameIndex)
  | prompt (session : Nat) (prompt : Prompt)
  /-- The oldest event of the current session is handled. -/
  | handle
  /-- The next session will fail to open. -/
  | failNext
  | stop
  deriving DecidableEq, Repr

namespace TrialPipeline

def manual (settings : DecoderSettings) (links : Links) (inputBuffers : Nat) : TrialPipeline :=
  { settings, links, engine := { mode := .manual, inputBuffers } }

def perform (pipeline : TrialPipeline) : Operation → Outcome TrialPipeline
  | .queue now packet frame => do return (← pipeline.queue now packet frame).2
  | .prompt session prompt => do return (← pipeline.withSession session (·.prompt prompt)).2
  | .handle =>
    match pipeline.current with
    | none => return pipeline
    | some session => do
      return { pipeline with
        current := some (← session.handleNext (ε := SimulatedEngine) pipeline.links.latency) }
  | .failNext => return { pipeline with engine := { pipeline.engine with failNext := true } }
  | .stop => return pipeline.stop

end TrialPipeline

/-- What can be seen of a run. -/
inductive Occurrence where
  /-- A picture went into the session's engine. -/
  | submitted (session pts : Nat) (frame : FrameIndex)
  /-- The session presented an image, and these images were published. -/
  | presented (session : Nat) (image : SurfaceImage) (images : List DecodedImage)
  /-- An output event of the session was handled, and these frames were reported. -/
  | handled (session pts : Nat) (frames : List FrameIndex)
  | ended (session : Nat)
  deriving DecidableEq, Repr

def Occurrence.images : Occurrence → List DecodedImage
  | .presented _ _ images => images
  | .submitted .. | .handled .. | .ended _ => []

/-- The frames that were reported as decoded, oldest first. -/
def reportsOf (notices : List Notice) : List FrameIndex :=
  notices.filterMap fun
    | .decoderOutput frame => some frame
    | _ => none

@[simp] theorem reportsOf_append (first rest : List Notice) :
    reportsOf (first ++ rest) = reportsOf first ++ reportsOf rest :=
  List.filterMap_append ..

@[simp] theorem reportsOf_map (frames : List FrameIndex) :
    reportsOf (frames.map .decoderOutput) = frames := by
  induction frames with
  | nil => rfl
  | cons frame rest ih => exact congrArg (frame :: ·) ih

@[simp] theorem imagesOf_reports (frames : List FrameIndex) :
    imagesOf (frames.map .decoderOutput) = [] := by
  induction frames with
  | nil => rfl
  | cons frame rest ih => exact ih

/-- The pictures among the buffers that were submitted, as pictures of one session and frame. -/
def submissionsOf (session : Nat) (frame : FrameIndex) (notices : List Notice) : List Occurrence :=
  notices.filterMap fun
    | .submit _ _ pts flags =>
      if flags.configuration then none else some (.submitted session pts frame)
    | _ => none

/-- What is seen of a session that is prompted when these images are published. -/
def Prompt.seen (session : Nat) (images : List DecodedImage) : Prompt → List Occurrence
  | .present pts => [.presented session (SimulatedSession.imageByHand pts) images]
  | _ => []

theorem Prompt.seen_of_not_present {prompt : Prompt} (h : ∀ pts, prompt ≠ .present pts)
    (session : Nat) (images : List DecodedImage) : prompt.seen session images = [] := by
  cases prompt with
  | present pts => exact absurd rfl (h pts)
  | offer buffer => rfl
  | complete pts => rfl
  | fault => rfl

theorem Prompt.images_seen_nil (prompt : Prompt) (session : Nat) :
    (prompt.seen session []).flatMap Occurrence.images = [] := by
  cases prompt <;> rfl

namespace TrialPipeline

/-- The sessions that ended between two states of a pipeline. -/
def endings (before after : TrialPipeline) : List Occurrence :=
  (List.range' before.past.length (after.past.length - before.past.length)).map .ended

/-- What is seen of one operation. -/
def occurrences (pipeline : TrialPipeline) (operation : Operation) : List Occurrence :=
  let done := pipeline.perform operation
  endings pipeline done.value ++
    match operation with
    | .queue _ _ frame => submissionsOf done.value.past.length frame done.notices
    | .prompt session prompt => prompt.seen session (imagesOf done.notices)
    | .handle =>
      match pipeline.current.bind (·.events.head?) with
      | some (.output _ pts) => [.handled pipeline.past.length pts (reportsOf done.notices)]
      | _ => []
    | _ => []

def run (pipeline : TrialPipeline) (operations : List Operation) : Outcome TrialPipeline :=
  operations.foldlM perform pipeline

def history (pipeline : TrialPipeline) : List Operation → List Occurrence
  | [] => []
  | operation :: rest =>
    pipeline.occurrences operation ++ history (pipeline.perform operation).value rest

variable {pipeline : TrialPipeline} {session : Session SimulatedSession} {number : Nat}

@[simp] theorem endings_of_length_eq {before after : TrialPipeline}
    (h : after.past.length = before.past.length) : endings before after = [] := by
  simp [endings, h]

theorem occurrences_prompt {prompt : Prompt}
    (hlength : (pipeline.perform (.prompt number prompt)).value.past.length =
      pipeline.past.length) :
    pipeline.occurrences (.prompt number prompt) =
      prompt.seen number (imagesOf (pipeline.perform (.prompt number prompt)).notices) := by
  simp only [occurrences, endings_of_length_eq hlength, List.nil_append]

theorem perform_prompt_past (h : pipeline.past[number]? = some session) (prompt : Prompt) :
    pipeline.perform (.prompt number prompt) =
      session.prompted prompt >>= fun session' =>
        pure { pipeline with past := pipeline.past.set number session' } := by
  apply Outcome.ext
  · simp only [perform, Pipeline.withSession, h]
    rfl
  · simp [perform, Pipeline.withSession, h, Session.prompted]

theorem perform_prompt_current (hcurrent : pipeline.current = some session) (prompt : Prompt) :
    pipeline.perform (.prompt pipeline.past.length prompt) =
      session.prompted prompt >>= fun session' =>
        pure { pipeline with current := some session' } := by
  have hpast : pipeline.past[pipeline.past.length]? = none := by simp
  apply Outcome.ext
  · simp only [perform, Pipeline.withSession, hpast, hcurrent, if_true]
    rfl
  · simp [perform, Pipeline.withSession, hcurrent, Session.prompted]

theorem perform_prompt_none (hpast : pipeline.past[number]? = none)
    (hother : ∀ session, pipeline.current = some session → number ≠ pipeline.past.length)
    (prompt : Prompt) : pipeline.perform (.prompt number prompt) = pure pipeline := by
  cases hcurrent : pipeline.current with
  | none =>
    simp only [perform, Pipeline.withSession, hpast, hcurrent]
    rfl
  | some session =>
    simp only [perform, Pipeline.withSession, hpast, hcurrent, hother session hcurrent, if_false]
    rfl

end TrialPipeline

namespace SimulatedSession

@[simp] theorem prompt_mode (session : SimulatedSession) (prompt : Prompt) :
    (session.prompt prompt).session.mode = session.mode := by
  cases prompt <;> rfl

private theorem complete_isImage (session : SimulatedSession) (pts : Nat) :
    ∀ report ∈ (session.complete pts).2.reports, report.isImage = false := by
  intro report hreport
  by_cases hformat : session.formatReported
  · simp only [complete, hformat, if_true, List.mem_singleton] at hreport
    subst hreport
    rfl
  · simp only [complete, hformat, Bool.false_eq_true, if_false, List.mem_cons,
      List.not_mem_nil, or_false] at hreport
    rcases hreport with rfl | rfl <;> rfl

theorem submit_byHand {session : SimulatedSession} (h : session.mode = .manual) (buffer : Nat)
    (data : Bytes) (pts : Nat) (flags : BufferFlags) :
    (session.submit buffer data pts flags).reports = [] ∧
      (session.submit buffer data pts flags).session.mode = .manual := by
  unfold submit
  split
  · exact ⟨rfl, h⟩
  · simp [h]

theorem release_byHand {session : SimulatedSession} (h : session.mode = .manual) (buffer : Nat)
    (render : Bool) :
    (session.release buffer render).reports = [] ∧
      (session.release buffer render).session.mode = .manual := by
  unfold release
  split
  · exact ⟨rfl, h⟩
  · split
    · exact ⟨rfl, h⟩
    · simp [h]

theorem capacity_cases (session : SimulatedSession) :
    session.capacity = .error .sessionStopped ∨ session.capacity = .ok bufferSize := by
  unfold capacity
  split <;> simp

end SimulatedSession

namespace Session

variable {session : Session SimulatedSession}

/-- By hand, submitting a buffer gives one notice and changes the engine's part only. -/
theorem submit_byHand (hbyHand : session.engine.mode = .manual) (buffer : Nat) (data : Bytes)
    (pts : Nat) (flags : BufferFlags) :
    let done := session.submit (ε := SimulatedEngine) buffer data pts flags
    done.notices = [.submit buffer data pts flags] ∧
      done.value.2.surface = session.surface ∧ done.value.2.engine.mode = .manual := by
  obtain ⟨hreports, hmode⟩ := SimulatedSession.submit_byHand hbyHand buffer data pts flags
  rw [Session.submit_eq]
  simp only [Engine.submit, hreports]
  exact ⟨rfl, rfl, hmode⟩

theorem release_byHand (hbyHand : session.engine.mode = .manual) (buffer : Nat) :
    let reply := session.engine.release buffer true
    reply.session.mode = .manual ∧
      session.release (ε := SimulatedEngine) buffer true =
        ⟨(reply.result, 0, { session with engine := reply.session }), [.release buffer true]⟩ := by
  obtain ⟨hreports, hmode⟩ := SimulatedSession.release_byHand hbyHand buffer true
  refine ⟨hmode, ?_⟩
  apply Outcome.ext
  · simp only [release, Engine.release, Outcome.value_bind, hreports]
    rfl
  · simp only [release, Engine.release, Outcome.notices_bind, hreports]
    rfl

/-- By hand, handling an event changes the engine's part only, drops no image, and reports the frame
in the slot of an output. -/
theorem handle_byHand (hbyHand : session.engine.mode = .manual) (latency : Bool) (event : Event) :
    ∃ engine notices, engine.mode = .manual ∧ imagesOf notices = [] ∧
      (∀ buffer pts, event = .output buffer pts →
        reportsOf notices = if latency then (session.surface.frames.get? pts).toList else []) ∧
      ∀ events, { session with events }.handle (ε := SimulatedEngine) latency event =
        ⟨(false, { session with engine, events }), notices⟩ := by
  cases event with
  | formatChanged => exact ⟨session.engine, [], hbyHand, rfl, by simp, fun _ => rfl⟩
  | fault => exact ⟨session.engine, [], hbyHand, rfl, by simp, fun _ => rfl⟩
  | output buffer pts =>
    let reported := if latency then (session.surface.frames.get? pts).toList else []
    have hmode := (release_byHand hbyHand buffer).1
    refine ⟨(session.engine.release buffer true).session,
      reported.map .decoderOutput ++ [.release buffer true], hmode, ?_, ?_, ?_⟩
    · rw [imagesOf_append, imagesOf_reports]
      rfl
    · rintro buffer' pts' ⟨⟩
      have hquiet : reportsOf [.release buffer true] = [] := rfl
      rw [reportsOf_append, reportsOf_map, hquiet, List.append_nil]
    · intro events
      let later : Session SimulatedSession := { session with events }
      have hrelease : later.release (ε := SimulatedEngine) buffer true = _ :=
        (release_byHand (show later.engine.mode = .manual from hbyHand) buffer).2
      rw [handle_output, hrelease]
      rfl

private theorem handleNext_of_cons {event : Event} {rest : List Event} {engine : SimulatedSession}
    {notices : List Notice} {latency : Bool} (hidle : session.surface.Idle)
    (hevents : session.events = event :: rest)
    (hhandle : session.handle (ε := SimulatedEngine) latency event =
      ⟨(false, { session with engine }), notices⟩) :
    session.handleNext (ε := SimulatedEngine) latency =
      ⟨{ session with engine, events := rest }, notices⟩ := by
  let later : Session SimulatedSession := { session with engine, events := rest }
  have hsettle : later.settle = pure later := settle_of_surface hidle.settle
  apply Outcome.ext
  · simp only [handleNext, hevents, Outcome.value_bind, hhandle]
    exact congrArg Outcome.value hsettle
  · simp only [handleNext, hevents, Outcome.notices_bind, hhandle]
    exact (congrArg (notices ++ ·) (congrArg Outcome.notices hsettle)).trans (List.append_nil _)

theorem handleAll_of_cons {event : Event} {engine : SimulatedSession} {notices : List Notice}
    {latency : Bool}
    (hhandle : session.handle (ε := SimulatedEngine) latency event =
      ⟨(false, { session with engine }), notices⟩) (rest : List Event) :
    session.handleAll (ε := SimulatedEngine) latency (event :: rest) =
      ⟨({ session with engine }.handleAll (ε := SimulatedEngine) latency rest).value,
        notices ++
          ({ session with engine }.handleAll (ε := SimulatedEngine) latency rest).notices⟩ := by
  rw [handleAll, hhandle]
  rfl

/-- By hand, the events that are handled count, not those that the session still has. -/
private theorem handleAll_withEvents (hbyHand : session.engine.mode = .manual) (latency : Bool)
    (kept events : List Event) :
    { session with events := kept }.handleAll (ε := SimulatedEngine) latency events =
      session.handleAll (ε := SimulatedEngine) latency events := by
  induction events generalizing session with
  | nil => rfl
  | cons event rest ih =>
    obtain ⟨engine, notices, hmode, -, -, hhandle⟩ := handle_byHand hbyHand latency event
    let later : Session SimulatedSession := { session with engine }
    have hrest := ih (show later.engine.mode = .manual from hmode)
    rw [handleAll_of_cons (hhandle kept), handleAll_of_cons (hhandle session.events), hrest]

private theorem drain_of_cons {event : Event} {rest : List Event} {engine : SimulatedSession}
    {notices : List Notice} {latency : Bool} (hmode : engine.mode = .manual)
    (hevents : session.events = event :: rest)
    (hhandle : session.handle (ε := SimulatedEngine) latency event =
      ⟨(false, { session with engine }), notices⟩) :
    session.drain (ε := SimulatedEngine) latency =
      (let later := { session with engine, events := rest }.drain (ε := SimulatedEngine) latency
      ⟨later.value, notices ++ later.notices⟩) := by
  let handled : Session SimulatedSession := { session with engine }
  have hkept := handleAll_withEvents (show handled.engine.mode = .manual from hmode) latency
    rest rest
  rw [drain, hevents, handleAll_of_cons hhandle, ← hkept]
  exact Outcome.ext rfl (List.append_assoc ..)

theorem prompted_eq {prompt : Prompt} (h : (session.prompt prompt).value.2.surface.settle =
      pure (session.prompt prompt).value.2.surface) :
    session.prompted prompt =
      ⟨(session.prompt prompt).value.2, (session.prompt prompt).notices⟩ := by
  apply Outcome.ext
  · rw [prompted, Outcome.value_bind, settle_of_surface h]
    rfl
  · rw [prompted, Outcome.notices_bind, settle_of_surface h]
    exact List.append_nil _

theorem prompted_of_shut (h : session.surface.Shut) (prompt : Prompt) :
    (session.prompted prompt).notices = [] ∧
      (session.prompted prompt).value.surface = session.surface := by
  let reply := session.engine.prompt prompt
  let replied : Session SimulatedSession := { session with engine := reply.session }
  have hshut : replied.surface.Shut := h
  obtain ⟨hnotices, hsurface⟩ := hearAll_of_shut hshut reply.reports
  have hsettle : (session.prompt prompt).value.2.surface = session.surface := hsurface
  rw [prompted_eq (by rw [hsettle, h.settle])]
  exact ⟨hnotices, hsettle⟩

/-- A prompt that is not of an image leaves the surface alone. -/
theorem prompted_of_not_present (h : session.surface.Idle) {prompt : Prompt}
    (hprompt : ∀ pts, prompt ≠ .present pts) :
    (session.prompted prompt).notices = [] ∧
      (session.prompted prompt).value.surface = session.surface ∧
      (session.prompted prompt).value.engine = (session.engine.prompt prompt).session := by
  have hreports : ∀ report ∈ (session.engine.prompt prompt).reports, report.isImage = false := by
    cases prompt with
    | offer buffer => simp [SimulatedSession.prompt, Callback.isImage]
    | complete pts => exact session.engine.complete_isImage pts
    | present pts => exact absurd rfl (hprompt pts)
    | fault => simp [SimulatedSession.prompt, Callback.isImage]
  obtain ⟨hnotices, hsurface, hengine⟩ := hearAll_of_not_images hreports
    { session with engine := (session.engine.prompt prompt).session }
  have hsettle : (session.prompt prompt).value.2.surface = session.surface := hsurface
  rw [prompted_eq (by rw [hsettle, h.settle])]
  exact ⟨hnotices, hsettle, hengine⟩

/-- An image that is presented on an idle surface is published if its slot holds a frame. -/
theorem prompted_present (h : session.surface.Idle) (pts : Nat) :
    let image := SimulatedSession.imageByHand pts
    session.prompted (.present pts) =
      ⟨session.withFrames (session.surface.frames.take image.pts).2,
        (session.surface.published image).map .image⟩ := by
  intro image
  have hheard : session.prompt (.present pts) =
      pure (0, { session with surface := { session.surface with waiting := [image] } }) := by
    show session.hearAll [.image image] = _
    rw [hearAll_singleton, hear_image_of_idle h image]
    rfl
  have hsettle := h.settle_waiting image
  rw [prompted, hheard]
  apply Outcome.ext
  · exact congrArg (fun done => { session with surface := done.value }) hsettle
  · exact (List.append_nil _).trans (congrArg Outcome.notices hsettle)

end Session

namespace TrialPipeline

variable {pipeline : TrialPipeline} {session : Session SimulatedSession}

theorem run_cons (pipeline : TrialPipeline) (operation : Operation) (rest : List Operation) :
    pipeline.run (operation :: rest) =
      pipeline.perform operation >>= fun later => later.run rest :=
  List.foldlM_cons

theorem perform_handle {event : Event} {rest : List Event} {engine : SimulatedSession}
    {notices : List Notice} (hcurrent : pipeline.current = some session)
    (hidle : session.surface.Idle) (hevents : session.events = event :: rest)
    (hhandle : session.handle (ε := SimulatedEngine) pipeline.links.latency event =
      ⟨(false, { session with engine }), notices⟩) :
    pipeline.perform .handle =
      ⟨{ pipeline with current := some { session with engine, events := rest } }, notices⟩ := by
  simp only [perform, hcurrent, Session.handleNext_of_cons hidle hevents hhandle]
  exact Outcome.ext rfl (List.append_nil _)

/-- Draining a pipeline by hand handles the events that are there, one after the other. -/
theorem drain_eq_run (hcurrent : pipeline.current = some session)
    (hbyHand : session.engine.mode = .manual) (hidle : session.surface.Idle) :
    pipeline.drain = pipeline.run (List.replicate session.events.length .handle) := by
  generalize hevents : session.events = events
  induction events generalizing pipeline session with
  | nil =>
    have hsettle : session.settle = pure session := Session.settle_of_surface hidle.settle
    have hsame : { session with events := [] } = session := by rw [← hevents]
    have hdrain : session.drain (ε := SimulatedEngine) pipeline.links.latency = pure session := by
      rw [Session.drain, hevents, Session.handleAll, hsame]
      exact hsettle
    rw [Pipeline.drain, hcurrent]
    simp only [hdrain]
    exact congrArg (fun current => (pure { pipeline with current } : Outcome TrialPipeline))
      hcurrent.symm
  | cons event rest ih =>
    obtain ⟨engine, notices, hmode, -, -, hhandle⟩ :=
      Session.handle_byHand hbyHand pipeline.links.latency event
    let later : Session SimulatedSession := { session with engine, events := rest }
    let handled : TrialPipeline := { pipeline with current := some later }
    have hperform : pipeline.perform .handle = ⟨handled, notices⟩ :=
      perform_handle hcurrent hidle hevents (hhandle session.events)
    have hrest : handled.drain = handled.run (List.replicate rest.length .handle) :=
      ih (show handled.current = some later from rfl) hmode hidle rfl
    have hdrain : pipeline.drain =
        ⟨handled.drain.value, notices ++ handled.drain.notices⟩ := by
      simp only [Pipeline.drain, hcurrent, handled,
        Session.drain_of_cons hmode hevents (hhandle session.events)]
      exact Outcome.ext rfl (List.append_assoc ..)
    rw [hdrain, hrest, List.length_cons, List.replicate_succ, run_cons, hperform]
    rfl

end TrialPipeline

end HeadsetStream.Decoder
