import HeadsetStream.Proofs.SessionLifeCycle

/-!
# Sessions do not mix

All sessions share the engine, the graphics device and the clock, and number their buffers alike.
Still each one shows only frames that went into it, and one that has been replaced has no effect on
the others, nor on the device, whatever it is made to report. This also holds if the device takes
its time, which may put the end of a session off.
-/

namespace HeadsetStream

namespace Outcome

variable {α β : Type}

/-- The results that are there already come out in reverse. -/
private theorem mapM_loop_eq (f : α → Outcome β) (list : List α) (done : List β) :
    List.mapM.loop f list done =
      ⟨done.reverse ++ list.map fun a => (f a).value, list.flatMap fun a => (f a).notices⟩ := by
  induction list generalizing done with
  | nil => exact Outcome.ext (List.append_nil _).symm rfl
  | cons a rest ih =>
    rw [List.mapM.loop]
    apply Outcome.ext
    · simp [ih]
    · simp [ih]

private theorem list_mapM_eq (f : α → Outcome β) (list : List α) :
    list.mapM f = ⟨list.map fun a => (f a).value, list.flatMap fun a => (f a).notices⟩ :=
  mapM_loop_eq f list []

theorem option_mapM_eq (f : α → Outcome β) (option : Option α) :
    option.mapM f =
      ⟨option.map fun a => (f a).value, option.toList.flatMap fun a => (f a).notices⟩ := by
  cases option with
  | none => rfl
  | some a => exact Outcome.ext rfl rfl

end Outcome

theorem frame_of_mem_imagesOf {owned : Video.FrameIndex → Prop} {notices : List Notice}
    (h : ∀ notice ∈ notices, notice.Keeps owned) {image : Video.DecodedImage}
    (himage : image ∈ imagesOf notices) : owned image.frame := by
  obtain ⟨notice, hmem, heq⟩ := List.mem_filterMap.mp himage
  cases notice with
  | image decoded =>
    obtain rfl : decoded = image := Option.some.inj heq
    exact h _ hmem decoded rfl
  | _ => exact nomatch heq

end HeadsetStream

namespace HeadsetStream.Decoder
open Video Bitstream Settings

/-- What happens to a pipeline, its graphics device included. -/
inductive Turn where
  | operation (operation : Operation)
  /-- All events of the current session are handled. -/
  | drain
  /-- The device takes its time from now on. -/
  | hold
  /-- The device is done. -/
  | resume
  deriving DecidableEq, Repr

namespace TrialPipeline

def turn (pipeline : TrialPipeline) : Turn → Outcome TrialPipeline
  | .operation operation => pipeline.perform operation
  | .drain => Pipeline.drain pipeline
  | .hold => return pipeline.hold
  | .resume => Pipeline.resume pipeline

def play (pipeline : TrialPipeline) (turns : List Turn) : Outcome TrialPipeline :=
  turns.foldlM turn pipeline

/-- The number of the session that a turn has to do with: the one that is prompted, or the one that
is current in the end. -/
def acting (pipeline : TrialPipeline) : Turn → Nat
  | .operation (.prompt session _) => session
  | .operation (.queue now packet frame) => (pipeline.queue now packet frame).value.2.past.length
  | _ => pipeline.past.length

/-- What a turn submits. -/
def submitted (pipeline : TrialPipeline) (turn : Turn) : List Occurrence :=
  match turn with
  | .operation (.queue _ _ frame) =>
    submissionsOf (pipeline.acting turn) frame (pipeline.turn turn).notices
  | _ => []

/-- The images that a turn has sessions show, with their numbers. When the device is done, each
session has its turn. -/
def shown (pipeline : TrialPipeline) (turn : Turn) : List (Nat × DecodedImage) :=
  match turn with
  | .resume => pipeline.sessions.zipIdx.flatMap fun (session, number) =>
      (imagesOf (session.resume (ε := SimulatedEngine)).notices).map (number, ·)
  | _ => (imagesOf (pipeline.turn turn).notices).map (pipeline.acting turn, ·)

/-- What is observed of turns, one after the other. -/
def observed {α : Type} (observe : TrialPipeline → Turn → List α) (pipeline : TrialPipeline) :
    List Turn → List α
  | [] => []
  | turn :: rest => observe pipeline turn ++ observed observe (pipeline.turn turn).value rest

end TrialPipeline

namespace Session

variable {owned : FrameIndex → Prop}

theorem Owns.handleNext {ε σ : Type} [Engine ε σ] {session : Session σ} (h : session.Owns owned)
    (latency : Bool) :
    (session.handleNext (ε := ε) latency).Ensures (fun later => later.Owns owned)
      (Notice.Keeps owned) := by
  unfold Session.handleNext
  split
  · exact .of_pure h
  · next event rest _ =>
    refine (h.handle latency event).bind fun handled hhandled => ?_
    have hrest : ({ handled.2 with events := rest } : Session σ).Owns owned :=
      ⟨hhandled.carries, hhandled.ended⟩
    exact hrest.settle

theorem Owns.prompted {session : Session SimulatedSession} (h : session.Owns owned)
    (prompt : Prompt) :
    (session.prompted prompt).Ensures (fun later => later.Owns owned) (Notice.Keeps owned) := by
  unfold Session.prompted Session.prompt
  exact (h.replied _ _).bind fun _ hlater => hlater.settle

private theorem prompted_eq_of_shut {session : Session SimulatedSession} (h : session.surface.Shut)
    (prompt : Prompt) :
    session.prompted prompt =
      pure { session with engine := (session.engine.prompt prompt).session } := by
  let reply := session.engine.prompt prompt
  let replied : Session SimulatedSession := { session with engine := reply.session }
  have hclosed : replied.surface.closed = true := h.isClosed
  have hdeaf : (replied.hearAll reply.reports).notices = [] ∧
      (replied.hearAll reply.reports).value.2 = replied := by
    refine hearAll_induction (P := fun later => later = replied) reply.reports ?_ rfl
    rintro report - later rfl
    rw [hear_closed hclosed]
    exact ⟨rfl, rfl⟩
  obtain ⟨hquiet, hvalue⟩ := hdeaf
  have hsettle : replied.settle = pure replied := settle_of_surface h.settle
  have hprompted : session.prompted prompt =
      replied.hearAll reply.reports >>= fun heard => heard.2.settle := rfl
  rw [hprompted]
  apply Outcome.ext
  · rw [Outcome.value_bind, hvalue, hsettle]
  · rw [Outcome.notices_bind, hquiet, hvalue, hsettle]
    rfl

end Session

namespace TrialPipeline

variable {pipeline : TrialPipeline} {owned owned' : Nat → FrameIndex → Prop}

/-- Each session shows frames of its own only. -/
structure Separate (pipeline : TrialPipeline) (owned : Nat → FrameIndex → Prop) : Prop where
  past : ∀ (number : Nat) (session : Session SimulatedSession),
    pipeline.past[number]? = some session → session.Owns (owned number)
  current : ∀ session, pipeline.current = some session → session.Owns (owned pipeline.past.length)

theorem Separate.imp (h : pipeline.Separate owned)
    (himp : ∀ number frame, owned number frame → owned' number frame) :
    pipeline.Separate owned' :=
  ⟨fun number session hsession => (h.past number session hsession).imp (himp number),
    fun session hsession => (h.current session hsession).imp (himp _)⟩

theorem Separate.append (h : pipeline.Separate owned) {last : Session SimulatedSession}
    (hlast : last.Owns (owned pipeline.past.length)) (number : Nat)
    (session : Session SimulatedSession)
    (hsession : (pipeline.past ++ [last])[number]? = some session) :
    session.Owns (owned number) := by
  rcases Nat.lt_trichotomy number pipeline.past.length with hlt | rfl | hgt
  · rw [List.getElem?_append_left hlt] at hsession
    exact h.past number session hsession
  · rw [List.getElem?_concat_length] at hsession
    obtain rfl := Option.some.inj hsession
    exact hlast
  · have hnone : (pipeline.past ++ [last])[number]? = none := by
      rw [List.getElem?_eq_none_iff, List.length_append]
      exact hgt
    exact nomatch hnone.symm.trans hsession

theorem Separate.retire (h : pipeline.Separate owned) : Separate pipeline.retire owned := by
  cases hcurrent : pipeline.current with
  | none =>
    rw [Pipeline.retire_of_none hcurrent]
    exact h
  | some last =>
    rw [Pipeline.retire_of_some hcurrent]
    exact ⟨h.append (h.current last hcurrent).shutdown, nofun⟩

/-- A new session owns nothing, so that nothing can be wrong with it. -/
theorem Separate.prepare (h : pipeline.Separate owned) (csd : Bytes) :
    Separate (pipeline.prepare csd).value.2 owned := by
  unfold Pipeline.prepare
  split
  · obtain ⟨-, engine, idle, hvalue | ⟨started, hstarted, hvalue | hvalue⟩⟩ :=
      Pipeline.openSession_cases pipeline.retire csd
    · rw [hvalue]
      exact ⟨h.retire.past, h.retire.current⟩
    · rw [hvalue]
      refine ⟨h.retire.past, ?_⟩
      rintro session ⟨⟩
      exact hstarted.imp fun _ hfalse => hfalse.elim
    · rw [hvalue]
      have hover : (started.shutdown (ε := SimulatedEngine)).Owns
          (owned pipeline.retire.past.length) :=
        (hstarted.imp fun _ hfalse => hfalse.elim).shutdown
      refine ⟨h.retire.append hover, ?_⟩
      intro session hsession
      exact nomatch pipeline.retire_current.symm.trans hsession
  · exact h

theorem Separate.with_current (h : pipeline.Separate owned)
    {session : Session SimulatedSession} (hsession : session.Owns (owned pipeline.past.length))
    (clock : PtsClock) : Separate { pipeline with clock, current := some session } owned := by
  refine ⟨h.past, ?_⟩
  rintro later ⟨⟩
  exact hsession

/-- The frames of a session, and what goes into it. -/
def withSubmitted (owned : Nat → FrameIndex → Prop) (occurrences : List Occurrence) (number : Nat)
    (frame : FrameIndex) : Prop :=
  owned number frame ∨ ∃ pts, .submitted number pts frame ∈ occurrences

private theorem announcements_keeps (pipeline : TrialPipeline) (buffer : Nat) (payload : Bytes)
    (frame : FrameIndex) (kept : FrameIndex → Prop) :
    ∀ notice ∈ pipeline.announcements buffer payload frame, notice.Keeps kept := by
  intro notice hmem decoded heq
  subst heq
  unfold Pipeline.announcements at hmem
  split at hmem <;> split at hmem <;> simp at hmem

/-- Whatever is delivered, a frame is in the map of the current session only once it was submitted
to that. -/
theorem Separate.deliver (h : pipeline.Separate owned) (now : Nat) (payload : Bytes)
    (frame : FrameIndex) :
    let done := pipeline.deliver now payload frame
    let owned' := withSubmitted owned (submissionsOf pipeline.past.length frame done.notices)
    done.value.2.past = pipeline.past ∧ Separate done.value.2 owned' ∧
      ∀ notice ∈ done.notices, notice.Keeps (owned' pipeline.past.length) := by
  intro done owned'
  have hdelivered : pipeline.Delivered now payload frame done :=
    pipeline.deliver_delivered now payload frame
  have h' : pipeline.Separate owned' := h.imp fun _ _ => .inl
  have hannounced (buffer : Nat) :=
    pipeline.announcements_keeps buffer payload frame (owned' pipeline.past.length)
  have hfed : ∀ (session : Session SimulatedSession) inputs, pipeline.current = some session →
      ({ session with inputs } : Session SimulatedSession).Owns (owned' pipeline.past.length) :=
    fun session _ hcurrent =>
      ⟨(h'.current session hcurrent).carries, (h'.current session hcurrent).ended⟩
  clear_value done
  cases hdelivered with
  | dropped => exact ⟨rfl, h', fun notice hmem => absurd hmem List.not_mem_nil⟩
  | refused session buffer inputs hcurrent =>
    exact ⟨rfl, h'.with_current (hfed session inputs hcurrent) _, hannounced buffer⟩
  | configuration session buffer capacity inputs sent hcurrent _ hsent =>
    obtain ⟨hvalue, hsaid⟩ := (hfed session inputs hcurrent).submit (ε := SimulatedEngine) buffer
      (payload.take capacity) 0 { configuration := true }
    rw [← hsent] at hvalue hsaid
    exact ⟨rfl, h'.with_current hvalue _, List.forall_mem_append.mpr ⟨hannounced buffer, hsaid⟩⟩
  | picture session buffer capacity inputs sent hcurrent _ hsent =>
    let pts := (pipeline.clock.next now).1
    let flags : BufferFlags := { keyframe := hasKeyframeSlice pipeline.settings.codec payload }
    have hmem : .submit buffer (payload.take capacity) pts flags ∈
        pipeline.announcements buffer payload frame ++ sent.notices := by
      refine List.mem_append_right _ ?_
      rw [hsent, Session.submit_eq]
      exact List.mem_cons_self
    have hframe : owned' pipeline.past.length frame :=
      .inr ⟨pts, List.mem_filterMap.mpr ⟨_, hmem, rfl⟩⟩
    obtain ⟨hvalue, hsaid⟩ := ((hfed session inputs hcurrent).named pts hframe).submit
      (ε := SimulatedEngine) buffer (payload.take capacity) pts flags
    rw [← hsent] at hvalue hsaid
    exact ⟨rfl, h'.with_current hvalue _, List.forall_mem_append.mpr ⟨hannounced buffer, hsaid⟩⟩

theorem Separate.queue (h : pipeline.Separate owned) (now : Nat) (packet : Bytes)
    (frame : FrameIndex) :
    let done := pipeline.queue now packet frame
    let owned' := withSubmitted owned (submissionsOf done.value.2.past.length frame done.notices)
    Separate done.value.2 owned' ∧
      ∀ notice ∈ done.notices, notice.Keeps (owned' done.value.2.past.length) := by
  intro done owned'
  let csd := configurationPrefix pipeline.settings.codec packet
  let prepared := pipeline.prepare csd
  let delivered := prepared.value.2.deliver (Pipeline.delayed now prepared.value.1)
    (Pipeline.payload csd packet) frame
  have hdone : done = ⟨delivered.value, prepared.notices ++ delivered.notices⟩ :=
    pipeline.queue_eq now packet frame
  obtain ⟨hpast, hseparate, hsaid⟩ := (h.prepare csd).deliver
    (Pipeline.delayed now prepared.value.1) (Pipeline.payload csd packet) frame
  have hlength : done.value.2.past.length = prepared.value.2.past.length := by
    rw [hdone]
    exact congrArg List.length hpast
  -- Nothing was submitted before the delivery, which is to the session that is current then.
  have hmore : ∀ number frame', withSubmitted owned
      (submissionsOf prepared.value.2.past.length frame delivered.notices) number frame' →
        owned' number frame' := by
    rintro number frame' (howned | ⟨pts, hmem⟩)
    · exact .inl howned
    · refine .inr ⟨pts, ?_⟩
      rw [hlength, hdone, submissionsOf, List.filterMap_append]
      exact List.mem_append_right _ hmem
  have hvalue : done.value.2 = delivered.value.2 := by rw [hdone]
  rw [hlength, hvalue, hdone]
  refine ⟨hseparate.imp hmore, List.forall_mem_append.mpr ⟨fun notice hmem decoded heq => ?_, ?_⟩⟩
  · have hmode := pipeline.prepare_notices csd notice hmem
    exact nomatch heq.symm.trans hmode
  · intro notice hmem decoded heq
    exact hmore _ _ (hsaid notice hmem decoded heq)

/-- One turn: the sessions keep their frames and get those that are submitted to them, and what is
shown is among them. -/
structure TurnKeeps (pipeline : TrialPipeline) (owned : Nat → FrameIndex → Prop) (turn : Turn) :
    Prop where
  separate : Separate (pipeline.turn turn).value (withSubmitted owned (pipeline.submitted turn))
  shown : ∀ number image, (number, image) ∈ pipeline.shown turn →
    withSubmitted owned (pipeline.submitted turn) number image.frame
  images : imagesOf (pipeline.turn turn).notices = (pipeline.shown turn).map Prod.snd

/-- All that is shown comes from one session, unless the device is done. -/
theorem TurnKeeps.of_acting {turn : Turn} (hturn : turn ≠ .resume)
    (h : (pipeline.turn turn).Ensures
      (Separate · (withSubmitted owned (pipeline.submitted turn)))
      (Notice.Keeps (withSubmitted owned (pipeline.submitted turn) (pipeline.acting turn)))) :
    pipeline.TurnKeeps owned turn := by
  have hshown : pipeline.shown turn =
      (imagesOf (pipeline.turn turn).notices).map (pipeline.acting turn, ·) := by
    cases turn with
    | resume => exact absurd rfl hturn
    | _ => rfl
  refine ⟨h.1, fun number image hmem => ?_, ?_⟩
  · rw [hshown] at hmem
    obtain ⟨image', himage, heq⟩ := List.mem_map.mp hmem
    cases heq
    exact frame_of_mem_imagesOf h.2 himage
  · rw [hshown, List.map_map]
    exact (List.map_id _).symm

theorem TurnKeeps.of_nothing_submitted {turn : Turn} (hturn : turn ≠ .resume)
    (h : (pipeline.turn turn).Ensures (Separate · owned)
      (Notice.Keeps (owned (pipeline.acting turn)))) :
    pipeline.TurnKeeps owned turn :=
  .of_acting hturn <| h.imp (fun _ hlater => hlater.imp fun _ _ => .inl)
    fun _ hsaid decoded heq => .inl (hsaid decoded heq)

private theorem Separate.turn_queue (h : pipeline.Separate owned) (now : Nat) (packet : Bytes)
    (frame : FrameIndex) : pipeline.TurnKeeps owned (.operation (.queue now packet frame)) := by
  have hturn : pipeline.turn (.operation (.queue now packet frame)) =
      ⟨(pipeline.queue now packet frame).value.2, (pipeline.queue now packet frame).notices⟩ :=
    Outcome.ext rfl (List.append_nil _)
  refine .of_acting nofun ?_
  simp only [submitted, hturn]
  exact h.queue now packet frame

theorem Separate.set (h : pipeline.Separate owned) {number : Nat}
    {later : Session SimulatedSession} (hlater : later.Owns (owned number)) :
    Separate { pipeline with past := pipeline.past.set number later } owned := by
  refine ⟨fun number' session hsession => ?_, fun session hsession => ?_⟩
  · rw [List.getElem?_set] at hsession
    split at hsession
    case isTrue heq =>
      subst heq
      split at hsession
      · obtain rfl := Option.some.inj hsession
        exact hlater
      · exact nomatch hsession
    case isFalse => exact h.past number' session hsession
  · rw [List.length_set]
    exact h.current session hsession

theorem Separate.prompt (h : pipeline.Separate owned) (number : Nat) (prompt : Prompt) :
    (pipeline.perform (.prompt number prompt)).Ensures (Separate · owned)
      (Notice.Keeps (owned number)) := by
  cases hpast : pipeline.past[number]? with
  | some session =>
    rw [perform_prompt_past hpast]
    exact ((h.past number session hpast).prompted prompt).bind fun later hlater =>
      .of_pure (h.set hlater)
  | none =>
    by_cases hlast : ∃ session, pipeline.current = some session ∧ number = pipeline.past.length
    · obtain ⟨session, hcurrent, rfl⟩ := hlast
      rw [perform_prompt_current hcurrent]
      exact ((h.current session hcurrent).prompted prompt).bind fun later hlater =>
        .of_pure (h.with_current hlater pipeline.clock)
    · rw [perform_prompt_none hpast fun session hcurrent hnumber =>
        hlast ⟨session, hcurrent, hnumber⟩]
      exact .of_pure h

theorem Separate.handle (h : pipeline.Separate owned) :
    (pipeline.perform .handle).Ensures (Separate · owned)
      (Notice.Keeps (owned pipeline.past.length)) := by
  unfold perform
  cases hcurrent : pipeline.current with
  | none => exact .of_pure h
  | some session =>
    exact ((h.current session hcurrent).handleNext _).bind fun later hlater =>
      .of_pure (h.with_current hlater pipeline.clock)

theorem Separate.drain (h : pipeline.Separate owned) :
    (Pipeline.drain pipeline).Ensures (Separate · owned)
      (Notice.Keeps (owned pipeline.past.length)) := by
  unfold Pipeline.drain
  cases hcurrent : pipeline.current with
  | none => exact .of_pure h
  | some session =>
    exact ((h.current session hcurrent).drain _).bind fun later hlater =>
      .of_pure (h.with_current hlater pipeline.clock)

theorem Separate.hold (h : pipeline.Separate owned) : Separate pipeline.hold owned := by
  refine ⟨fun number held hheld => ?_, fun held hheld => ?_⟩
  · simp only [Pipeline.hold, List.getElem?_map, Option.map_eq_some_iff] at hheld
    obtain ⟨session, hsession, rfl⟩ := hheld
    exact (h.past number session hsession).hold
  · simp only [Pipeline.hold, Option.map_eq_some_iff] at hheld
    obtain ⟨session, hsession, rfl⟩ := hheld
    simp only [Pipeline.hold, List.length_map]
    exact (h.current session hsession).hold

theorem resume_eq (pipeline : TrialPipeline) :
    Pipeline.resume pipeline =
      ⟨{ pipeline with
          busy := false
          past := pipeline.past.map fun session =>
            (session.resume (ε := SimulatedEngine)).value
          current := pipeline.current.map fun session =>
            (session.resume (ε := SimulatedEngine)).value },
        pipeline.sessions.flatMap fun session =>
          (session.resume (ε := SimulatedEngine)).notices⟩ := by
  rw [Pipeline.resume, Outcome.list_mapM_eq, Outcome.option_mapM_eq]
  apply Outcome.ext
  · rfl
  · simp [Pipeline.sessions]

theorem Separate.resume (h : pipeline.Separate owned) : pipeline.TurnKeeps owned .resume := by
  have hsession : ∀ (number : Nat) (session : Session SimulatedSession),
      pipeline.sessions[number]? = some session → session.Owns (owned number) := by
    intro number session hsession
    rcases Pipeline.sessions_getElem?_eq_some_iff.mp hsession with hpast | ⟨rfl, hcurrent⟩
    · exact h.past number session hpast
    · exact h.current session hcurrent
  have hturn : pipeline.turn .resume = Pipeline.resume pipeline := rfl
  refine ⟨?_, fun number image hmem => ?_, ?_⟩
  · rw [hturn, resume_eq]
    refine Separate.imp ⟨fun number later hlater => ?_, fun later hlater => ?_⟩ fun _ _ => .inl
    · simp only [List.getElem?_map, Option.map_eq_some_iff] at hlater
      obtain ⟨session, hpast, rfl⟩ := hlater
      exact (h.past number session hpast).resume.1
    · obtain ⟨session, hcurrent, rfl⟩ := Option.map_eq_some_iff.mp hlater
      rw [List.length_map]
      exact (h.current session hcurrent).resume.1
  · obtain ⟨⟨session, number'⟩, hnumbered, hmem⟩ := List.mem_flatMap.mp hmem
    obtain ⟨image', himage, heq⟩ := List.mem_map.mp hmem
    cases heq
    have hnumber : pipeline.sessions[number]? = some session :=
      List.mk_mem_zipIdx_iff_getElem?.mp hnumbered
    exact .inl (frame_of_mem_imagesOf (hsession number session hnumber).resume.2 himage)
  · let images (session : Session SimulatedSession) : List DecodedImage :=
      imagesOf (session.resume (ε := SimulatedEngine)).notices
    have hshown : (pipeline.shown .resume).map Prod.snd =
        pipeline.sessions.zipIdx.flatMap fun numbered => images numbered.1 := by
      simp [shown, List.map_flatMap, Function.comp_def, images]
    calc imagesOf (pipeline.turn .resume).notices
        = pipeline.sessions.flatMap images := by
          rw [hturn, resume_eq, imagesOf, List.filterMap_flatMap]
          rfl
      _ = (pipeline.sessions.zipIdx.map Prod.fst).flatMap images := by rw [List.zipIdx_map_fst]
      _ = pipeline.sessions.zipIdx.flatMap fun numbered => images numbered.1 := List.flatMap_map ..
      _ = (pipeline.shown .resume).map Prod.snd := hshown.symm

theorem Separate.turn (h : pipeline.Separate owned) (turn : Turn) :
    pipeline.TurnKeeps owned turn := by
  cases turn with
  | operation operation =>
    cases operation with
    | queue now packet frame => exact h.turn_queue now packet frame
    | prompt number prompt => exact .of_nothing_submitted nofun (h.prompt number prompt)
    | handle => exact .of_nothing_submitted nofun h.handle
    | failNext => exact .of_nothing_submitted nofun (.of_pure ⟨h.past, h.current⟩)
    | stop =>
      exact .of_nothing_submitted nofun (.of_pure ⟨h.retire.past, h.retire.current⟩)
  | drain => exact .of_nothing_submitted nofun h.drain
  | hold => exact .of_nothing_submitted nofun (.of_pure h.hold)
  | resume => exact h.resume

theorem play_cons (pipeline : TrialPipeline) (turn : Turn) (rest : List Turn) :
    pipeline.play (turn :: rest) = pipeline.turn turn >>= fun later => later.play rest :=
  List.foldlM_cons

/-- After any turns what is shown has been submitted. The induction is on the turns, for all that
the sessions own in the beginning. -/
theorem Separate.play (h : pipeline.Separate owned) (turns : List Turn) :
    Separate (pipeline.play turns).value (withSubmitted owned (observed submitted pipeline turns)) ∧
      (∀ number image, (number, image) ∈ observed shown pipeline turns →
        withSubmitted owned (observed submitted pipeline turns) number image.frame) ∧
      imagesOf (pipeline.play turns).notices = (observed shown pipeline turns).map Prod.snd := by
  induction turns generalizing pipeline owned with
  | nil => exact ⟨h.imp fun _ _ => .inl, by simp [observed], rfl⟩
  | cons turn rest ih =>
    have hturn := h.turn turn
    obtain ⟨hseparate, hshown, himages⟩ := ih hturn.separate
    have hmore : ∀ number frame,
        withSubmitted (withSubmitted owned (pipeline.submitted turn))
          (observed submitted (pipeline.turn turn).value rest) number frame →
        withSubmitted owned (observed submitted pipeline (turn :: rest)) number frame := by
      rintro number frame ((howned | ⟨pts, hmem⟩) | ⟨pts, hmem⟩)
      · exact .inl howned
      · exact .inr ⟨pts, List.mem_append_left _ hmem⟩
      · exact .inr ⟨pts, List.mem_append_right _ hmem⟩
    rw [play_cons]
    refine ⟨hseparate.imp hmore, fun number image hmem => ?_, ?_⟩
    · rcases List.mem_append.mp hmem with hmem | hmem
      · exact hmore _ _ (.inl (hturn.shown number image hmem))
      · exact hmore _ _ (hshown number image hmem)
    · rw [Outcome.notices_bind, imagesOf_append, hturn.images, himages, ← List.map_append]
      rfl

theorem Separate.start (settings : DecoderSettings) (links : Links) (engine : SimulatedEngine) :
    Separate { settings, links, engine } fun _ _ => False :=
  ⟨by simp, by simp⟩

/-- A session is prompted, and no one else takes notice: of all there is, only its engine's part may
have changed. -/
structure LeavesAlone (before : TrialPipeline) (number : Nat) (session : Session SimulatedSession)
    (done : Outcome TrialPipeline) : Prop where
  silent : done.notices = []
  engineOnly : ∃ engine, done.value =
    { before with past := before.past.set number { session with engine } }
  others : ∀ other, other ≠ number → done.value.sessions[other]? = before.sessions[other]?

private theorem play_prompts_of_shut {number : Nat} {session : Session SimulatedSession}
    (hsession : pipeline.past[number]? = some session) (hshut : session.surface.Shut)
    (prompts : List Prompt) :
    ∃ engine, pipeline.play (prompts.map fun prompt => .operation (.prompt number prompt)) =
      pure { pipeline with past := pipeline.past.set number { session with engine } } := by
  induction prompts generalizing pipeline session with
  | nil =>
    refine ⟨session.engine, ?_⟩
    obtain ⟨hlt, hget⟩ := List.getElem?_eq_some_iff.mp hsession
    have hsame : pipeline.past.set number session = pipeline.past := by
      rw [← hget, List.set_getElem_self]
    show (pure pipeline : Outcome TrialPipeline) =
      pure { pipeline with past := pipeline.past.set number session }
    rw [hsame]
  | cons prompt rest ih =>
    let deaf : Session SimulatedSession :=
      { session with engine := (session.engine.prompt prompt).session }
    let later : TrialPipeline := { pipeline with past := pipeline.past.set number deaf }
    have hturn : pipeline.turn (.operation (.prompt number prompt)) = pure later := by
      show pipeline.perform (.prompt number prompt) = pure later
      rw [perform_prompt_past hsession, Session.prompted_eq_of_shut hshut]
      rfl
    have hdeaf : later.past[number]? = some deaf := by
      obtain ⟨hlt, -⟩ := List.getElem?_eq_some_iff.mp hsession
      simp [later, hlt]
    obtain ⟨engine, hrest⟩ := ih hdeaf hshut
    refine ⟨engine, ?_⟩
    rw [List.map_cons, play_cons, hturn]
    show later.play _ = _
    rw [hrest]
    simp [later, deaf]

private theorem leavesAlone_of_shut {number : Nat} {session : Session SimulatedSession}
    (hsession : pipeline.past[number]? = some session) (hshut : session.surface.Shut)
    (prompts : List Prompt) :
    pipeline.LeavesAlone number session
      (pipeline.play (prompts.map fun prompt => .operation (.prompt number prompt))) := by
  obtain ⟨engine, hplay⟩ := play_prompts_of_shut hsession hshut prompts
  rw [hplay]
  refine ⟨rfl, ⟨engine, rfl⟩, fun other hother => ?_⟩
  obtain ⟨hlt, -⟩ := List.getElem?_eq_some_iff.mp hsession
  simp only [Outcome.value_pure, Pipeline.sessions, List.getElem?_append, List.length_set]
  split
  · exact List.getElem?_set_ne hother.symm
  · rfl

/-- After any turns: a session before the current one, once its surface is closed, may be prompted
as one likes, and nothing is shown and no other session is touched. And every image that is shown
is one of a frame that was submitted to the session that shows it. -/
theorem replaced_sessions_are_inert (settings : DecoderSettings) (links : Links)
    (engine : SimulatedEngine) (turns : List Turn) :
    let start : TrialPipeline := { settings, links, engine }
    let pipeline : TrialPipeline := (start.play turns).value
    (∀ number session, pipeline.past[number]? = some session → session.surface.closed = true →
      ∀ prompts : List Prompt, pipeline.LeavesAlone number session
        (pipeline.play (prompts.map fun prompt => .operation (.prompt number prompt)))) ∧
      imagesOf (start.play turns).notices = (observed shown start turns).map Prod.snd ∧
      ∀ number image, (number, image) ∈ observed shown start turns →
        ∃ pts, .submitted number pts image.frame ∈ observed submitted start turns := by
  intro start pipeline
  obtain ⟨hseparate, hshown, himages⟩ := (Separate.start settings links engine).play turns
  refine ⟨fun number session hsession hclosed prompts => ?_, himages, fun number image hmem => ?_⟩
  · exact leavesAlone_of_shut hsession ((hseparate.past number session hsession).ended hclosed)
      prompts
  · exact (hshown number image hmem).resolve_left id

/-- A pipeline by hand with a session that was replaced; both had a picture. -/
def replaced : TrialPipeline :=
  ((manual {} {} 4).play [
    .operation (.queue 0 (TestPattern.parameterSets .h264) 0),
    .operation (.queue 0 (TestPattern.keyframeSlice .h264) 1),
    .operation (.queue 0 [0, 0, 0, 1, 0x67, 0x64, 0, 0x1f] 0),
    .operation (.queue 0 (TestPattern.keyframeSlice .h264) 2)]).value

/-- The replaced session offers buffers, completes and presents pictures and fails. -/
theorem replaced_is_inert :
    let prompts : List Prompt := [.offer 0, .complete 1, .present 1, .present 2, .fault]
    ∃ session, replaced.past[0]? = some session ∧
      replaced.LeavesAlone 0 session
        (replaced.play (prompts.map fun prompt => .operation (.prompt 0 prompt))) := by
  intro prompts
  obtain ⟨session, hsession, hclosed⟩ : ∃ session, replaced.past[0]? = some session ∧
      session.surface.closed = true := ⟨_, rfl, rfl⟩
  exact ⟨session, hsession, (replaced_sessions_are_inert {} {} { mode := .manual } _).1
    0 session hsession hclosed prompts⟩

end TrialPipeline

end HeadsetStream.Decoder
