import HeadsetStream.Proofs.SlotHistory

/-!
# Every run by hand follows its history

Each operation keeps the sessions of a pipeline as the history says, once what is seen of the
operation is added to it, and what is seen is explained by the history before. A run is then any
number of operations.
-/

namespace HeadsetStream.Decoder
open Video Settings Bitstream

/-- Notices that tell of the headset's mode only. -/
def OnlyModes (notices : List Notice) : Prop := notices = [] ∨ notices = [.renderMode .video]

theorem OnlyModes.images {notices : List Notice} (h : OnlyModes notices) :
    imagesOf notices = [] := by
  obtain rfl | rfl := h <;> rfl

private theorem OnlyModes.submissions {notices : List Notice} (h : OnlyModes notices)
    (session : Nat) (frame : FrameIndex) : submissionsOf session frame notices = [] := by
  obtain rfl | rfl := h <;> rfl

@[simp] theorem submissionsOf_append (session : Nat) (frame : FrameIndex)
    (first rest : List Notice) :
    submissionsOf session frame (first ++ rest) =
      submissionsOf session frame first ++ submissionsOf session frame rest :=
  List.filterMap_append ..

@[simp] theorem submissionsOf_submit (session : Nat) (frame : FrameIndex) (buffer : Nat)
    (data : Bytes) (pts : Nat) (flags : BufferFlags) :
    submissionsOf session frame [.submit buffer data pts flags] =
      if flags.configuration then [] else [.submitted session pts frame] := by
  unfold submissionsOf
  split <;> simp [*]

private theorem images_submissionsOf (session : Nat) (frame : FrameIndex) (notices : List Notice) :
    (submissionsOf session frame notices).flatMap Occurrence.images = [] := by
  rw [List.flatMap_eq_nil_iff]
  intro occurrence hmem
  obtain ⟨notice, -, hnotice⟩ := List.mem_filterMap.mp hmem
  split at hnotice
  · split at hnotice
    · simp at hnotice
    · cases hnotice
      rfl
  · simp at hnotice

@[simp] theorem imagesOf_submit (buffer : Nat) (data : Bytes) (pts : Nat) (flags : BufferFlags) :
    imagesOf [.submit buffer data pts flags] = [] := rfl

namespace TrialPipeline

/-- Sessions that end are explained by any history. -/
theorem throughout_endings (P : List Occurrence → Occurrence → Prop)
    (hended : ∀ before session, P before (.ended session)) (history : List Occurrence)
    (before after : TrialPipeline) : Throughout P history (endings before after) := by
  unfold endings
  generalize List.range' _ _ = sessions
  induction sessions generalizing history with
  | nil => trivial
  | cons session rest ih => exact ⟨hended _ _, ih _⟩

theorem images_endings (before after : TrialPipeline) :
    (endings before after).flatMap Occurrence.images = [] := by
  rw [List.flatMap_eq_nil_iff]
  intro occurrence hmem
  obtain ⟨session, -, rfl⟩ := List.mem_map.mp hmem
  rfl

namespace Follows

variable {settings : DecoderSettings} {links : Links} {history seen : List Occurrence}
  {pipeline : TrialPipeline} {session session' : Session SimulatedSession}

theorem manual (settings : DecoderSettings) (links : Links) (inputBuffers : Nat) :
    Follows settings links [] (TrialPipeline.manual settings links inputBuffers) where
  settings_eq := rfl
  links_eq := rfl
  byHand := rfl
  free := rfl
  clock _ _ _ h := absurd h List.not_mem_nil
  opened _ _ _ h := absurd h List.not_mem_nil
  ended session := by simp [TrialPipeline.manual]
  past _ h := absurd h List.not_mem_nil
  current _ h := by simp [TrialPipeline.manual] at h

/-- The current session has changed, and so much was seen of it. -/
theorem withCurrent (h : Follows settings links history pipeline)
    (hcurrent : pipeline.current = some session) (clock : PtsClock)
    (hclock : pipeline.clock.last ≤ clock.last)
    (hsession : session'.Follows (mapCapacity settings) pipeline.past.length (history ++ seen))
    (hsubmitted : ∀ s pts frame, .submitted s pts frame ∈ seen →
      s = pipeline.past.length ∧ pts ≤ clock.last)
    (hended : ∀ s, .ended s ∉ seen) :
    Follows settings links (history ++ seen)
      { pipeline with clock, current := some session' } where
  settings_eq := h.settings_eq
  links_eq := h.links_eq
  byHand := h.byHand
  free := h.free
  clock s pts frame hmem := by
    rcases List.mem_append.mp hmem with hmem | hmem
    · exact Nat.le_trans (h.clock s pts frame hmem) hclock
    · exact (hsubmitted s pts frame hmem).2
  opened s pts frame hmem := by
    rcases List.mem_append.mp hmem with hmem | hmem
    · have hlt := h.opened s pts frame hmem
      simp only [Pipeline.sessions, hcurrent] at hlt ⊢
      simpa using hlt
    · simp [Pipeline.sessions, (hsubmitted s pts frame hmem).1]
  ended s := by
    rw [List.mem_append, or_iff_left (hended s)]
    exact h.ended s
  past := h.past
  current later hlater := by
    cases hlater
    exact hsession

/-- The current session has changed, and nothing was seen of it. -/
theorem keepCurrent (h : Follows settings links history pipeline)
    (hcurrent : pipeline.current = some session)
    (hsession : session'.Follows (mapCapacity settings) pipeline.past.length history) :
    Follows settings links history { pipeline with current := some session' } := by
  have hkept : Follows settings links (history ++ []) { pipeline with current := some session' } :=
    h.withCurrent hcurrent pipeline.clock (Nat.le_refl _) (by simpa using hsession) (by simp)
      (by simp)
  simpa using hkept

/-- What was seen neither ends a session nor matters to a slot of the current one. -/
theorem addInert (h : Follows settings links history pipeline) {occurrence : Occurrence}
    (hsubmitted : ∀ s pts frame, occurrence ≠ .submitted s pts frame)
    (hended : ∀ s, occurrence ≠ .ended s)
    (hinert : ∀ session, pipeline.current = some session → ∀ slot,
      ¬ occurrence.Touches (mapCapacity settings) pipeline.past.length slot) :
    Follows settings links (history ++ [occurrence]) pipeline where
  settings_eq := h.settings_eq
  links_eq := h.links_eq
  byHand := h.byHand
  free := h.free
  clock s pts frame hmem :=
    h.clock s pts frame (by simpa [(hsubmitted s pts frame).symm] using hmem)
  opened s pts frame hmem :=
    h.opened s pts frame (by simpa [(hsubmitted s pts frame).symm] using hmem)
  ended s := by simpa [(hended s).symm] using h.ended s
  past := h.past
  current session hcurrent := (h.current session hcurrent).inert (hinert session hcurrent)

/-- A session that is over has changed, but its surface stays shut. -/
private theorem withPast (h : Follows settings links history pipeline) {number : Nat}
    (hpast : pipeline.past[number]? = some session)
    (hsurface : session'.surface = session.surface) :
    Follows settings links history { pipeline with past := pipeline.past.set number session' } where
  settings_eq := h.settings_eq
  links_eq := h.links_eq
  byHand := h.byHand
  free := h.free
  clock := h.clock
  opened s pts frame hmem := by
    simpa [Pipeline.sessions] using h.opened s pts frame hmem
  ended s := by simpa using h.ended s
  past later hlater := by
    rcases List.mem_or_eq_of_mem_set hlater with hmem | rfl
    · exact h.past later hmem
    · rw [hsurface]
      exact h.past session (List.mem_of_getElem? hpast)
  current later hlater := by simpa using h.current later hlater

theorem withEngine (h : Follows settings links history pipeline) (engine : SimulatedEngine)
    (hengine : engine.mode = .manual) (idle : SessionState) :
    Follows settings links history { pipeline with engine, idle } :=
  ⟨h.settings_eq, h.links_eq, hengine, h.free, h.clock, h.opened, h.ended, h.past, h.current⟩

theorem retire (h : Follows settings links history pipeline) :
    Follows settings links (history ++ endings pipeline pipeline.retire) pipeline.retire := by
  cases hcurrent : pipeline.current with
  | none =>
    rw [Pipeline.retire_of_none hcurrent, endings_of_length_eq rfl, List.append_nil]
    exact h
  | some session =>
    have hseen : endings pipeline pipeline.retire = [.ended pipeline.past.length] := by
      simp [endings, Pipeline.retire_of_some hcurrent]
    rw [hseen, Pipeline.retire_of_some hcurrent]
    refine ⟨h.settings_eq, h.links_eq, h.byHand, h.free, ?_, ?_, ?_, ?_, ?_⟩
    · intro s pts frame hmem
      exact h.clock s pts frame (by simpa using hmem)
    · intro s pts frame hmem
      have hlt := h.opened s pts frame (by simpa using hmem)
      simpa [Pipeline.sessions, hcurrent] using hlt
    · intro s
      have hended := h.ended s
      simp only [List.mem_append, List.mem_singleton, Occurrence.ended.injEq, hended,
        List.length_append, List.length_singleton]
      omega
    · intro later hlater
      rcases List.mem_append.mp hlater with hmem | hmem
      · exact h.past later hmem
      · obtain rfl := List.mem_singleton.mp hmem
        rw [Session.shutdown_surface]
        exact (h.current session hcurrent).idle.close
    · intro later hlater
      simp at hlater

/-- A session that is opened when there is none starts with empty slots. -/
theorem opened_follows (h : Follows settings links history pipeline)
    (hnone : pipeline.current = none) (csd : Bytes) :
    (pipeline.opened csd).Follows (mapCapacity settings) pipeline.past.length history where
  byHand := h.byHand
  idle := by
    have hidle := Surface.idle_of_frames (.empty pipeline.settings.frameIndexCapacity)
    rw [TrialPipeline.opened, h.free]
    exact hidle
  capacity_eq := by
    rw [← h.settings_eq]
    rfl
  slots pts := by
    rw [heldAfter_of_not_submitted]
    · exact FrameMap.get?_empty ..
    · intro pts' frame hmem
      have hlt := h.opened _ pts' frame hmem
      simp [Pipeline.sessions, hnone] at hlt

theorem openSession (h : Follows settings links history pipeline)
    (hnone : pipeline.current = none) (csd : Bytes) :
    Follows settings links history (pipeline.openSession csd).value.2 ∧
      (pipeline.openSession csd).value.2.past = pipeline.past ∧
      OnlyModes (pipeline.openSession csd).notices := by
  cases hgraphics : pipeline.links.graphics with
  | false =>
    rw [openSession_of_no_graphics hgraphics]
    exact ⟨h.withEngine _ h.byHand _, rfl, .inl rfl⟩
  | true =>
    cases hfail : pipeline.engine.failNext with
    | true =>
      rw [openSession_of_failNext hgraphics hfail]
      exact ⟨h.withEngine { pipeline.engine with failNext := false } h.byHand _, rfl, .inl rfl⟩
    | false =>
      obtain ⟨dropped, hopen⟩ := openSession_of_graphics hgraphics hfail csd
      rw [hopen]
      refine ⟨⟨h.settings_eq, h.links_eq, h.byHand, h.free, h.clock, ?_, h.ended, h.past, ?_⟩, rfl,
        .inr rfl⟩
      · intro s pts frame hmem
        have hlt := h.opened s pts frame hmem
        simp only [Pipeline.sessions, hnone] at hlt ⊢
        exact Nat.lt_of_lt_of_le hlt (by simp)
      · intro session hcurrent
        cases hcurrent
        exact h.opened_follows hnone csd

theorem prepare (h : Follows settings links history pipeline) (csd : Bytes) :
    Follows settings links (history ++ endings pipeline (pipeline.prepare csd).value.2)
        (pipeline.prepare csd).value.2 ∧
      OnlyModes (pipeline.prepare csd).notices := by
  unfold Pipeline.prepare
  split
  · obtain ⟨hfollows, hpast, hmodes⟩ :=
      h.retire.openSession (Pipeline.retire_current pipeline) csd
    refine ⟨?_, hmodes⟩
    rw [endings, hpast]
    exact hfollows
  · refine ⟨?_, .inl rfl⟩
    rw [Outcome.value_pure, endings_of_length_eq rfl, List.append_nil]
    exact h

end Follows

/-- The notices before a buffer is filled are neither images nor submissions. -/
private theorem announcements_seen (pipeline : TrialPipeline) (buffer : Nat) (payload : Bytes)
    (frame : FrameIndex) (number : Nat) :
    imagesOf (pipeline.announcements buffer payload frame) = [] ∧
      submissionsOf number frame (pipeline.announcements buffer payload frame) = [] := by
  refine ⟨Pipeline.imagesOf_announcements .., ?_⟩
  unfold Pipeline.announcements
  split <;> split <;> rfl

namespace Follows

variable {settings : DecoderSettings} {links : Links} {history : List Occurrence}
  {pipeline : TrialPipeline} {session : Session SimulatedSession}

/-- What of a submission is seen: the picture, if it is one. -/
theorem submit (h : Follows settings links history pipeline)
    (hcurrent : pipeline.current = some session) {session' : Session SimulatedSession}
    (hsession : session'.Follows (mapCapacity settings) pipeline.past.length history)
    (buffer now : Nat) (payload : Bytes) (frame : FrameIndex) :
    let done := pipeline.submit session' buffer now payload frame
    let seen := submissionsOf pipeline.past.length frame done.notices
    Follows settings links (history ++ seen) done.value.2 ∧
      done.value.2.past = pipeline.past ∧ imagesOf done.notices = [] ∧
      Throughout (Explains links.latency (mapCapacity settings)) history seen := by
  obtain ⟨himages, hannounced⟩ :=
    announcements_seen pipeline buffer payload frame pipeline.past.length
  obtain hcapacity | hcapacity := session'.engine.capacity_cases
  · simp only [Pipeline.submit_of_error (ε := SimulatedEngine) hcapacity, hannounced, himages]
    refine ⟨?_, trivial, trivial, trivial⟩
    rw [List.append_nil]
    exact h.keepCurrent hcurrent hsession
  cases hconf : opensWithParameterSet pipeline.settings.codec payload with
  | true =>
    obtain ⟨hnotices, hsurface, hmode⟩ := Session.submit_byHand hsession.byHand buffer
      (payload.take SimulatedSession.bufferSize) 0 { configuration := true }
    simp only [Pipeline.submit_configuration (ε := SimulatedEngine) hcapacity hconf,
      hnotices, submissionsOf_append, submissionsOf_submit, imagesOf_append, imagesOf_submit,
      hannounced, himages, if_true, List.append_nil]
    refine ⟨?_, trivial, trivial, trivial⟩
    exact h.keepCurrent hcurrent (hsession.of_surface_eq hsurface hmode)
  | false =>
    have hlast : pipeline.clock.last < (pipeline.clock.next now).1 :=
      pipeline.clock.last_lt_next now
    have hset := hsession.submit (pipeline.clock.next now).1 frame
    obtain ⟨hnotices, hsurface, hmode⟩ := Session.submit_byHand hset.byHand buffer
      (payload.take SimulatedSession.bufferSize) (pipeline.clock.next now).1
      { keyframe := hasKeyframeSlice pipeline.settings.codec payload }
    simp only [Pipeline.submit_picture (ε := SimulatedEngine) hcapacity hconf,
      hnotices, submissionsOf_append, submissionsOf_submit, imagesOf_append, imagesOf_submit,
      hannounced, himages, Bool.false_eq_true, if_false, List.nil_append]
    refine ⟨?_, trivial, trivial, ?_, trivial⟩
    · refine h.withCurrent hcurrent (pipeline.clock.next now).2 (Nat.le_of_lt hlast)
        (hset.of_surface_eq hsurface hmode) ?_ (by simp)
      intro s pts' frame' hmem
      obtain ⟨rfl, rfl, rfl⟩ : s = pipeline.past.length ∧ pts' = (pipeline.clock.next now).1 ∧
        frame' = frame := by simpa using hmem
      exact ⟨rfl, Nat.le_refl _⟩
    · refine ⟨?_, by omega, fun s pts' frame' hmem => ?_⟩
      · rw [h.ended]
        omega
      · have hle := h.clock s pts' frame' hmem
        omega

/-- A picture that is submitted is the only thing that is seen of a delivery. -/
theorem deliver (h : Follows settings links history pipeline) (now : Nat) (payload : Bytes)
    (frame : FrameIndex) :
    let done := pipeline.deliver now payload frame
    let seen := submissionsOf pipeline.past.length frame done.notices
    Follows settings links (history ++ seen) done.value.2 ∧
      done.value.2.past = pipeline.past ∧ imagesOf done.notices = [] ∧
      Throughout (Explains links.latency (mapCapacity settings)) history seen := by
  obtain hdrop | ⟨session, buffer, inputs, hcurrent, -, -, hsubmit⟩ :=
    pipeline.deliver_cases now payload frame
  · simp only [hdrop]
    exact ⟨by simpa [submissionsOf] using h, rfl, rfl, trivial⟩
  · have hsession := h.current session hcurrent
    simp only [hsubmit]
    have hfewer : ({ session with inputs } : Session SimulatedSession).Follows
        (mapCapacity settings) pipeline.past.length history :=
      hsession.of_surface_eq rfl hsession.byHand
    exact h.submit hcurrent hfewer buffer now payload frame

end Follows

/-- An operation that goes along with a history. -/
structure Continues (settings : DecoderSettings) (links : Links) (history : List Occurrence)
    (pipeline : TrialPipeline) (operation : Operation) : Prop where
  follows : Follows settings links (history ++ pipeline.occurrences operation)
    (pipeline.perform operation).value
  explained : Throughout (Explains links.latency (mapCapacity settings)) history
    (pipeline.occurrences operation)
  images : imagesOf (pipeline.perform operation).notices =
    (pipeline.occurrences operation).flatMap Occurrence.images

theorem Continues.of_quiet {settings : DecoderSettings} {links : Links}
    {history : List Occurrence} {pipeline : TrialPipeline} {operation : Operation}
    (hfollows : Follows settings links history (pipeline.perform operation).value)
    (hseen : pipeline.occurrences operation = [])
    (himages : imagesOf (pipeline.perform operation).notices = []) :
    Continues settings links history pipeline operation := by
  constructor
  · rwa [hseen, List.append_nil]
  · rw [hseen]
    trivial
  · rwa [hseen]

namespace Follows

variable {settings : DecoderSettings} {links : Links} {history : List Occurrence}
  {pipeline : TrialPipeline} {session : Session SimulatedSession}

/-- Queueing a packet may end a session, and then may submit a picture to the current one. -/
theorem queue (h : Follows settings links history pipeline) (now : Nat) (packet : Bytes)
    (frame : FrameIndex) :
    Continues settings links history pipeline (.queue now packet frame) := by
  let csd := configurationPrefix pipeline.settings.codec packet
  let opened := pipeline.prepare csd
  let done := opened.value.2.deliver (Pipeline.delayed now opened.value.1)
    (Pipeline.payload csd packet) frame
  obtain ⟨hopened, hmodes⟩ := h.prepare csd
  obtain ⟨hdone, hpast, himages, hexplained⟩ := hopened.deliver
    (Pipeline.delayed now opened.value.1) (Pipeline.payload csd packet) frame
  have hqueue := Pipeline.queue_eq pipeline now packet frame
  have hvalue : (pipeline.perform (.queue now packet frame)).value = done.value.2 := by
    simp only [perform, hqueue, Outcome.value_bind, Outcome.value_pure]
    rfl
  have hnotices : (pipeline.perform (.queue now packet frame)).notices =
      opened.notices ++ done.notices := by
    simp only [perform, hqueue, Outcome.notices_bind, Outcome.notices_pure, List.append_nil]
    rfl
  have hseen : pipeline.occurrences (.queue now packet frame) =
      endings pipeline opened.value.2 ++
        submissionsOf opened.value.2.past.length frame done.notices := by
    have hquiet : submissionsOf opened.value.2.past.length frame opened.notices = [] :=
      hmodes.submissions ..
    have hlast : done.value.2.past = opened.value.2.past := hpast
    simp only [occurrences, hvalue, hnotices, submissionsOf_append, endings, hlast, hquiet,
      List.nil_append]
  constructor
  · rw [hvalue, hseen, ← List.append_assoc]
    exact hdone
  · rw [hseen]
    exact (throughout_endings _ (fun _ _ => trivial) ..).append hexplained
  · have hdevice : imagesOf done.notices = [] := himages
    rw [hnotices, hseen, imagesOf_append, hmodes.images, hdevice, List.flatMap_append,
      images_endings, images_submissionsOf]

/-- Where a slot holds nothing, or the session is over, presenting an image publishes nothing. -/
theorem throughout_seen {latency : Bool} {capacity number : Nat}
    (h : .ended number ∈ history ∨ ∀ slot, heldAfter capacity number slot history = none)
    (prompt : Prompt) :
    Throughout (Explains latency capacity) history (prompt.seen number []) := by
  cases prompt with
  | present pts =>
    refine ⟨?_, trivial⟩
    show [] = _
    rcases h with hended | hheld
    · rw [if_pos hended]
    · simp [hheld]
  | offer buffer => trivial
  | complete pts => trivial
  | fault => trivial

theorem elsewhere_seen (h : Follows settings links history pipeline) {number : Nat}
    {images : List DecodedImage}
    (hother : ∀ session, pipeline.current = some session → number ≠ pipeline.past.length)
    (prompt : Prompt) :
    Follows settings links (history ++ prompt.seen number images) pipeline := by
  cases prompt with
  | present pts =>
    apply h.addInert (by simp) (by simp)
    intro session hcurrent slot htouches
    exact hother session hcurrent htouches.1
  | offer buffer => simpa [Prompt.seen] using h
  | complete pts => simpa [Prompt.seen] using h
  | fault => simpa [Prompt.seen] using h

private theorem prompt_past (h : Follows settings links history pipeline) {number : Nat}
    (hpast : pipeline.past[number]? = some session) (prompt : Prompt) :
    Continues settings links history pipeline (.prompt number prompt) := by
  obtain ⟨hlt, -⟩ := List.getElem?_eq_some_iff.mp hpast
  obtain ⟨hquiet, hsurface⟩ :=
    Session.prompted_of_shut (h.past session (List.mem_of_getElem? hpast)) prompt
  have hperform := perform_prompt_past hpast prompt
  have hnotices : (pipeline.perform (.prompt number prompt)).notices = [] := by
    simp [hperform, hquiet]
  have hseen : pipeline.occurrences (.prompt number prompt) = prompt.seen number [] := by
    rw [occurrences_prompt (by simp [hperform]), hnotices]
    rfl
  constructor
  · rw [hseen, hperform]
    apply (h.withPast hpast hsurface).elsewhere_seen
    intro later hlater
    simp only [List.length_set]
    exact Nat.ne_of_lt hlt
  · rw [hseen]
    exact throughout_seen (.inl ((h.ended number).mpr hlt)) prompt
  · rw [hseen, hnotices, Prompt.images_seen_nil]
    rfl

theorem prompt_none (h : Follows settings links history pipeline) {number : Nat}
    (hpast : pipeline.past[number]? = none)
    (hother : ∀ session, pipeline.current = some session → number ≠ pipeline.past.length)
    (prompt : Prompt) : Continues settings links history pipeline (.prompt number prompt) := by
  have hperform := perform_prompt_none hpast hother prompt
  have hseen : pipeline.occurrences (.prompt number prompt) = prompt.seen number [] := by
    rw [occurrences_prompt (by rw [hperform]; rfl), hperform]
    rfl
  constructor
  · rw [hseen, hperform]
    exact h.elsewhere_seen hother prompt
  · rw [hseen]
    apply throughout_seen
    refine .inr fun slot => heldAfter_of_not_submitted fun pts frame hmem => ?_
    have hopened := h.opened number pts frame hmem
    have hle : pipeline.past.length ≤ number := List.getElem?_eq_none_iff.mp hpast
    cases hcurrent : pipeline.current with
    | none =>
      simp only [Pipeline.sessions, hcurrent, Option.toList_none, List.append_nil] at hopened
      omega
    | some session =>
      have hne := hother session hcurrent
      simp only [Pipeline.sessions, hcurrent, Option.toList_some, List.length_append,
        List.length_singleton] at hopened
      omega
  · rw [hseen, hperform, Prompt.images_seen_nil]
    rfl

/-- An image of the current session takes the frame out of its slot. -/
private theorem prompt_present (h : Follows settings links history pipeline)
    (hcurrent : pipeline.current = some session) (pts : Nat) :
    Continues settings links history pipeline (.prompt pipeline.past.length (.present pts)) := by
  have hsession := h.current session hcurrent
  let image := SimulatedSession.imageByHand pts
  let images := session.surface.published image
  have hperform := perform_prompt_current hcurrent (.present pts)
  rw [Session.prompted_present hsession.idle] at hperform
  have hnotices : imagesOf
      (pipeline.perform (.prompt pipeline.past.length (.present pts))).notices = images := by
    rw [hperform, Outcome.notices_bind, Outcome.notices_pure, List.append_nil]
    exact imagesOf_map images
  have hseen : pipeline.occurrences (.prompt pipeline.past.length (.present pts)) =
      [.presented pipeline.past.length image images] := by
    rw [occurrences_prompt (by rw [hperform]; rfl), hnotices]
    rfl
  constructor
  · rw [hseen, hperform]
    exact h.withCurrent hcurrent pipeline.clock (Nat.le_refl _) (hsession.present image images)
      (by simp) (by simp)
  · rw [hseen]
    refine ⟨?_, trivial⟩
    have hnot : .ended pipeline.past.length ∉ history := by
      rw [h.ended]
      omega
    show session.surface.published _ = _
    rw [if_neg hnot, Surface.published, hsession.slots]
  · rw [hseen, hnotices]
    exact (List.append_nil images).symm

private theorem prompt_current (h : Follows settings links history pipeline)
    (hcurrent : pipeline.current = some session) (prompt : Prompt) :
    Continues settings links history pipeline (.prompt pipeline.past.length prompt) := by
  by_cases hpresent : ∃ pts, prompt = .present pts
  · obtain ⟨pts, rfl⟩ := hpresent
    exact h.prompt_present hcurrent pts
  have hprompt : ∀ pts, prompt ≠ .present pts := fun pts heq => hpresent ⟨pts, heq⟩
  have hsession := h.current session hcurrent
  obtain ⟨hquiet, hsurface, hengine⟩ := Session.prompted_of_not_present hsession.idle hprompt
  have hperform := perform_prompt_current hcurrent prompt
  apply Continues.of_quiet
  · rw [hperform]
    apply h.keepCurrent hcurrent
    apply hsession.of_surface_eq hsurface
    rw [hengine, SimulatedSession.prompt_mode]
    exact hsession.byHand
  · rw [occurrences_prompt (by rw [hperform]; rfl), Prompt.seen_of_not_present hprompt]
  · simp [hperform, hquiet]

/-- Whatever a session is prompted to report, in the current session only an image counts, and in
the others nothing does. -/
theorem prompt (h : Follows settings links history pipeline) (number : Nat) (prompt : Prompt) :
    Continues settings links history pipeline (.prompt number prompt) := by
  cases hpast : pipeline.past[number]? with
  | some session => exact h.prompt_past hpast prompt
  | none =>
    by_cases hnumber : number = pipeline.past.length
    · subst hnumber
      cases hcurrent : pipeline.current with
      | some session => exact h.prompt_current hcurrent prompt
      | none => exact h.prompt_none hpast (by simp [hcurrent]) prompt
    · exact h.prompt_none hpast (fun _ _ => hnumber) prompt

/-- An output that is handled reports what its slot holds. -/
private theorem handle_cons (h : Follows settings links history pipeline)
    (hcurrent : pipeline.current = some session) {event : Event} {rest : List Event}
    (hevents : session.events = event :: rest) :
    Continues settings links history pipeline .handle := by
  have hsession := h.current session hcurrent
  -- An engine that is worked by hand reports no image of its own here: the surface is left alone.
  obtain ⟨engine, notices, hmode, himages, hreports, hhandle⟩ :=
    Session.handle_byHand hsession.byHand pipeline.links.latency event
  have hperform := perform_handle hcurrent hsession.idle hevents (hhandle session.events)
  have hkept : Follows settings links history (pipeline.perform .handle).value := by
    rw [hperform]
    exact h.keepCurrent hcurrent (hsession.of_surface_eq rfl hmode)
  have hnotices : (pipeline.perform .handle).notices = notices := by rw [hperform]
  have hended : endings pipeline (pipeline.perform .handle).value = [] := by simp [hperform]
  cases event with
  | output buffer pts =>
    have hseen : pipeline.occurrences .handle =
        [.handled pipeline.past.length pts (reportsOf notices)] := by
      simp only [occurrences, hended, hnotices, hcurrent, Option.bind_some, hevents,
        List.head?_cons, List.nil_append]
    constructor
    · rw [hseen]
      exact hkept.addInert (by simp) (by simp) fun _ _ _ => id
    · rw [hseen]
      refine ⟨?_, trivial⟩
      show reportsOf notices = _
      rw [hreports buffer pts rfl, h.links_eq, hsession.slots]
    · rw [hseen, hnotices, himages]
      rfl
  | formatChanged =>
    apply Continues.of_quiet hkept
    · simp [occurrences, hended, hcurrent, hevents]
    · rw [hnotices, himages]
  | fault =>
    apply Continues.of_quiet hkept
    · simp [occurrences, hended, hcurrent, hevents]
    · rw [hnotices, himages]

theorem handle_quiet (h : Follows settings links history pipeline)
    (hquiet : pipeline.current.bind (·.events.head?) = none)
    (hperform : pipeline.perform .handle = pure pipeline) :
    Continues settings links history pipeline .handle := by
  apply Continues.of_quiet
  · rw [hperform]
    exact h
  · simp [occurrences, hperform, hquiet]
  · rw [hperform]
    rfl

theorem handle (h : Follows settings links history pipeline) :
    Continues settings links history pipeline .handle := by
  cases hcurrent : pipeline.current with
  | none =>
    apply h.handle_quiet (by simp [hcurrent])
    simp only [perform, hcurrent]
  | some session =>
    cases hevents : session.events with
    | nil =>
      apply h.handle_quiet (by simp [hcurrent, hevents])
      have hsame : { pipeline with current := some session } = pipeline := by rw [← hcurrent]
      simp only [perform, hcurrent, Session.handleNext, hevents]
      exact congrArg (fun later => (pure later : Outcome TrialPipeline)) hsame
    | cons event rest => exact h.handle_cons hcurrent hevents

theorem failNext (h : Follows settings links history pipeline) :
    Continues settings links history pipeline .failNext := by
  have hfailing : Follows settings links history (pipeline.perform .failNext).value :=
    h.withEngine { pipeline.engine with failNext := true } h.byHand pipeline.idle
  exact .of_quiet hfailing (by simp [occurrences, TrialPipeline.perform]) rfl

theorem stop (h : Follows settings links history pipeline) :
    Continues settings links history pipeline .stop := by
  have hretired := h.retire
  have hseen : pipeline.occurrences .stop = endings pipeline pipeline.retire := by
    simp [occurrences, perform, Pipeline.stop, endings]
  constructor
  · rw [hseen]
    exact hretired.withEngine pipeline.retire.engine hretired.byHand .stopped
  · rw [hseen]
    exact throughout_endings _ (fun _ _ => trivial) ..
  · rw [hseen, images_endings]
    rfl

theorem perform (h : Follows settings links history pipeline) (operation : Operation) :
    Continues settings links history pipeline operation := by
  cases operation with
  | queue now packet frame => exact h.queue now packet frame
  | prompt number prompt => exact h.prompt number prompt
  | handle => exact h.handle
  | failNext => exact h.failNext
  | stop => exact h.stop

/-- What is seen of a run is explained by what was seen before. -/
theorem throughout_history (h : Follows settings links history pipeline)
    (operations : List Operation) :
    Throughout (Explains links.latency (mapCapacity settings)) history
      (pipeline.history operations) := by
  induction operations generalizing history pipeline with
  | nil => trivial
  | cons operation rest ih =>
    have hcontinues := h.perform operation
    exact hcontinues.explained.append (ih hcontinues.follows)

/-- No image reaches the graphics device in a run but for one that was presented. -/
theorem imagesOf_run (h : Follows settings links history pipeline) (operations : List Operation) :
    imagesOf (pipeline.run operations).notices =
      (pipeline.history operations).flatMap Occurrence.images := by
  induction operations generalizing history pipeline with
  | nil => rfl
  | cons operation rest ih =>
    have hcontinues := h.perform operation
    have hrest := ih hcontinues.follows
    rw [run_cons, Outcome.notices_bind, imagesOf_append, hcontinues.images,
      TrialPipeline.history, List.flatMap_append]
    exact congrArg (_ ++ ·) hrest

end Follows

end TrialPipeline

end HeadsetStream.Decoder
