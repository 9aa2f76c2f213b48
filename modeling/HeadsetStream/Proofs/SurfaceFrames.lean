import HeadsetStream.Proofs.PacketQueue

/-!
# The frames that a surface shows

Whatever a session does, its surface publishes nothing but frames out of its own frame map. An
outcome is described here by what its value fulfils and what each of its notices does, so that
descriptions of steps compose into one of a whole operation, for any engine.
-/

namespace HeadsetStream

namespace Outcome

variable {α β : Type} {P : α → Prop} {Q : β → Prop} {N M : Notice → Prop}

private theorem silent_bind (a : α) (next : α → Outcome β) :
    ((⟨a, []⟩ : Outcome α) >>= next) = next a := rfl

/-- The value fulfils the one and each notice the other. -/
def Ensures (outcome : Outcome α) (P : α → Prop) (N : Notice → Prop) : Prop :=
  P outcome.value ∧ ∀ notice ∈ outcome.notices, N notice

theorem Ensures.of_pure {a : α} (h : P a) : (pure a : Outcome α).Ensures P N :=
  ⟨h, fun _ hmem => absurd hmem List.not_mem_nil⟩

theorem Ensures.bind {outcome : Outcome α} {next : α → Outcome β} (h : outcome.Ensures P N)
    (hnext : ∀ a, P a → (next a).Ensures Q N) : (outcome >>= next).Ensures Q N := by
  obtain ⟨hvalue, hnotices⟩ := h
  obtain ⟨hvalue', hnotices'⟩ := hnext outcome.value hvalue
  refine ⟨hvalue', fun notice hmem => ?_⟩
  rcases List.mem_append.mp hmem with hmem | hmem
  · exact hnotices notice hmem
  · exact hnotices' notice hmem

theorem Ensures.imp {P' : α → Prop} {outcome : Outcome α} (h : outcome.Ensures P N)
    (hvalue : ∀ a, P a → P' a) (hsaid : ∀ notice, N notice → M notice) : outcome.Ensures P' M :=
  ⟨hvalue _ h.1, fun notice hmem => hsaid notice (h.2 notice hmem)⟩

end Outcome

/-- Hands an image of one of these frames to the graphics device. -/
def Notice.Shows (owned : Video.FrameIndex → Prop) (notice : Notice) : Prop :=
  ∃ decoded, notice = .image decoded ∧ owned decoded.frame

/-- Hands an image to the graphics device only if it is one of these frames. -/
def Notice.Keeps (owned : Video.FrameIndex → Prop) (notice : Notice) : Prop :=
  ∀ decoded, notice = .image decoded → owned decoded.frame

theorem Notice.Shows.keeps {owned : Video.FrameIndex → Prop} {notice : Notice}
    (h : notice.Shows owned) : notice.Keeps owned := by
  rintro decoded rfl
  obtain ⟨shown, heq, howned⟩ := h
  cases heq
  exact howned

theorem Outcome.ensures_say {owned : Video.FrameIndex → Prop} {notice : Notice}
    (h : notice.image? = none) : (Outcome.say notice).Ensures (fun _ => True)
      (Notice.Keeps owned) := by
  refine ⟨trivial, fun said hmem decoded heq => ?_⟩
  obtain rfl := List.mem_singleton.mp hmem
  rw [heq] at h
  exact nomatch h

end HeadsetStream

namespace HeadsetStream.Decoder
open Video Bitstream

namespace Surface

/-- All frames that the surface holds are of this kind. -/
structure Carries (surface : Surface) (owned : FrameIndex → Prop) : Prop where
  slots : ∀ pts frame, surface.frames.get? pts = some frame → owned frame
  publishing : ∀ decoded, surface.publishing = some decoded → owned decoded.frame

/-- What is left alone when images are taken over. -/
structure Alike (before after : Surface) : Prop where
  busy : after.busy = before.busy
  closed : after.closed = before.closed
  closing : after.closing = before.closing
  publishing : before.busy = false → after.publishing = before.publishing

/-- A surface that is closed has come to its end. -/
def Ended (surface : Surface) : Prop := surface.closed = true → surface.Shut

variable {surface later : Surface} {owned owned' : FrameIndex → Prop}

theorem Alike.refl (surface : Surface) : surface.Alike surface := ⟨rfl, rfl, rfl, fun _ => rfl⟩

theorem Alike.trans {last : Surface} (h : surface.Alike later) (h' : later.Alike last) :
    surface.Alike last :=
  ⟨h'.busy.trans h.busy, h'.closed.trans h.closed, h'.closing.trans h.closing,
    fun hbusy => (h'.publishing (h.busy.trans hbusy)).trans (h.publishing hbusy)⟩

theorem Carries.imp (h : surface.Carries owned) (himp : ∀ frame, owned frame → owned' frame) :
    surface.Carries owned' :=
  ⟨fun pts frame hframe => himp frame (h.slots pts frame hframe),
    fun decoded hdecoded => himp decoded.frame (h.publishing decoded hdecoded)⟩

private theorem carries_fresh (capacity : Nat) (busy : Bool) (owned : FrameIndex → Prop) :
    ({ frames := .empty capacity, busy } : Surface).Carries owned :=
  ⟨by simp, by simp⟩

theorem Carries.set (h : surface.Carries owned) (pts : Nat) {frame : FrameIndex}
    (hframe : owned frame) :
    ({ surface with frames := surface.frames.set pts frame } : Surface).Carries owned := by
  refine ⟨fun pts' frame' hget => ?_, h.publishing⟩
  rw [FrameMap.get?_set] at hget
  split at hget
  · obtain ⟨rfl, -⟩ := FrameIndex.named?_eq_some_iff.mp hget
    exact hframe
  · exact h.slots pts' frame' hget

theorem Carries.take (h : surface.Carries owned) (pts : Nat) :
    ({ surface with frames := (surface.frames.take pts).2 } : Surface).Carries owned := by
  refine ⟨fun pts' frame hget => ?_, h.publishing⟩
  rw [FrameMap.get?_take] at hget
  split at hget
  · exact nomatch hget
  · exact h.slots pts' frame hget

/-- An image is resolved to a frame of the map, or to none. -/
theorem Carries.resolve (h : surface.Carries owned) (image : SurfaceImage) :
    (∀ decoded, (surface.resolve image).1 = some decoded → owned decoded.frame) ∧
      (surface.resolve image).2.Carries owned ∧ surface.Alike (surface.resolve image).2 := by
  refine ⟨?_, h.take image.pts, ⟨rfl, rfl, rfl, fun _ => rfl⟩⟩
  intro decoded hdecoded
  obtain ⟨frame, hframe, rfl⟩ := Option.map_eq_some_iff.mp hdecoded
  exact h.slots image.pts frame hframe

/-- Taking images over shows frames of the map only. The induction is on the images: each one
empties its slot, and the last one may stay with the device. -/
theorem Carries.takeOver (h : surface.Carries owned) (images : List SurfaceImage) :
    (surface.takeOver images).Ensures (fun later => later.Carries owned ∧ surface.Alike later)
      (Notice.Shows owned) := by
  induction images generalizing surface with
  | nil => exact .of_pure ⟨⟨h.slots, h.publishing⟩, ⟨rfl, rfl, rfl, fun _ => rfl⟩⟩
  | cons image rest ih =>
    obtain ⟨hdecoded, hcarries, halike⟩ := h.resolve image
    rw [Surface.takeOver]
    generalize surface.resolve image = resolved at *
    obtain ⟨_ | decoded, later⟩ := resolved
    · exact (ih hcarries).imp (fun last hlast => ⟨hlast.1, halike.trans hlast.2⟩) fun _ => id
    · dsimp only
      split
      case isTrue hbusy =>
        refine .of_pure ⟨⟨hcarries.slots, ?_⟩, ?_⟩
        · rintro shown ⟨⟩
          exact hdecoded decoded rfl
        · refine ⟨halike.busy, halike.closed, halike.closing, fun hfree => ?_⟩
          rw [← halike.busy, hbusy] at hfree
          cases hfree
      case isFalse =>
        have hsaid : (Outcome.say (.image decoded)).Ensures (fun _ => True)
            (Notice.Shows owned) := by
          refine ⟨trivial, fun notice hmem => ?_⟩
          obtain rfl := List.mem_singleton.mp hmem
          exact ⟨decoded, rfl, hdecoded decoded rfl⟩
        exact hsaid.bind fun _ _ =>
          (ih hcarries).imp (fun last hlast => ⟨hlast.1, halike.trans hlast.2⟩) fun _ => id

theorem Carries.settle (h : surface.Carries owned) :
    surface.settle.Ensures (fun later => later.Carries owned ∧ surface.Alike later)
      (Notice.Shows owned) := by
  unfold Surface.settle
  split
  · exact .of_pure ⟨h, .refl surface⟩
  · exact h.takeOver surface.waiting

theorem Carries.offer (h : surface.Carries owned) (image : SurfaceImage) :
    (surface.offer image).Ensures (fun later => later.2.Carries owned ∧ surface.Alike later.2)
      (Notice.Shows owned) := by
  have hlast : ∀ later, later.Carries owned ∧ surface.Alike later →
      (if later.waiting.length < depth then
          pure (true, { later with waiting := later.waiting ++ [image] })
        else pure (false, later) : Outcome (Bool × Surface)).Ensures
        (fun last => last.2.Carries owned ∧ surface.Alike last.2) (Notice.Shows owned) := by
    rintro later ⟨hcarries, halike⟩
    split
    · exact .of_pure ⟨⟨hcarries.slots, hcarries.publishing⟩,
        ⟨halike.busy, halike.closed, halike.closing, halike.publishing⟩⟩
    · exact .of_pure ⟨hcarries, halike⟩
  unfold Surface.offer
  split
  · exact .of_pure ⟨h, .refl surface⟩
  · dsimp only
    split
    · exact (Outcome.Ensures.of_pure ⟨h, .refl surface⟩).bind hlast
    · exact h.settle.bind hlast

theorem Carries.close (h : surface.Carries owned) : surface.close.Carries owned := by
  unfold Surface.close
  split <;> exact ⟨h.slots, h.publishing⟩

theorem Carries.hold (h : surface.Carries owned) : surface.hold.Carries owned :=
  ⟨h.slots, h.publishing⟩

theorem Carries.resume (h : surface.Carries owned) :
    surface.resume.Ensures (fun later => later.Carries owned) (Notice.Keeps owned) := by
  have hfree : ({ surface with busy := false, publishing := none } : Surface).Carries owned :=
    ⟨h.slots, by simp⟩
  have hrest : ({ surface with busy := false, publishing := none } : Surface).settle.Ensures
      (fun later => later.Carries owned) (Notice.Keeps owned) :=
    hfree.settle.imp (fun _ hlater => hlater.1) fun _ hsaid => hsaid.keeps
  have hlast : ∀ later : Surface, later.Carries owned →
      (pure (if later.closing then later.close else later) : Outcome Surface).Ensures
        (fun last => last.Carries owned) (Notice.Keeps owned) := by
    intro later hlater
    refine .of_pure ?_
    split
    · exact hlater.close
    · exact hlater
  unfold Surface.resume
  cases hpublishing : surface.publishing with
  | none => exact hrest.bind hlast
  | some decoded =>
    have hsaid : (Outcome.say (.image decoded)).Ensures (fun _ => True) (Notice.Keeps owned) := by
      refine ⟨trivial, fun notice hmem shown heq => ?_⟩
      obtain rfl := List.mem_singleton.mp hmem
      cases heq
      exact h.publishing decoded hpublishing
    exact hsaid.bind fun _ _ => hrest.bind hlast

theorem Alike.ended (h : surface.Alike later) (hopen : surface.closed = false) : later.Ended := by
  intro hclosed
  rw [h.closed, hopen] at hclosed
  exact nomatch hclosed

theorem carries_any (surface : Surface) : surface.Carries fun _ => True :=
  ⟨fun _ _ _ => trivial, fun _ _ => trivial⟩

theorem alike_settle (surface : Surface) : surface.Alike surface.settle.value :=
  surface.carries_any.settle.1.2

theorem alike_offer (surface : Surface) (image : SurfaceImage) :
    surface.Alike (surface.offer image).value.2 :=
  (surface.carries_any.offer image).1.2

theorem Ended.settle (h : surface.Ended) : surface.settle.value.Ended := by
  cases hclosed : surface.closed with
  | true =>
    rw [(h hclosed).settle]
    exact h
  | false => exact (alike_settle surface).ended hclosed

theorem Ended.offer (h : surface.Ended) (image : SurfaceImage) :
    (surface.offer image).value.2.Ended := by
  cases hclosed : surface.closed with
  | true =>
    rw [offer_closed hclosed]
    exact h
  | false => exact (alike_offer surface image).ended hclosed

theorem Ended.close (h : surface.Ended) : surface.close.Ended := by
  unfold Surface.close
  split
  case isTrue hpublishing =>
    intro hclosed
    rw [(h hclosed).nothingPublishing] at hpublishing
    exact nomatch hpublishing
  case isFalse hpublishing =>
    exact fun _ => ⟨by simpa using hpublishing, rfl, rfl⟩

theorem Ended.hold (h : surface.Ended) : surface.hold.Ended :=
  fun hclosed => ⟨(h hclosed).nothingPublishing, (h hclosed).nothingWaiting, hclosed⟩

theorem Ended.resume (h : surface.Ended) : surface.resume.value.Ended := by
  let free : Surface := { surface with busy := false, publishing := none }
  have hfree : free.Ended :=
    fun hclosed => ⟨rfl, (h hclosed).nothingWaiting, hclosed⟩
  have hresume : surface.resume.value =
      if free.settle.value.closing then free.settle.value.close else free.settle.value := by
    unfold Surface.resume
    cases surface.publishing <;> rfl
  rw [hresume]
  split
  · exact hfree.settle.close
  · exact hfree.settle

end Surface

namespace Session

variable {ε σ : Type} {session : Session σ} {owned owned' : FrameIndex → Prop}

/-- The session shows these frames only, and once it is closed nothing any more. -/
structure Owns (session : Session σ) (owned : FrameIndex → Prop) : Prop where
  carries : session.surface.Carries owned
  ended : session.surface.Ended

theorem Owns.imp (h : session.Owns owned) (himp : ∀ frame, owned frame → owned' frame) :
    session.Owns owned' :=
  ⟨h.carries.imp himp, h.ended⟩

/-- What hearing one report keeps, hearing all of them does. -/
theorem hearAll_ensures {P : Session σ → Prop} {N : Notice → Prop}
    (step : ∀ session report, P session →
      (session.hear report).Ensures (fun heard => P heard.2) N)
    (h : P session) (reports : List Callback) :
    (session.hearAll reports).Ensures (fun heard => P heard.2) N := by
  induction reports generalizing session with
  | nil => exact .of_pure h
  | cons report rest ih =>
    obtain ⟨hheard, hsaid⟩ := step session report h
    obtain ⟨hrest, hsaid'⟩ := ih hheard
    obtain ⟨hvalue, hnotices⟩ := session.hearAll_cons report rest
    refine ⟨?_, ?_⟩
    · show P (session.hearAll (report :: rest)).value.2
      rw [hvalue]
      exact hrest
    · rw [hnotices]
      intro notice hmem
      rcases List.mem_append.mp hmem with hmem | hmem
      · exact hsaid notice hmem
      · exact hsaid' notice hmem

theorem hear_of_carries (h : session.surface.Carries owned) (report : Callback) :
    (session.hear report).Ensures (fun heard => heard.2.surface.Carries owned)
      (Notice.Shows owned) := by
  by_cases himage : report.isImage = true
  · obtain ⟨image, rfl⟩ : ∃ image, report = .image image := by
      cases report <;> simp_all [Callback.isImage]
    unfold Session.hear
    split
    · exact .of_pure h
    · exact (h.offer image).bind fun _ hlater => .of_pure hlater.1
  · obtain ⟨hnotices, hsurface⟩ := hear_of_not_image (by simpa using himage) session
    refine ⟨?_, by simp [hnotices]⟩
    show (session.hear report).value.2.surface.Carries owned
    rwa [hsurface]

private theorem ended_hear (h : session.surface.Ended) (report : Callback) :
    (session.hear report).value.2.surface.Ended := by
  by_cases himage : report.isImage = true
  · obtain ⟨image, rfl⟩ : ∃ image, report = .image image := by
      cases report <;> simp_all [Callback.isImage]
    unfold Session.hear
    split
    · exact h
    · exact h.offer image
  · rw [(hear_of_not_image (by simpa using himage) session).2]
    exact h

theorem Owns.hearAll (h : session.Owns owned) (reports : List Callback) :
    (session.hearAll reports).Ensures (fun heard => heard.2.Owns owned) (Notice.Shows owned) := by
  refine hearAll_ensures (P := fun later : Session σ => later.Owns owned) ?_ h reports
  intro later report hlater
  have hheard := hear_of_carries hlater.carries report
  exact ⟨⟨hheard.1, ended_hear hlater.ended report⟩, hheard.2⟩

/-- What an engine replies with has its session show nothing else either. -/
theorem Owns.replied (h : session.Owns owned) (engine : σ) (reports : List Callback) :
    (({ session with engine } : Session σ).hearAll reports).Ensures
      (fun heard => heard.2.Owns owned) (Notice.Keeps owned) := by
  have hreplied : ({ session with engine } : Session σ).Owns owned := ⟨h.carries, h.ended⟩
  exact (hreplied.hearAll reports).imp (fun _ => id) fun _ hsaid => hsaid.keeps

/-- Whatever is reported, hearing it tells of images only. -/
theorem image_of_mem_hearAll (reports : List Callback) {notice : Notice}
    (h : notice ∈ (session.hearAll reports).notices) : ∃ decoded, notice = .image decoded := by
  have hheard := hearAll_ensures (fun _ report hcarries => hear_of_carries hcarries report)
    session.surface.carries_any reports
  obtain ⟨decoded, heq, -⟩ := hheard.2 notice h
  exact ⟨decoded, heq⟩

theorem Owns.settle (h : session.Owns owned) :
    session.settle.Ensures (fun later => later.Owns owned) (Notice.Keeps owned) := by
  have hsettle := h.carries.settle
  have hended := h.ended.settle
  refine ⟨⟨hsettle.1.1, hended⟩, fun notice hmem => (hsettle.2 notice ?_).keeps⟩
  simpa [Session.settle] using hmem

theorem Owns.named (h : session.Owns owned) (pts : Nat) {frame : FrameIndex}
    (hframe : owned frame) :
    (session.withFrames (session.surface.frames.set pts frame)).Owns owned :=
  ⟨h.carries.set pts hframe, fun hclosed =>
    have hshut := h.ended hclosed
    ⟨hshut.nothingPublishing, hshut.nothingWaiting, hshut.isClosed⟩⟩

/-- A session that was just opened holds no frame. -/
theorem owns_fresh (csd : Bytes) (engine : σ) (capacity : Nat) (busy : Bool) :
    ({ csd, engine, surface := { frames := .empty capacity, busy } } : Session σ).Owns
      fun _ => False :=
  ⟨Surface.carries_fresh _ _ _, fun hclosed => nomatch hclosed⟩

theorem Owns.hold (h : session.Owns owned) :
    ({ session with surface := session.surface.hold } : Session σ).Owns owned :=
  ⟨h.carries.hold, h.ended.hold⟩

variable [Engine ε σ]

theorem Owns.start (h : session.Owns owned) :
    (session.start (ε := ε)).Ensures (fun started => started.2.2.Owns owned)
      (Notice.Shows owned) := by
  let reply := Engine.start ε session.engine
  have hreplied : ({ session with engine := reply.session } : Session σ).Owns owned :=
    ⟨h.carries, h.ended⟩
  unfold Session.start
  exact (hreplied.hearAll reply.reports).bind fun _ hheard => .of_pure hheard

/-- A session without frames has nothing to show when it starts. -/
theorem Owns.start_quiet (h : session.Owns fun _ => False) :
    (session.start (ε := ε)).notices = [] := by
  rw [List.eq_nil_iff_forall_not_mem]
  intro notice hmem
  obtain ⟨decoded, -, hfalse⟩ := (h.start (ε := ε)).2 notice hmem
  exact hfalse

theorem Owns.submit (h : session.Owns owned) (buffer : Nat) (data : Bytes) (pts : Nat)
    (flags : BufferFlags) :
    (session.submit (ε := ε) buffer data pts flags).Ensures (fun done => done.2.Owns owned)
      (Notice.Keeps owned) := by
  unfold Session.submit
  exact (Outcome.ensures_say rfl).bind fun _ _ =>
    (h.replied _ _).bind fun _ hlater => .of_pure hlater

theorem Owns.release (h : session.Owns owned) (buffer : Nat) (render : Bool) :
    (session.release (ε := ε) buffer render).Ensures (fun released => released.2.2.Owns owned)
      (Notice.Keeps owned) := by
  unfold Session.release
  exact (Outcome.ensures_say rfl).bind fun _ _ =>
    (h.replied _ _).bind fun _ hlater => .of_pure hlater

theorem Owns.handle (h : session.Owns owned) (latency : Bool) (event : Event) :
    (session.handle (ε := ε) latency event).Ensures (fun handled => handled.2.Owns owned)
      (Notice.Keeps owned) := by
  cases event with
  | formatChanged => exact .of_pure h
  | fault => exact .of_pure h
  | output buffer pts =>
    obtain ⟨hreleased, hsaid⟩ := h.release (ε := ε) buffer true
    rw [handle_output]
    refine ⟨hreleased, fun notice hmem => ?_⟩
    rcases List.mem_append.mp hmem with hmem | hmem
    · obtain ⟨frame, -, rfl⟩ := List.mem_map.mp hmem
      exact fun decoded heq => nomatch heq
    · exact hsaid notice hmem

theorem Owns.handleAll (h : session.Owns owned) (latency : Bool) (events : List Event) :
    (session.handleAll (ε := ε) latency events).Ensures (fun later => later.Owns owned)
      (Notice.Keeps owned) := by
  induction events generalizing session with
  | nil => exact .of_pure ⟨h.carries, h.ended⟩
  | cons event rest ih =>
    unfold Session.handleAll
    refine (h.handle latency event).bind fun handled hhandled => ?_
    dsimp only
    split
    · exact .of_pure ⟨hhandled.carries, hhandled.ended⟩
    · exact ih hhandled

theorem Owns.drain (h : session.Owns owned) (latency : Bool) :
    (session.drain (ε := ε) latency).Ensures (fun later => later.Owns owned)
      (Notice.Keeps owned) := by
  unfold Session.drain
  exact (h.handleAll latency session.events).bind fun _ hhandled => hhandled.settle

theorem Owns.finish (h : session.Owns owned) : (session.finish (ε := ε)).Owns owned := by
  unfold Session.finish
  split <;> exact ⟨h.carries, h.ended⟩

theorem Owns.shutdown (h : session.Owns owned) : (session.shutdown (ε := ε)).Owns owned :=
  Owns.finish ⟨h.carries.close, h.ended.close⟩

theorem Owns.resume (h : session.Owns owned) :
    (session.resume (ε := ε)).Ensures (fun later => later.Owns owned) (Notice.Keeps owned) := by
  have hresume := h.carries.resume
  have hended := h.ended.resume
  let resumed : Session σ := { session with surface := session.surface.resume.value }
  have hresumed : resumed.Owns owned := ⟨hresume.1, hended⟩
  have hvalue : (session.resume (ε := ε)).value =
      if session.surface.closing then resumed.finish (ε := ε) else resumed := rfl
  refine ⟨?_, fun notice hmem => hresume.2 notice ?_⟩
  · rw [hvalue]
    split
    · exact hresumed.finish
    · exact hresumed
  · simpa [Session.resume] using hmem

end Session

namespace Pipeline

variable {ε σ : Type} [Engine ε σ]

theorem launch_of_start (pipeline : Pipeline ε σ) {session started : Session σ}
    {result : Except DecoderError Unit} {dropped : Nat}
    (h : session.start (ε := ε) = ⟨(result, dropped, started), []⟩) :
    pipeline.launch session =
      if result.isOk && started.state = .configuring then
        ⟨(dropped, { pipeline with current := some { started with state := .running } }),
          [.renderMode .video]⟩
      else
        ⟨(dropped, { pipeline with
          past := pipeline.past ++ [started.shutdown (ε := ε)]
          idle := .error }), []⟩ := by
  rw [launch, h, Outcome.silent_bind]
  dsimp only
  split <;> rfl

/-- A session without frames that is launched is current then, or over. -/
private theorem launch_cases (pipeline : Pipeline ε σ) {session : Session σ}
    (hnone : session.Owns fun _ => False) :
    (∀ notice ∈ (pipeline.launch session).notices, notice = .renderMode .video) ∧
      ∃ started : Session σ, (started.Owns fun _ => False) ∧
        ((pipeline.launch session).value.2 = { pipeline with current := some started } ∨
          (pipeline.launch session).value.2 =
            { pipeline with
              past := pipeline.past ++ [started.shutdown (ε := ε)]
              idle := .error }) := by
  have hstarted := (hnone.start (ε := ε)).1
  rcases hvalue : (session.start (ε := ε)).value with ⟨result, dropped, started⟩
  rw [hvalue] at hstarted
  rw [pipeline.launch_of_start (Outcome.ext hvalue hnone.start_quiet)]
  split
  · refine ⟨by simp, { started with state := .running }, ⟨hstarted.carries, hstarted.ended⟩, ?_⟩
    exact .inl rfl
  · exact ⟨by simp, started, hstarted, .inr rfl⟩

/-- Opening a session shows nothing yet. There is no new session, or it is current, or over. -/
theorem openSession_cases (pipeline : Pipeline ε σ) (csd : Bytes) :
    (∀ notice ∈ (pipeline.openSession csd).notices, notice = .renderMode .video) ∧
      ∃ (engine : ε) (idle : SessionState),
        (pipeline.openSession csd).value.2 = { pipeline with engine, idle } ∨
        ∃ started : Session σ, (started.Owns fun _ => False) ∧
          ((pipeline.openSession csd).value.2 =
              { pipeline with engine, idle, current := some started } ∨
            (pipeline.openSession csd).value.2 =
              { pipeline with
                engine, idle, past := pipeline.past ++ [started.shutdown (ε := ε)] }) := by
  unfold openSession
  split
  · exact ⟨fun notice hmem => absurd hmem List.not_mem_nil, pipeline.engine, .error, .inl rfl⟩
  dsimp only
  split
  case h_1 engine error _ =>
    exact ⟨fun notice hmem => absurd hmem List.not_mem_nil, engine, .error, .inl rfl⟩
  case h_2 engine opened _ =>
    obtain ⟨hnotices, started, hstarted, hvalue⟩ :=
      launch_cases { pipeline with engine, idle := .configuring } (Session.owns_fresh csd opened
        pipeline.settings.frameIndexCapacity pipeline.busy)
    refine ⟨hnotices, engine, ?_⟩
    rcases hvalue with hvalue | hvalue
    · exact ⟨.configuring, .inr ⟨started, hstarted, .inl hvalue⟩⟩
    · exact ⟨.error, .inr ⟨started, hstarted, .inr hvalue⟩⟩

theorem prepare_notices (pipeline : Pipeline ε σ) (csd : Bytes) :
    ∀ notice ∈ (pipeline.prepare csd).notices, notice = .renderMode .video := by
  unfold prepare
  split
  · exact (openSession_cases _ csd).1
  · exact fun notice hmem => absurd hmem List.not_mem_nil

theorem prepare_kept (pipeline : Pipeline ε σ) (csd : Bytes) :
    let prepared := pipeline.prepare csd
    prepared.value.2.settings = pipeline.settings ∧ prepared.value.2.links = pipeline.links ∧
      prepared.value.2.clock = pipeline.clock := by
  have hretire : pipeline.retire.settings = pipeline.settings ∧
      pipeline.retire.links = pipeline.links ∧ pipeline.retire.clock = pipeline.clock := by
    cases hcurrent : pipeline.current with
    | none => simp [retire_of_none hcurrent]
    | some session => simp [retire_of_some hcurrent]
  unfold prepare
  split
  · obtain ⟨-, engine, idle, heq | ⟨started, -, heq | heq⟩⟩ :=
      openSession_cases pipeline.retire csd
    all_goals
      simp only [heq]
      exact hretire
  · exact ⟨rfl, rfl, rfl⟩

private theorem deliver_kept (pipeline : Pipeline ε σ) (now : Nat) (payload : Bytes)
    (frame : FrameIndex) :
    (pipeline.deliver now payload frame).value.2.settings = pipeline.settings ∧
      (pipeline.deliver now payload frame).value.2.links = pipeline.links := by
  have hdelivered := pipeline.deliver_delivered now payload frame
  generalize pipeline.deliver now payload frame = delivered at hdelivered ⊢
  cases hdelivered <;> exact ⟨rfl, rfl⟩

theorem queue_kept (pipeline : Pipeline ε σ) (now : Nat) (packet : Bytes) (frame : FrameIndex) :
    (pipeline.queue now packet frame).value.2.settings = pipeline.settings ∧
      (pipeline.queue now packet frame).value.2.links = pipeline.links := by
  let csd := configurationPrefix pipeline.settings.codec packet
  let prepared := (pipeline.prepare csd).value
  obtain ⟨hsettings, hlinks, -⟩ := pipeline.prepare_kept csd
  have hdelivered :=
    prepared.2.deliver_kept (delayed now prepared.1) (payload csd packet) frame
  rw [queue_eq]
  exact ⟨hdelivered.1.trans hsettings, hdelivered.2.trans hlinks⟩

theorem drain_kept (pipeline : Pipeline ε σ) :
    pipeline.drain.value.settings = pipeline.settings ∧
      pipeline.drain.value.links = pipeline.links := by
  unfold drain
  split <;> exact ⟨rfl, rfl⟩

end Pipeline

end HeadsetStream.Decoder
