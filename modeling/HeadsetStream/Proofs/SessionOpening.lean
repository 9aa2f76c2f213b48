import HeadsetStream.Decoder.Simulated
import HeadsetStream.Proofs.PacketQueue

/-!
# Sessions of the engine without a decoder

Opening a session fails if there is no graphics device or if the engine was told to fail, and then
no session is current. Otherwise the new session is running, with an empty frame map and an idle
surface, and the headset is told to show the video. A session that is over has a shut surface.
-/

namespace HeadsetStream.Decoder
open Video Settings

abbrev TrialPipeline := Pipeline SimulatedEngine SimulatedSession

@[simp] theorem SimulatedSession.imageAt_pts (pts : Nat) : (imageAt pts).pts = pts := by
  simp [imageAt, SurfaceImage.pts]

namespace Session

variable {σ : Type} {session : Session σ}

private theorem hear_inputFree (hopen : session.surface.closed = false) (buffer : Nat) :
    let heard := session.hear (.inputFree buffer)
    heard.notices = [] ∧ heard.value.2 =
      { session with
        inputs := session.inputs ++ [buffer].take (queueDepth - session.inputs.length) } := by
  by_cases hroom : session.inputs.length < queueDepth
  · obtain ⟨room, hroom'⟩ := Nat.exists_eq_add_of_lt hroom
    have hone : queueDepth - session.inputs.length = room + 1 := by omega
    simp [hear, hopen, hroom, hone]
  · have hnone : queueDepth - session.inputs.length = 0 := by omega
    simp [hear, hopen, hroom, hnone]

/-- An open session takes the input buffers it is offered as long as it has room. -/
private theorem hearAll_inputFree (hopen : session.surface.closed = false) (buffers : List Nat) :
    let heard := session.hearAll (buffers.map .inputFree)
    heard.notices = [] ∧ heard.value.2 =
      { session with
        inputs := session.inputs ++ buffers.take (queueDepth - session.inputs.length) } := by
  induction buffers generalizing session with
  | nil => exact ⟨rfl, by simp [hearAll]⟩
  | cons buffer rest ih =>
    obtain ⟨hquiet, hheard⟩ := hear_inputFree hopen buffer
    obtain ⟨hvalue, hnotices⟩ := session.hearAll_cons (.inputFree buffer) (rest.map .inputFree)
    simp only [List.map_cons]
    rw [hvalue, hnotices, hquiet, hheard]
    have hopen' : ({ session with
        inputs := session.inputs ++ [buffer].take (queueDepth - session.inputs.length) } :
        Session σ).surface.closed = false := hopen
    obtain ⟨hrest, hlast⟩ := ih hopen'
    refine ⟨hrest, ?_⟩
    rw [hlast]
    have htaken : session.inputs ++ [buffer].take (queueDepth - session.inputs.length) ++
        rest.take (queueDepth -
          (session.inputs ++ [buffer].take (queueDepth - session.inputs.length)).length) =
        session.inputs ++ (buffer :: rest).take (queueDepth - session.inputs.length) := by
      cases hroom : queueDepth - session.inputs.length with
      | zero => simp [hroom]
      | succ room =>
        have hrest : queueDepth - (session.inputs.length + 1) = room := by omega
        simp [hrest]
    exact congrArg (fun inputs => { session with inputs }) htaken

@[simp] theorem shutdown_surface {ε : Type} [Engine ε σ] (session : Session σ) :
    (session.shutdown (ε := ε)).surface = session.surface.close := by
  unfold shutdown finish
  split <;> rfl

end Session

namespace TrialPipeline

/-- The session that is opened for these parameter sets. -/
def opened (pipeline : TrialPipeline) (csd : Bytes) : Session SimulatedSession where
  csd
  engine :=
    { mode := pipeline.engine.mode
      inputBuffers := pipeline.engine.inputBuffers
      format := .video pipeline.settings csd }
  state := .running
  inputs := (List.range pipeline.engine.inputBuffers).take Session.queueDepth
  surface := { frames := .empty pipeline.settings.frameIndexCapacity, busy := pipeline.busy }

variable {pipeline : TrialPipeline}

theorem openSession_of_no_graphics (h : pipeline.links.graphics = false) (csd : Bytes) :
    pipeline.openSession csd = pure (0, { pipeline with idle := .error }) := by
  simp [Pipeline.openSession, h]

theorem openSession_of_failNext (h : pipeline.links.graphics = true)
    (hfail : pipeline.engine.failNext = true) (csd : Bytes) :
    pipeline.openSession csd =
      pure (0, { pipeline with
        engine := { pipeline.engine with failNext := false }
        idle := .error }) := by
  simp [Pipeline.openSession, h, Engine.create, SimulatedEngine.create, hfail]

theorem openSession_of_graphics (h : pipeline.links.graphics = true)
    (hfail : pipeline.engine.failNext = false) (csd : Bytes) :
    ∃ dropped, pipeline.openSession csd =
      ⟨(dropped, { pipeline with idle := .configuring, current := some (pipeline.opened csd) }),
        [.renderMode .video]⟩ := by
  let fresh : Session SimulatedSession :=
    { pipeline.opened csd with state := .configuring, inputs := [] }
  let buffers := List.range pipeline.engine.inputBuffers
  obtain ⟨hquiet, hheard⟩ :=
    Session.hearAll_inputFree (show fresh.surface.closed = false from rfl) buffers
  refine ⟨(fresh.hearAll (buffers.map .inputFree)).value.1, ?_⟩
  have hopen : pipeline.openSession csd =
      ({ pipeline with idle := .configuring } : TrialPipeline).launch fresh := by
    simp [Pipeline.openSession, h, Engine.create, SimulatedEngine.create, hfail]
    rfl
  have hstart : fresh.start (ε := SimulatedEngine) =
      ⟨(.ok (), (fresh.hearAll (buffers.map .inputFree)).value.1,
        { fresh with inputs := buffers.take Session.queueDepth }), []⟩ := by
    apply Outcome.ext
    · exact congrArg (fun session => (Except.ok (), _, session)) hheard
    · rw [Session.start, Outcome.notices_bind]
      exact (List.append_nil _).trans hquiet
  rw [hopen, Pipeline.launch, hstart]
  rfl

end TrialPipeline

end HeadsetStream.Decoder
