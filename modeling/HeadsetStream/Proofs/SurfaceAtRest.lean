import HeadsetStream.Decoder.Session
import Mathlib.Tactic.Common

/-!
# Surfaces at rest

Between two operations nothing waits on a surface: it is open in front of a device that is free, or
it is shut. An image that is presented on an open surface takes the frame out of its slot and is
published with it at once, or is dropped if the slot is empty; a shut surface does nothing. What a
session reports other than images leaves its surface alone.
-/

namespace HeadsetStream

theorem Outcome.ext {α : Type} {x y : Outcome α} (hvalue : x.value = y.value)
    (hnotices : x.notices = y.notices) : x = y := by
  cases x
  cases y
  subst hvalue hnotices
  rfl

def Notice.image? : Notice → Option Video.DecodedImage
  | Notice.image decoded => some decoded
  | _ => none

/-- The images that were handed to the graphics device, oldest first. -/
def imagesOf (notices : List Notice) : List Video.DecodedImage := notices.filterMap Notice.image?

@[simp] theorem imagesOf_nil : imagesOf [] = [] := rfl

@[simp] theorem imagesOf_append (first rest : List Notice) :
    imagesOf (first ++ rest) = imagesOf first ++ imagesOf rest :=
  List.filterMap_append ..

@[simp] theorem imagesOf_map (images : List Video.DecodedImage) :
    imagesOf (images.map .image) = images := by
  induction images with
  | nil => rfl
  | cons image rest ih => exact congrArg (image :: ·) ih

end HeadsetStream

namespace HeadsetStream.Decoder
open Video

namespace Surface

/-- Open, in front of a device that is free, with nothing waiting. -/
structure Idle (surface : Surface) : Prop where
  free : surface.busy = false
  nothingPublishing : surface.publishing = none
  nothingWaiting : surface.waiting = []
  isOpen : surface.closed = false
  notClosing : surface.closing = false

/-- Closed, with nothing waiting. -/
structure Shut (surface : Surface) : Prop where
  nothingPublishing : surface.publishing = none
  nothingWaiting : surface.waiting = []
  isClosed : surface.closed = true

variable {surface : Surface}

theorem idle_of_frames (frames : FrameMap) : ({ frames } : Surface).Idle :=
  ⟨rfl, rfl, rfl, rfl, rfl⟩

/-- The frames of a surface have no part in whether it is at rest. -/
theorem Idle.withFrames (h : surface.Idle) (frames : FrameMap) :
    ({ surface with frames } : Surface).Idle :=
  ⟨h.free, h.nothingPublishing, h.nothingWaiting, h.isOpen, h.notClosing⟩

theorem settle_of_nothing (hp : surface.publishing = none) (hw : surface.waiting = []) :
    surface.settle = pure surface := by
  obtain ⟨frames, busy, publishing, waiting, closed, closing⟩ := surface
  subst hp hw
  rfl

theorem Idle.settle (h : surface.Idle) : surface.settle = pure surface :=
  settle_of_nothing h.nothingPublishing h.nothingWaiting

theorem Shut.settle (h : surface.Shut) : surface.settle = pure surface :=
  settle_of_nothing h.nothingPublishing h.nothingWaiting

theorem Idle.close (h : surface.Idle) : surface.close.Shut := by
  obtain ⟨frames, busy, publishing, waiting, closed, closing⟩ := surface
  obtain rfl : publishing = none := h.nothingPublishing
  exact ⟨rfl, rfl, rfl⟩

theorem Idle.offer (h : surface.Idle) (image : SurfaceImage) :
    surface.offer image = pure (true, { surface with waiting := [image] }) := by
  obtain ⟨frames, busy, publishing, waiting, closed, closing⟩ := surface
  obtain ⟨rfl, rfl, rfl, rfl, rfl⟩ := h
  rfl

/-- The image of a slot's frame, if it holds one. -/
def published (surface : Surface) (image : SurfaceImage) : List DecodedImage :=
  ((surface.frames.get? image.pts).map (⟨image, ·⟩)).toList

/-- The only image that waits is published with the frame of its slot, which is empty then. -/
theorem Idle.settle_waiting (h : surface.Idle) (image : SurfaceImage) :
    ({ surface with waiting := [image] } : Surface).settle =
      ⟨{ surface with frames := (surface.frames.take image.pts).2 },
        (surface.published image).map .image⟩ := by
  obtain ⟨frames, busy, publishing, waiting, closed, closing⟩ := surface
  obtain ⟨rfl, rfl, rfl, rfl, rfl⟩ := h
  cases hframe : frames.get? image.pts with
  | none =>
    simp [Surface.settle, takeOver, resolve, published, FrameMap.take, hframe]
    rfl
  | some frame =>
    simp [Surface.settle, takeOver, resolve, published, FrameMap.take, hframe]
    rfl

end Surface

def Callback.isImage : Callback → Bool
  | .image _ => true
  | _ => false

namespace Session

variable {σ : Type} {session : Session σ}

def withFrames (session : Session σ) (frames : FrameMap) : Session σ :=
  { session with surface := { session.surface with frames } }

@[simp] theorem push_surface (session : Session σ) (event : Event) :
    (session.push event).2.surface = session.surface := by
  unfold push
  split <;> rfl

@[simp] theorem take_surface (session : Session σ) (event : Event) :
    (session.take event).2.surface = session.surface := by
  cases event <;> simp [take]

theorem hear_of_not_image {report : Callback} (h : report.isImage = false) (session : Session σ) :
    (session.hear report).notices = [] ∧
      (session.hear report).value.2.surface = session.surface := by
  unfold hear
  split
  · exact ⟨rfl, rfl⟩
  · cases report with
    | inputFree buffer => dsimp only; split <;> exact ⟨rfl, rfl⟩
    | event event => exact ⟨rfl, take_surface session event⟩
    | image image => simp [Callback.isImage] at h

@[simp] theorem push_engine (session : Session σ) (event : Event) :
    (session.push event).2.engine = session.engine := by
  unfold push
  split <;> rfl

@[simp] theorem take_engine (session : Session σ) (event : Event) :
    (session.take event).2.engine = session.engine := by
  cases event <;> simp [take]

@[simp] theorem hear_engine (session : Session σ) (report : Callback) :
    (session.hear report).value.2.engine = session.engine := by
  unfold hear
  split
  · rfl
  · cases report with
    | inputFree buffer => dsimp only; split <;> rfl
    | event event => exact take_engine session event
    | image image => rfl

theorem hearAll_singleton (session : Session σ) (report : Callback) :
    session.hearAll [report] =
      ⟨(if (session.hear report).value.1 then 0 else 1, (session.hear report).value.2),
        (session.hear report).notices⟩ := by
  apply Outcome.ext
  · rfl
  · simp [hearAll]

/-- Hears a report and counts it if it is dropped. -/
def tally (counted : Nat × Session σ) (report : Callback) : Outcome (Nat × Session σ) := do
  let (taken, session) ← counted.2.hear report
  return (if taken then counted.1 else counted.1 + 1, session)

theorem hearAll_eq_foldlM (session : Session σ) (reports : List Callback) :
    session.hearAll reports = reports.foldlM tally (0, session) := rfl

/-- The count of dropped reports has no part in what is heard. -/
private theorem foldlM_tally (reports : List Callback) (session : Session σ) (dropped : Nat) :
    (reports.foldlM tally (dropped, session)).value.2 = (session.hearAll reports).value.2 ∧
      (reports.foldlM tally (dropped, session)).notices = (session.hearAll reports).notices := by
  rw [hearAll_eq_foldlM]
  suffices h : ∀ counted : Nat,
      (reports.foldlM tally (dropped, session)).value.2 =
        (reports.foldlM tally (counted, session)).value.2 ∧
      (reports.foldlM tally (dropped, session)).notices =
        (reports.foldlM tally (counted, session)).notices from h 0
  induction reports generalizing session dropped with
  | nil => exact fun _ => ⟨rfl, rfl⟩
  | cons report rest ih =>
    intro counted
    obtain ⟨hvalue, hnotices⟩ := ih (session.hear report).value.2
      (if (session.hear report).value.1 then dropped else dropped + 1)
      (if (session.hear report).value.1 then counted else counted + 1)
    refine ⟨hvalue, ?_⟩
    simp only [List.foldlM_cons, Outcome.notices_bind]
    exact congrArg _ hnotices

theorem hearAll_cons (session : Session σ) (report : Callback) (rest : List Callback) :
    let heard := session.hear report
    (session.hearAll (report :: rest)).value.2 = (heard.value.2.hearAll rest).value.2 ∧
      (session.hearAll (report :: rest)).notices =
        heard.notices ++ (heard.value.2.hearAll rest).notices := by
  obtain ⟨hvalue, hnotices⟩ := foldlM_tally rest (session.hear report).value.2
    (if (session.hear report).value.1 then 0 else 1)
  refine ⟨hvalue, ?_⟩
  rw [hearAll_eq_foldlM, List.foldlM_cons, Outcome.notices_bind, ← hnotices]
  exact congrArg (· ++ _) (List.append_nil _)

/-- A property of sessions that hearing one report keeps holds after all of them. -/
theorem hearAll_induction {P : Session σ → Prop} (reports : List Callback)
    (step : ∀ report ∈ reports, ∀ session, P session →
      (session.hear report).notices = [] ∧ P (session.hear report).value.2)
    (h : P session) :
    (session.hearAll reports).notices = [] ∧ P (session.hearAll reports).value.2 := by
  induction reports generalizing session with
  | nil => exact ⟨rfl, h⟩
  | cons report rest ih =>
    obtain ⟨hquiet, hstep⟩ := step report List.mem_cons_self session h
    obtain ⟨hnotices, hrest⟩ :=
      ih (fun later hlater => step later (List.mem_cons_of_mem _ hlater)) hstep
    obtain ⟨hvalue, hheard⟩ := session.hearAll_cons report rest
    rw [hvalue, hheard, hquiet, hnotices]
    exact ⟨rfl, hrest⟩

/-- Reports of input buffers and events give no notice and leave surface and engine alone. -/
theorem hearAll_of_not_images {reports : List Callback}
    (h : ∀ report ∈ reports, report.isImage = false) (session : Session σ) :
    (session.hearAll reports).notices = [] ∧
      (session.hearAll reports).value.2.surface = session.surface ∧
      (session.hearAll reports).value.2.engine = session.engine :=
  hearAll_induction (P := fun later => later.surface = session.surface ∧
    later.engine = session.engine) reports
    (fun report hmem later hlater =>
      have hhear := hear_of_not_image (h report hmem) later
      ⟨hhear.1, hhear.2.trans hlater.1, (hear_engine later report).trans hlater.2⟩) ⟨rfl, rfl⟩

/-- Hearing an image, an idle surface has it wait. -/
theorem hear_image_of_idle (h : session.surface.Idle) (image : SurfaceImage) :
    session.hear (.image image) =
      pure (true, { session with surface := { session.surface with waiting := [image] } }) := by
  simp only [hear, h.isOpen, Bool.false_eq_true, if_false, h.offer]
  rfl

/-- A shut surface lets no report through. -/
theorem hearAll_of_shut (h : session.surface.Shut) (reports : List Callback) :
    (session.hearAll reports).notices = [] ∧
      (session.hearAll reports).value.2.surface = session.surface := by
  apply hearAll_induction (P := fun later => later.surface = session.surface)
  · intro report _ later hlater
    rw [hear_closed (hlater ▸ h.isClosed)]
    exact ⟨rfl, hlater⟩
  · rfl

theorem settle_of_surface (h : session.surface.settle = pure session.surface) :
    session.settle = pure session := by
  rw [settle, h]
  rfl

end Session

end HeadsetStream.Decoder
