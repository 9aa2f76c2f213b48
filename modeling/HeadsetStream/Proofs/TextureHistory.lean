import HeadsetStream.Video.TextureRing
import Mathlib.Data.List.Induction

/-!
# What a ring of textures shows, read off its history

The index that is written next, the one that is published, its frame and the two textures change
separately. They agree all the same: the published texture is the one that is not written next, it
holds the last image since the last clear, and what is written next still holds the image before.
-/

namespace HeadsetStream.Video

/-- What is done to a ring. -/
inductive RingStep where
  | update (image : DecodedImage)
  | clear
  deriving DecidableEq, Repr

/-- The images since the last clear, once a step was taken. -/
def RingStep.extend (images : List DecodedImage) : RingStep → List DecodedImage
  | .update image => images ++ [image]
  | .clear => []

/-- The images since the last clear, oldest first. -/
def imagesSinceClear (steps : List RingStep) : List DecodedImage :=
  steps.foldl RingStep.extend []

@[simp] theorem imagesSinceClear_nil : imagesSinceClear [] = [] := rfl

@[simp] theorem imagesSinceClear_concat (steps : List RingStep) (step : RingStep) :
    imagesSinceClear (steps ++ [step]) = step.extend (imagesSinceClear steps) := by
  simp [imagesSinceClear]

/-- The steps end with an update for each of the images, and if there is a step before these, it is
a clear. -/
private theorem steps_eq_append_images (steps : List RingStep) :
    ∃ before, steps = before ++ (imagesSinceClear steps).map .update ∧
      ∀ last ∈ before.getLast?, last = .clear := by
  induction steps using List.reverseRecOn with
  | nil => exact ⟨[], rfl, by simp⟩
  | append_singleton steps step ih =>
    cases step with
    | update image =>
      obtain ⟨before, hsteps, hlast⟩ := ih
      refine ⟨before, ?_, hlast⟩
      rw [imagesSinceClear_concat, RingStep.extend, List.map_append, ← List.append_assoc, ← hsteps]
      rfl
    | clear => exact ⟨steps ++ [.clear], by simp [RingStep.extend], by simp⟩

namespace TextureRing

def perform (ring : TextureRing) : RingStep → TextureRing
  | .update image => ring.update image
  | .clear => ring.clear

def run (ring : TextureRing) (steps : List RingStep) : TextureRing :=
  steps.foldl perform ring

@[simp] theorem run_concat (ring : TextureRing) (steps : List RingStep) (step : RingStep) :
    ring.run (steps ++ [step]) = (ring.run steps).perform step := by
  simp [run]

/-- The textures hold the last two of the images: the last one where the next image does not go, and
it is published. -/
structure Holds (images : List DecodedImage) (ring : TextureRing) : Prop where
  publishedFrame : ring.publishedFrame = images.getLast?.elim .null (·.frame)
  published : ring.published = images.getLast?.map fun _ => ring.next.other
  shown : ring.texture ring.next.other = images.getLast?
  previous : ring.texture ring.next = images.dropLast.getLast?

variable {images : List DecodedImage} {ring : TextureRing}

theorem holds_empty : Holds [] empty := ⟨rfl, rfl, rfl, rfl⟩

/-- The texture that was written next is the published one now, and the other one is as it was. -/
theorem Holds.update (h : Holds images ring) (image : DecodedImage) :
    Holds (images ++ [image]) (ring.update image) where
  publishedFrame := by simp [TextureRing.update]
  published := by simp
  shown := by simp
  previous := by
    rw [next_update, texture_update_of_ne _ _ (Slot.other_ne _), h.shown]
    simp

theorem Holds.perform (h : Holds images ring) (step : RingStep) :
    Holds (step.extend images) (ring.perform step) := by
  cases step with
  | update image => exact h.update image
  | clear => exact holds_empty

theorem holds_run (steps : List RingStep) : Holds (imagesSinceClear steps) (empty.run steps) := by
  induction steps using List.reverseRecOn with
  | nil => exact holds_empty
  | append_singleton steps step ih =>
    rw [imagesSinceClear_concat, run_concat]
    exact ih.perform step

theorem Holds.latest (h : Holds images ring) : ring.latest = images.getLast? := by
  rw [TextureRing.latest, h.published]
  cases hlast : images.getLast? with
  | none => rfl
  | some image => exact h.shown.trans hlast

theorem Holds.frame (h : Holds images ring) (hnamed : ∀ image ∈ images, image.frame ≠ .null) :
    ring.frame = images.getLast?.map (·.frame) := by
  rw [TextureRing.frame, h.publishedFrame]
  cases hlast : images.getLast? with
  | none => rfl
  | some image =>
    exact FrameIndex.named?_eq_some_iff.mpr ⟨rfl, hnamed image (List.mem_of_getLast? hlast)⟩

theorem Holds.ne_next (h : Holds images ring) {slot : Slot} (hslot : ring.published = some slot) :
    slot ≠ ring.next := by
  rw [h.published, Option.map_eq_some_iff] at hslot
  obtain ⟨-, -, rfl⟩ := hslot
  exact Slot.other_ne _

/-- What a renderer can rely on when these are the images that came since the last clear. -/
structure Shows (images : List DecodedImage) (ring : TextureRing) : Prop where
  latest : ring.latest = images.getLast?
  frame : ring.frame = images.getLast?.map (·.frame)
  /-- An update goes to a texture other than the published one, which keeps its image. -/
  spared : ∀ slot, ring.published = some slot → slot ≠ ring.next ∧
    ∀ image, (ring.update image).texture slot = ring.latest
  /-- The texture that the next update goes to still holds the image before the last one. -/
  previous : ring.texture ring.next = images.dropLast.getLast?

theorem Holds.shows (h : Holds images ring) (hnamed : ∀ image ∈ images, image.frame ≠ .null) :
    Shows images ring where
  latest := h.latest
  frame := h.frame hnamed
  spared slot hslot := by
    refine ⟨h.ne_next hslot, fun image => ?_⟩
    rw [texture_update_of_ne _ _ (h.ne_next hslot), TextureRing.latest, hslot]
    rfl
  previous := h.previous

private theorem mem_of_mem_imagesSinceClear {steps : List RingStep} {image : DecodedImage}
    (hmem : image ∈ imagesSinceClear steps) : .update image ∈ steps := by
  obtain ⟨before, hsteps, -⟩ := steps_eq_append_images steps
  rw [hsteps]
  exact List.mem_append_right _ (List.mem_map_of_mem hmem)

/-- After any updates and clears a ring shows the last image since the last clear, with its frame,
and nothing if there was none; the next update leaves it alone. -/
theorem run_shows (steps : List RingStep)
    (hnamed : ∀ image, .update image ∈ steps → image.frame ≠ .null) :
    Shows (imagesSinceClear steps) (empty.run steps) :=
  (holds_run steps).shows fun image hmem => hnamed image (mem_of_mem_imagesSinceClear hmem)

def trialImage (frame : FrameIndex) : DecodedImage :=
  { timestampNs := frame.toNat * 1000, width := 2, height := 2, stride := 8, data := [], frame }

/-- The second image after a clear goes to the second texture, and the first one keeps the other. -/
theorem run_shows_second :
    let ring := empty.run
      [.update (trialImage 4), .clear, .update (trialImage 5), .update (trialImage 6)]
    Shows [trialImage 5, trialImage 6] ring ∧ ring.published = some .second ∧
      ring.latest = some (trialImage 6) ∧ ring.frame = some 6 ∧
      ring.first = some (trialImage 5) := by
  have hshows := run_shows
    [.update (trialImage 4), .clear, .update (trialImage 5), .update (trialImage 6)]
    (by simp [trialImage, FrameIndex.null])
  exact ⟨hshows, rfl, hshows.latest, hshows.frame, hshows.previous⟩

end TextureRing

end HeadsetStream.Video
