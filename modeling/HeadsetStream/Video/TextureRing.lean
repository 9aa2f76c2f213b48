import HeadsetStream.Video.Image

/-!
# The textures a renderer shows from

Two textures are filled in turn. The one filled last is published: the renderer shows it until the
next one is complete, and the texture that is written is never the one that is shown. The frame of
the published image is kept beside the textures, so that it can be read while they are in use.
-/

namespace HeadsetStream.Video

/-- A texture of the ring. -/
inductive Slot where
  | first
  | second
  deriving DecidableEq, Repr, Inhabited

def Slot.other : Slot → Slot
  | .first => .second
  | .second => .first

@[simp] theorem Slot.other_other (slot : Slot) : slot.other.other = slot := by
  cases slot <;> rfl

theorem Slot.other_ne (slot : Slot) : slot.other ≠ slot := by
  cases slot <;> decide

structure TextureRing where
  first : Option DecodedImage := none
  second : Option DecodedImage := none
  /-- The texture that the next image goes to. -/
  next : Slot := .first
  published : Option Slot := none
  publishedFrame : FrameIndex := .null
  deriving DecidableEq, Repr, Inhabited

namespace TextureRing

def empty : TextureRing := {}

/-- The image in a texture. -/
def texture (ring : TextureRing) : Slot → Option DecodedImage
  | .first => ring.first
  | .second => ring.second

/-- The ring with one texture filled. -/
def fill (ring : TextureRing) (image : DecodedImage) : Slot → TextureRing
  | .first => { ring with first := some image }
  | .second => { ring with second := some image }

/-- The ring with an image in the next texture, which is then the published one. -/
def update (ring : TextureRing) (image : DecodedImage) : TextureRing :=
  { ring.fill image ring.next with
    next := ring.next.other
    published := some ring.next
    publishedFrame := image.frame }

/-- The ring with nothing published and nothing in its textures. -/
def clear (ring : TextureRing) : TextureRing :=
  { ring with
    publishedFrame := .null
    published := none
    next := .first
    first := none
    second := none }

/-- The published image. -/
def latest (ring : TextureRing) : Option DecodedImage :=
  ring.published.bind ring.texture

/-- The frame of the published image, if its index names one. -/
def frame (ring : TextureRing) : Option FrameIndex :=
  ring.publishedFrame.named?

variable (ring : TextureRing) (image : DecodedImage)

@[simp] theorem latest_empty : empty.latest = none := rfl

@[simp] theorem next_update : (ring.update image).next = ring.next.other := rfl

@[simp] theorem published_update : (ring.update image).published = some ring.next := rfl

@[simp] theorem texture_update : (ring.update image).texture ring.next = some image := by
  cases h : ring.next <;> simp [update, fill, texture, h]

/-- An update writes one texture only. -/
theorem texture_update_of_ne {slot : Slot} (h : slot ≠ ring.next) :
    (ring.update image).texture slot = ring.texture slot := by
  cases slot <;> cases hnext : ring.next <;> simp_all [update, fill, texture]

@[simp] theorem latest_update : (ring.update image).latest = some image :=
  ring.texture_update image

@[simp] theorem frame_update : (ring.update image).frame = image.frame.named? := rfl

@[simp] theorem clear_eq : ring.clear = empty := rfl

@[simp] theorem frame_empty : empty.frame = none := rfl

end TextureRing

end HeadsetStream.Video
