import HeadsetStream.Notice
import HeadsetStream.Video.FrameMap

/-!
# The surface that a decoder draws to

A decoder presents its images on a surface, where a few of them can wait. The surface takes them
over on its own time: when its owner comes to rest, or when no other image would have room. It finds
the frame that an image belongs to and publishes the image to the graphics device; an image of an
unknown frame is dropped. The device may be busy taking an image over: that image already has its
frame, and the ones behind it wait.
-/

namespace HeadsetStream.Decoder
open Video

structure Surface where
  /-- The frames of the timestamps that were submitted. -/
  frames : FrameMap
  /-- Whether the graphics device takes its time over the next image. -/
  busy : Bool := false
  /-- The image that a busy device is taking over. -/
  publishing : Option DecodedImage := none
  /-- The images that are not taken over yet, oldest first. -/
  waiting : List SurfaceImage := []
  closed : Bool := false
  /-- Whether it is to be closed as soon as the graphics device is done. -/
  closing : Bool := false
  deriving Inhabited

namespace Surface

/-- How many images can wait for the graphics device. -/
def depth : Nat := 5

/-- The image with its frame, if that is known; the frame is forgotten, for each is shown once. -/
def resolve (surface : Surface) (image : SurfaceImage) : Option DecodedImage × Surface :=
  let (frame, frames) := surface.frames.take image.pts
  (frame.map (⟨image, ·⟩), { surface with frames })

/-- Takes images over, oldest first, until the graphics device is busy with one; the ones behind it
wait. -/
def takeOver (surface : Surface) : List SurfaceImage → Outcome Surface
  | [] => return { surface with waiting := [] }
  | image :: rest =>
    match surface.resolve image with
    | (none, surface) => surface.takeOver rest
    | (some decoded, surface) =>
      if surface.busy then return { surface with publishing := some decoded, waiting := rest }
      else do
        .say (.image decoded)
        surface.takeOver rest

/-- Takes over what waits, unless the graphics device is busy. -/
def settle (surface : Surface) : Outcome Surface :=
  if surface.publishing.isSome then return surface else surface.takeOver surface.waiting

/-- Has an image wait on the surface, and says whether there was room for it. What waits already is
taken over only if there is none. -/
def offer (surface : Surface) (image : SurfaceImage) : Outcome (Bool × Surface) :=
  if surface.closed then return (false, surface)
  else do
    let surface ← if surface.waiting.length < depth then pure surface else surface.settle
    if surface.waiting.length < depth then
      return (true, { surface with waiting := surface.waiting ++ [image] })
    else return (false, surface)

/-- Presents an image, and says whether it was taken. -/
def present (surface : Surface) (image : SurfaceImage) : Outcome (Bool × Surface) := do
  let (taken, surface) ← surface.offer image
  return (taken, ← surface.settle)

/-- The graphics device takes its time from now on. -/
def hold (surface : Surface) : Surface := { surface with busy := true }

/-- The surface once nothing more may be presented on it. While the graphics device is taking an
image over, this has to wait. -/
def close (surface : Surface) : Surface :=
  if surface.publishing.isSome then { surface with closing := true }
  else { surface with closed := true, closing := false, waiting := [] }

/-- The graphics device is done with the image it was taking over, and takes the next ones. -/
def resume (surface : Surface) : Outcome Surface := do
  if let some decoded := surface.publishing then
    .say (.image decoded)
  let surface ← { surface with busy := false, publishing := none }.settle
  return if surface.closing then surface.close else surface

theorem close_of_idle {surface : Surface} (h : surface.publishing = none) :
    surface.close.closed = true := by
  simp [close, h]

theorem offer_closed {surface : Surface} (h : surface.closed = true) (image : SurfaceImage) :
    surface.offer image = pure (false, surface) := by
  simp [offer, h]

end Surface

end HeadsetStream.Decoder
