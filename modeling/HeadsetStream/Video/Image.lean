import HeadsetStream.Bytes
import HeadsetStream.Video.FrameIndex

/-!
# Images

A decoder presents images that know only the timestamp they were submitted with. Once its frame is
found an image is a decoded image, which is what the graphics device shows.
-/

namespace HeadsetStream.Video

/-- An image as a decoder presents it; rows of pixels are `stride` bytes apart. -/
structure SurfaceImage where
  timestampNs : Nat
  width : Nat
  height : Nat
  stride : Nat
  data : Bytes
  deriving DecidableEq, Repr, Inhabited

/-- The timestamp in microseconds, in which packets are submitted. -/
def SurfaceImage.pts (image : SurfaceImage) : Nat := image.timestampNs / 1000

/-- An image with the index of its frame. -/
structure DecodedImage extends SurfaceImage where
  frame : FrameIndex
  deriving DecidableEq, Repr, Inhabited

end HeadsetStream.Video
