/-!
# Frame indices

A frame index names the pose sample that a video frame was drawn from. The largest word names no
frame: it stands for an empty place wherever indices are kept.
-/

namespace HeadsetStream.Video

abbrev FrameIndex := UInt64

namespace FrameIndex

/-- The index that names no frame. -/
def null : FrameIndex := 0xFFFFFFFFFFFFFFFF

/-- The frame an index names, if it names one. -/
def named? (index : FrameIndex) : Option FrameIndex :=
  if index = null then none else some index

@[simp] theorem named?_null : named? null = none := rfl

theorem named?_eq_some_iff {index frame : FrameIndex} :
    named? index = some frame ↔ index = frame ∧ frame ≠ null := by
  unfold named?
  split <;> grind

end FrameIndex

end HeadsetStream.Video
