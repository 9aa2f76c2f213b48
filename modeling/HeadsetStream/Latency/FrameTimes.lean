import HeadsetStream.Video.FrameIndex

/-!
# When a frame was where

The times of recent frames are kept in slots, one for all frame indices that agree modulo the slot
count. A slot belongs to one frame at a time: a frame that claims it drops the times of the frame
that had it. All times are in microseconds.
-/

namespace HeadsetStream.Latency
open Video

/-- The times of one frame. -/
structure FrameTimes where
  frame : FrameIndex
  received : Option Nat := none
  decoderInput : Option Nat := none
  deriving DecidableEq, Repr, Inhabited

def slotCount : Nat := 256

structure FrameLog where
  slots : Vector (Option FrameTimes) slotCount := Vector.replicate _ none

namespace FrameLog

def empty : FrameLog := {}

instance : Inhabited FrameLog := ⟨empty⟩

/-- The slot of a frame. -/
def slot (frame : FrameIndex) : Fin slotCount :=
  ⟨frame.toNat % slotCount, Nat.mod_lt _ (by decide)⟩

/-- The times of a frame, if it has its slot. -/
def times? (log : FrameLog) (frame : FrameIndex) : Option FrameTimes :=
  log.slots[slot frame].filter (·.frame = frame)

/-- The log with `update` done to the times of a frame, which claims its slot if it has it not. -/
def record (log : FrameLog) (frame : FrameIndex) (update : FrameTimes → FrameTimes) : FrameLog :=
  ⟨log.slots.set (slot frame) (some (update ((log.times? frame).getD { frame })))⟩

@[simp] theorem times?_empty (frame : FrameIndex) : empty.times? frame = none := by
  simp [empty, times?]

/-- A frame that was recorded has its slot, and frames with other slots keep theirs. -/
theorem times?_record (log : FrameLog) (frame other : FrameIndex)
    (update : FrameTimes → FrameTimes) :
    (log.record frame update).times? other =
      if slot frame = slot other then
        (some (update ((log.times? frame).getD { frame }))).filter (·.frame = other)
      else log.times? other := by
  simp only [record, times?, Fin.getElem_fin, Vector.getElem_set, Fin.val_inj]
  split <;> rfl

end FrameLog

end HeadsetStream.Latency
