import HeadsetStream.Video.FrameIndex

/-!
# Finding the frame of a timestamp

A decoder hands pictures back with the timestamps they were submitted with. A frame map remembers
the frame index of each timestamp in slot `pts % capacity`: the last write to a slot holds, so of
two timestamps that share a slot the older one loses its frame.
-/

namespace HeadsetStream.Video

structure FrameMap where
  capacity : Nat
  capacity_pos : 0 < capacity
  slots : Vector (Option FrameIndex) capacity

namespace FrameMap

/-- A map with every slot empty; it has at least one slot. -/
def empty (capacity : Nat) : FrameMap where
  capacity := max capacity 1
  capacity_pos := by omega
  slots := Vector.replicate _ none

instance : Inhabited FrameMap := ⟨empty 1⟩

theorem slot_lt (map : FrameMap) (pts : Nat) : pts % map.capacity < map.capacity :=
  Nat.mod_lt _ map.capacity_pos

/-- The frame in the slot of a timestamp. -/
def get? (map : FrameMap) (pts : Nat) : Option FrameIndex :=
  have := map.slot_lt pts
  map.slots[pts % map.capacity]

/-- The map with the slot of a timestamp holding `frame`, if any. -/
def put (map : FrameMap) (pts : Nat) (frame : Option FrameIndex) : FrameMap :=
  { map with slots := map.slots.set (pts % map.capacity) frame (map.slot_lt pts) }

/-- The map once `index` was submitted with a timestamp; the null index empties the slot. -/
def set (map : FrameMap) (pts : Nat) (index : FrameIndex) : FrameMap :=
  map.put pts index.named?

/-- The frame in the slot of a timestamp, and the map with that slot empty. -/
def take (map : FrameMap) (pts : Nat) : Option FrameIndex × FrameMap :=
  (map.get? pts, map.put pts none)

@[simp] theorem capacity_put (map : FrameMap) (pts : Nat) (frame : Option FrameIndex) :
    (map.put pts frame).capacity = map.capacity := rfl

@[simp] theorem get?_empty (capacity pts : Nat) : (empty capacity).get? pts = none := by
  simp [empty, get?]

/-- A write is seen by the timestamps that share its slot, and by no other. -/
theorem get?_put (map : FrameMap) (pts pts' : Nat) (frame : Option FrameIndex) :
    (map.put pts frame).get? pts' =
      if pts % map.capacity = pts' % map.capacity then frame else map.get? pts' := by
  simp [put, get?, Vector.getElem_set]

theorem get?_set (map : FrameMap) (pts pts' : Nat) (index : FrameIndex) :
    (map.set pts index).get? pts' =
      if pts % map.capacity = pts' % map.capacity then index.named? else map.get? pts' :=
  map.get?_put pts pts' _

theorem get?_take (map : FrameMap) (pts pts' : Nat) :
    (map.take pts).2.get? pts' =
      if pts % map.capacity = pts' % map.capacity then none else map.get? pts' :=
  map.get?_put pts pts' _

/-- Timestamps that share a slot find the same frame. -/
theorem get?_congr (map : FrameMap) {pts pts' : Nat}
    (h : pts % map.capacity = pts' % map.capacity) : map.get? pts = map.get? pts' := by
  simp only [get?, h]

end FrameMap

end HeadsetStream.Video
