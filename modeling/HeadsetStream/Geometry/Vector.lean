import HeadsetStream.Number.Scalar

/-!
# Vectors of two and three components
-/

namespace HeadsetStream.Geometry
open Number

structure Vec2 (α : Type) where
  x : α
  y : α
  deriving DecidableEq, Repr, Inhabited

structure Vec3 (α : Type) where
  x : α
  y : α
  z : α
  deriving DecidableEq, Repr, Inhabited

namespace Vec2

variable {α β γ : Type}

/-- A vector made component by component. -/
def map (f : α → β) (v : Vec2 α) : Vec2 β := ⟨f v.x, f v.y⟩

/-- A vector made from the matching components of two. -/
def zipWith (f : α → β → γ) (v : Vec2 α) (w : Vec2 β) : Vec2 γ := ⟨f v.x w.x, f v.y w.y⟩

/-- Whether both components pass. -/
def all (p : α → Bool) (v : Vec2 α) : Bool := p v.x && p v.y

end Vec2

namespace Vec3

variable {α : Type} [Scalar α]

def zero : Vec3 α := ⟨0, 0, 0⟩

instance : Add (Vec3 α) := ⟨fun v w => ⟨v.x + w.x, v.y + w.y, v.z + w.z⟩⟩

instance : Sub (Vec3 α) := ⟨fun v w => ⟨v.x - w.x, v.y - w.y, v.z - w.z⟩⟩

/-- `v` with each component multiplied by `s`. -/
def scale (v : Vec3 α) (s : α) : Vec3 α := ⟨v.x * s, v.y * s, v.z * s⟩

def dot (v w : Vec3 α) : α := v.x * w.x + v.y * w.y + v.z * w.z

def length {α : Type} [Rooted α] (v : Vec3 α) : α := Rooted.sqrt (v.dot v)

end Vec3

end HeadsetStream.Geometry
