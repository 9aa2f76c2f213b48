import HeadsetStream.Geometry.Vector

/-!
# Rotations as unit quaternions

`q` and `-q` are the same rotation. Interpolation takes the shorter of the two arcs between them.
The order of additions is part of each definition: sums of rounded numbers depend on it.
-/

namespace HeadsetStream.Geometry
open Number

structure Quat (α : Type) where
  x : α
  y : α
  z : α
  w : α
  deriving DecidableEq, Repr, Inhabited

namespace Quat

variable {α : Type}

def identity [Scalar α] : Quat α := ⟨0, 0, 0, 1⟩

def map (f : α → α) (q : Quat α) : Quat α := ⟨f q.x, f q.y, f q.z, f q.w⟩

def zipWith (f : α → α → α) (p q : Quat α) : Quat α :=
  ⟨f p.x q.x, f p.y q.y, f p.z q.z, f p.w q.w⟩

instance [Neg α] : Neg (Quat α) := ⟨map (-·)⟩

def dot [Scalar α] (p q : Quat α) : α :=
  p.x * q.x + p.z * q.z + (p.y * q.y + p.w * q.w)

/-- The opposite rotation of a unit quaternion. -/
def inverse [Scalar α] (q : Quat α) : Quat α := ⟨-q.x, -q.y, -q.z, q.w⟩

/-- The rotation `r` followed by `l`. -/
def mul [Scalar α] (l r : Quat α) : Quat α where
  x := l.w * r.x + l.x * r.w + (l.y * r.z - l.z * r.y)
  y := l.w * r.y - l.x * r.z + (l.y * r.w + l.z * r.x)
  z := l.w * r.z + l.x * r.y + (-(l.y * r.x) + l.z * r.w)
  w := l.w * r.w - l.x * r.x + (-(l.y * r.y) - l.z * r.z)

instance [Scalar α] : Mul (Quat α) := ⟨mul⟩

/-- `q` at length one. -/
def normalize [Rooted α] (q : Quat α) : Quat α :=
  let length := Rooted.sqrt (q.dot q)
  q.map (· / length)

/-- The rotation a share `s` of the way along the shorter arc from `a` to `b`. Rotations less than
an angle apart, whose cosine is `Angular.straight`, are mixed in a straight line. -/
def slerp [Angular α] (a b : Quat α) (s : α) : Quat α :=
  let cosine := a.dot b
  let far := Rooted.lt cosine 0
  let b := if far then -b else b
  let cosine := if far then -cosine else cosine
  if Rooted.lt Angular.straight cosine then
    (zipWith (fun p q => (q - p) * s + p) a b).normalize
  else
    let angle := Angular.arc cosine
    let weightA := Angular.arcSine (angle * (1 - s))
    let weightB := Angular.arcSine (angle * s)
    let whole := Angular.arcSine angle
    zipWith (fun p q => (p * weightA + q * weightB) / whole) a b

/-- The turn by `angle` around the upright axis. -/
def aroundY [Angular α] (angle : α) : Quat α :=
  ⟨0, Angular.sin (angle / 2), 0, Angular.cos (angle / 2)⟩

end Quat

end HeadsetStream.Geometry
