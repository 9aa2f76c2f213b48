/-!
# Scalars

The formulas for filters, rotations and foveation are written once, over any scalar. The program
runs them in single precision, with the steps that need it in double precision; a law about the
formulas reads the same definitions over exact numbers.
-/

namespace HeadsetStream.Number

/-- Numbers that the formulas can be read over. -/
class Scalar (α : Type) extends Add α, Sub α, Mul α, Div α, Neg α, NatCast α

/-- Whole numbers in a formula over any scalar. -/
instance (priority := low) Scalar.instOfNat {α : Type} [Scalar α] {n : Nat} : OfNat α n :=
  ⟨(n : α)⟩

theorem Scalar.ofNat_eq {α : Type} [Scalar α] (n : Nat) :
    @OfNat.ofNat α n Scalar.instOfNat = (n : α) := rfl

/-- A scalar together with the one its delicate steps are worked out in. -/
class Precise (α : Type) (β : outParam Type) extends Scalar α where
  wide : Scalar β
  widen : α → β
  narrow : β → α
  /-- The ratio of a circle's circumference to its diameter. -/
  pi : β
  /-- The least whole number not below a wide scalar. -/
  ceil : β → β
  /-- The least whole number not below a scalar; negative ones count as zero. -/
  ceilNat : α → Nat

attribute [reducible, instance] Precise.wide

/-- A scalar with square roots and the order that branches test. -/
class Rooted (α : Type) extends Scalar α where
  sqrt : α → α
  lt : α → α → Bool

/-- A scalar with the functions that rotations need. `arc` and `arcSine` are the arc cosine and the
sine that interpolation uses, which may be rougher than `acos` and `sin`. -/
class Angular (α : Type) extends Rooted α where
  sin : α → α
  cos : α → α
  acos : α → α
  arc : α → α
  arcSine : α → α
  /-- Cosine of the angle below which two rotations are mixed in a straight line. -/
  straight : α

/-- `x` brought into the range from `lo` to `hi`. -/
def clamp {α : Type} [Rooted α] (x lo hi : α) : α :=
  if Rooted.lt x lo then lo else if Rooted.lt hi x then hi else x

end HeadsetStream.Number
