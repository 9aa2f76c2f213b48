import HeadsetStream.Number.Scalar
import Mathlib.Algebra.Order.Round
import Mathlib.Data.Rat.Floor

/-!
# Formulas over rational numbers

A formula over any scalar can be read over the rational numbers. There is nothing to be read if a
divisor is zero, so the numbers here may be missing, and what is computed from a missing one is
missing too. A result that is there says that no divisor on the way to it was zero.
-/

namespace HeadsetStream.Number

/-- A rational number, or nothing where a formula divides by zero. -/
structure Ratio where
  value? : Option ℚ
  deriving DecidableEq

instance : Scalar ℚ where

/-- The numbers of any field can be read exactly too. This is no instance, as it would compete with
the field's own operations. -/
abbrev Scalar.ofField (K : Type) [Field K] : Scalar K where

namespace Ratio

def of (x : ℚ) : Ratio := ⟨some x⟩

/-- An operation that needs both numbers. -/
def lift (operation : ℚ → ℚ → Option ℚ) (a b : Ratio) : Ratio :=
  ⟨a.value?.bind fun x => b.value?.bind fun y => operation x y⟩

instance : Scalar Ratio where
  add := lift fun x y => some (x + y)
  sub := lift fun x y => some (x - y)
  mul := lift fun x y => some (x * y)
  div := lift fun x y => if y = 0 then none else some (x / y)
  neg a := ⟨a.value?.map fun x => -x⟩
  natCast n := of n

/-- No step is rounded. The circle's ratio is not rational. -/
instance : Precise Ratio Ratio where
  wide := inferInstance
  widen := id
  narrow := id
  pi := ⟨none⟩
  ceil a := ⟨a.value?.map fun x => (⌈x⌉ : ℚ)⟩
  ceilNat a := (a.value?.map fun x => ⌈x⌉₊).getD 0

variable (x y : ℚ)

theorem of_injective : Function.Injective of := by
  rintro x y h
  simpa [of] using h

@[simp] theorem of_add : of x + of y = of (x + y) := rfl

@[simp] theorem of_sub : of x - of y = of (x - y) := rfl

@[simp] theorem of_mul : of x * of y = of (x * y) := rfl

theorem of_div {x y : ℚ} (h : y ≠ 0) : of x / of y = of (x / y) := by
  show lift _ (of x) (of y) = _
  simp [lift, of, h]

@[simp] theorem ofNat_eq (n : Nat) : @OfNat.ofNat Ratio n Scalar.instOfNat = of n := rfl

@[simp] theorem natCast_eq (n : Nat) : (n : Ratio) = of n := rfl

@[simp] theorem widen_eq (a : Ratio) : (Precise.widen a : Ratio) = a := rfl

@[simp] theorem narrow_eq (a : Ratio) : (Precise.narrow a : Ratio) = a := rfl

@[simp] theorem ceil_of : (Precise.ceil Ratio (of x) : Ratio) = of ⌈x⌉ := rfl

@[simp] theorem ceilNat_of : Precise.ceilNat (of x) = ⌈x⌉₊ := rfl

end Ratio

end HeadsetStream.Number
