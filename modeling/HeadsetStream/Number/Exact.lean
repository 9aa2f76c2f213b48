/-!
# The exact value of a single precision number

A finite single precision number is a whole number times a power of two. What is done with it
exactly, writing it in decimal or counting it in nanoseconds, is done on that whole number.
`roundDiv` is a quotient rounded to the nearest whole number.
-/

namespace HeadsetStream.Number

/-- What a floating-point number stands for; a finite one is `m * 2 ^ e`, or its negative. -/
inductive Exact where
  | nan
  | infinite (negative : Bool)
  | finite (negative : Bool) (m : Nat) (e : Int)
  deriving DecidableEq, Repr

/-- The bit in front of the point, which most numbers have without writing it. -/
def leadingBit : Nat := 0x800000

/-- What the 32 bits of a single precision number stand for. -/
def Exact.ofBits (bits : Nat) : Exact :=
  let negative := bits / 0x80000000 == 1
  let exponent : Nat := bits / leadingBit % 0x100
  let fraction := bits % leadingBit
  if exponent = 255 then
    if fraction = 0 then .infinite negative else .nan
  else if exponent = 0 then .finite negative fraction (-149)
  else .finite negative (leadingBit + fraction) ((exponent : Int) - 150)

/-- The exact value of a single precision number. -/
def Exact.of (x : Float32) : Exact := .ofBits x.toBits.toNat

/-- `2 ^ e` as a quotient of two whole numbers. -/
def twoPow (e : Int) : Nat × Nat :=
  if 0 ≤ e then (Nat.pow 2 e.toNat, 1) else (1, Nat.pow 2 (-e).toNat)

/-- `10 ^ k` as a quotient of two whole numbers. -/
def tenPow (k : Int) : Nat × Nat :=
  if 0 ≤ k then (Nat.pow 10 k.toNat, 1) else (1, Nat.pow 10 (-k).toNat)

/-- The whole number nearest to `num / den`; of two equally near ones the even one. -/
def roundDiv (num den : Nat) : Nat :=
  let down := num / den
  let rest := num % den
  if 2 * rest < den then down
  else if den < 2 * rest then down + 1
  else if down % 2 = 0 then down else down + 1

/-- The nearest whole number is at most half a unit away. -/
theorem roundDiv_near {num den : Nat} (h : 0 < den) :
    2 * num ≤ 2 * (roundDiv num den * den) + den ∧
      2 * (roundDiv num den * den) ≤ 2 * num + den := by
  have hdiv := Nat.div_add_mod num den
  have hmod := Nat.mod_lt num h
  have hsucc : (num / den + 1) * den = den * (num / den) + den := by
    rw [Nat.add_mul, Nat.one_mul, Nat.mul_comm]
  have hcomm : num / den * den = den * (num / den) := Nat.mul_comm ..
  simp only [roundDiv]
  split
  · omega
  · split
    · omega
    · split <;> omega

end HeadsetStream.Number
