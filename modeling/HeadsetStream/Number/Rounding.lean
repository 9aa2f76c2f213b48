import HeadsetStream.Number.Exact

/-!
# Rounding to a binary format

A binary format has the numbers `m * 2 ^ e` of which the mantissa `m` is short enough and the
exponent not too small. A quotient is rounded to the nearest of them, of two equally near ones to
the one with the even mantissa. How large a number may be is asked of the result.
-/

namespace HeadsetStream.Number

/-- The number `m * 2 ^ e`. -/
structure Binary where
  m : Nat
  e : Int
  deriving DecidableEq, Repr, Inhabited

/-- A binary format: how many bits a mantissa has, the least exponent, and the exponent of the first
power of two that is too large. -/
structure BinaryFormat where
  bits : Nat
  least : Int
  top : Int
  bits_pos : 0 < bits := by decide
  deriving DecidableEq, Repr

/-- The exponent of the largest power of two that is not above `num / den`. -/
def binade (num den : Nat) : Int :=
  let log : Int := num.log2 - den.log2
  let (two, half) := twoPow log
  if den * two ≤ num * half then log else log - 1

namespace BinaryFormat

def single : BinaryFormat := { bits := 24, least := -149, top := 128 }

def double : BinaryFormat := { bits := 53, least := -1074, top := 1024 }

variable (format : BinaryFormat)

/-- The exponent of the grid that `num / den` is rounded on. -/
def gridExponent (num den : Nat) : Int :=
  max (binade num den + 1 - format.bits) format.least

/-- The number nearest to `num / den`. Its mantissa may be a power of two one bit too long. -/
def round (num den : Nat) : Binary :=
  if num = 0 then ⟨0, format.least⟩
  else
    let e := format.gridExponent num den
    let (two, half) := twoPow e
    ⟨roundDiv (num * half) (den * two), e⟩

def ofNat (n : Nat) : Binary := format.round n 1

def ofBinary (x : Binary) : Binary :=
  let (two, half) := twoPow x.e
  format.round (x.m * two) half

def mul (x y : Binary) : Binary :=
  let (two, half) := twoPow (x.e + y.e)
  format.round (x.m * y.m * two) half

def div (x y : Binary) : Binary :=
  let (two, half) := twoPow (x.e - y.e)
  format.round (x.m * two) (y.m * half)

/-- Whether a number is small enough. -/
def holds (x : Binary) : Bool :=
  let (two, half) := twoPow (x.e - format.top)
  x.m * two < half

end BinaryFormat

/-- The bits of the infinity. -/
def infinityBits : Nat := 0x7F800000

/-- A number that is rounded to single precision, or its negative. The exponent is stored above the
mantissa, so that a mantissa that is too long counts it up; from there on the number is infinite
once the exponents are used up. -/
def Binary.toSingle (x : Binary) (negative : Bool) : Float32 :=
  let size := min ((x.e + 149).toNat * leadingBit + x.m) infinityBits
  .ofBits (.ofNat ((if negative then 0x80000000 else 0) + size))

end HeadsetStream.Number
