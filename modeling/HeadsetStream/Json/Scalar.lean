import HeadsetStream.Json.Value
import HeadsetStream.Number.Rounding

/-!
# Reading scalars

A whole number that fits 64 bits is read as the nearest single precision number. Any other number
is read in double precision first: the coefficient is rounded, then multiplied or divided by the
rounded power of ten, so the result may be one off the nearest. A number beyond double precision has
no reading. Integers are plain numbers in range; minus zero is no integer.
-/

namespace HeadsetStream.Json
open HeadsetStream.Number (Binary BinaryFormat)

/-- How many values a word of `bits` bits has. -/
def wordCount (bits : Nat) : Nat := Nat.pow 2 bits

namespace Number

/-- The largest power of ten that double precision has. -/
def topPower : Nat := 308

/-- A power of ten in double precision. -/
def powerOfTen (n : Nat) : Binary := BinaryFormat.double.ofNat (Nat.pow 10 n)

/-- The number without its sign, in double precision, if its power of ten is not too large. Below
the reach of one power of ten the division is done in two steps, and below that of two nothing is
left. -/
def magnitude? (n : Number) : Option Binary :=
  let size := BinaryFormat.double.ofNat n.coefficient
  if n.coefficient = 0 then some size
  else if topPower < n.exponent then none
  else if 0 ≤ n.exponent then some (BinaryFormat.double.mul size (powerOfTen n.exponent.toNat))
  else if -n.exponent ≤ topPower then
    some (BinaryFormat.double.div size (powerOfTen (-n.exponent).toNat))
  else if -n.exponent ≤ 2 * topPower then
    let part := BinaryFormat.double.div size (powerOfTen topPower)
    some (BinaryFormat.double.div part (powerOfTen (-n.exponent - topPower).toNat))
  else some ⟨0, 0⟩

/-- The number without its sign, in double precision, if it is in range. -/
def toDouble? (n : Number) : Option Binary := n.magnitude?.filter BinaryFormat.double.holds

/-- The integer that a plain number writes; minus zero writes none. -/
def toInt? (n : Number) : Option Int :=
  if !n.plain then none
  else if n.negative then
    if n.coefficient = 0 then none else some (-(n.coefficient : Int))
  else some n.coefficient

/-- The integer that a plain number writes, if it has a 64-bit form, signed or not. -/
def toWord? (n : Number) : Option Int :=
  n.toInt?.bind fun i => if -(wordCount 63 : Int) ≤ i && i < wordCount 64 then some i else none

/-- The single precision number that a number is read as. -/
def toSingle? (n : Number) : Option Float32 :=
  match n.toWord? with
  | some i => some ((BinaryFormat.single.ofNat i.natAbs).toSingle (i < 0))
  | none => n.toDouble?.map fun size => (BinaryFormat.single.ofBinary size).toSingle n.negative

end Number

namespace Value

def single? : Value → Option Float32
  | .number n => n.toSingle?
  | _ => none

/-- An integer from `lo` to below `hi`. -/
def intIn? (lo hi : Int) : Value → Option Int
  | .number n => n.toInt?.bind fun i => if lo ≤ i && i < hi then some i else none
  | _ => none

/-- A natural number below `2 ^ bits`. -/
def natBelow? (bits : Nat) (value : Value) : Option Nat :=
  (value.intIn? 0 (wordCount bits)).map Int.toNat

/-- A signed number of `bits` bits. -/
def signed? (bits : Nat) : Value → Option Int :=
  intIn? (-(wordCount (bits - 1))) (wordCount (bits - 1))

def bool? : Value → Option Bool
  | .bool b => some b
  | _ => none

def text? : Value → Option String
  | .string text => text
  | _ => none

/-- Exactly `count` items. -/
def items? (count : Nat) : Value → Option (List Value)
  | .array items => if items.length = count then some items else none
  | _ => none

/-- The name of a choice: a string, or an object with that one name and null. -/
def choice? : Value → Option String
  | .string text => text
  | .object [(name, .null)] => name
  | _ => none

end Value

end HeadsetStream.Json
