import HeadsetStream.Number.Exact

/-!
# Writing single precision numbers in decimal

`shortestText` writes the fewest digits that read back as the same number, and of those the nearest,
of two equally near ones the larger; never with an exponent, and without a point if the number is
whole. `fixedText` writes a fixed count of places, the exact value rounded to the nearest, a half to
the even digit.
-/

namespace HeadsetStream.Number

/-- The decimal number `coefficient * 10 ^ exponent`. -/
structure Decimal where
  coefficient : Nat
  exponent : Int
  deriving DecidableEq, Repr, Inhabited

namespace Decimal

/-- Digits with `places` of them behind the point; without a point if there are none. -/
def placed (n places : Nat) : String :=
  if places = 0 then toString n
  else
    let digits := Nat.toDigits 10 n
    let digits := List.replicate (places + 1 - digits.length) '0' ++ digits
    let whole := digits.take (digits.length - places)
    let rest := digits.drop (digits.length - places)
    String.ofList (whole ++ '.' :: rest)

/-- The number without an exponent: zeros stand in for what a positive exponent says. -/
def positional (d : Decimal) : String :=
  if 0 ≤ d.exponent then toString (d.coefficient * Nat.pow 10 d.exponent.toNat)
  else placed d.coefficient (-d.exponent).toNat

end Decimal

/-- The numbers that round to a floating-point number: from `(4 * m - below) * 2 ^ (e - 2)` to
`(4 * m + 2) * 2 ^ (e - 2)`, the ends included if `m` is even. -/
structure RoundingInterval where
  m : Nat
  e : Int
  below : Nat
  deriving DecidableEq, Repr

namespace RoundingInterval

/-- The interval of the single precision number `m * 2 ^ e`: the gap below a power of two is half
as wide, except at the lowest exponent. -/
def single (m : Nat) (e : Int) : RoundingInterval :=
  ⟨m, e, if m = leadingBit ∧ -149 < e then 1 else 2⟩

/-- Whether `d * 10 ^ k` is in the interval. -/
def holds (r : RoundingInterval) (d : Nat) (k : Int) : Bool :=
  let (two, half) := twoPow (r.e - 2)
  let (ten, tenth) := tenPow k
  let x := d * ten * half
  let lo := (4 * r.m - r.below) * two * tenth
  let hi := (4 * r.m + 2) * two * tenth
  if r.m % 2 = 0 then lo ≤ x && x ≤ hi else lo < x && x < hi

/-- The nearest multiple of `10 ^ k` in the interval, if it has one. Of two equally near ones it is
the larger. -/
def nearest? (r : RoundingInterval) (k : Int) : Option Decimal :=
  let (two, half) := twoPow r.e
  let (ten, tenth) := tenPow k
  let num := r.m * two * tenth
  let den := half * ten
  let down := num / den
  let downHolds := down ≠ 0 && r.holds down k
  let upHolds := r.holds (down + 1) k
  if downHolds && upHolds then
    some ⟨if 2 * (num % den) < den then down else down + 1, k⟩
  else if downHolds then some ⟨down, k⟩
  else if upHolds then some ⟨down + 1, k⟩
  else none

/-- The nearest decimal in the interval on the coarsest grid that has one, where the grid is
`10 ^ k` and the finer grids tried are the next `fuel`. -/
def shortest (r : RoundingInterval) : (fuel : Nat) → (k : Int) → Decimal
  | 0, k => (r.nearest? k).getD ⟨0, 0⟩
  | fuel + 1, k => (r.nearest? k).getD (r.shortest fuel (k - 1))

end RoundingInterval

/-- The powers of ten from the one above every single precision number to the finest that any of
them needs. -/
def singleGrids : Nat := 99

/-- The fewest digits that read back as the single precision number `m * 2 ^ e`. -/
def Decimal.shortest (m : Nat) (e : Int) : Decimal :=
  if m = 0 then ⟨0, 0⟩ else (RoundingInterval.single m e).shortest singleGrids 39

/-- The fewest digits that read back as `x`. -/
def shortestText (x : Float32) : String :=
  match Exact.of x with
  | .nan => "NaN"
  | .infinite negative => if negative then "-inf" else "inf"
  | .finite negative m e =>
    let digits := (Decimal.shortest m e).positional
    if negative then "-" ++ digits else digits

/-- The value of `x` with a fixed count of places. -/
def fixedText (places : Nat) (x : Float32) : String :=
  match Exact.of x with
  | .nan => "NaN"
  | .infinite negative => if negative then "-inf" else "inf"
  | .finite negative m e =>
    let (two, half) := twoPow e
    let digits := Decimal.placed (roundDiv (m * two * Nat.pow 10 places) half) places
    if negative then "-" ++ digits else digits

end HeadsetStream.Number
