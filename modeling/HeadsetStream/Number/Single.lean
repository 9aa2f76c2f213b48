import HeadsetStream.Number.Scalar

/-!
# Single precision

The scalar that the program runs on: 32-bit binary floating point, every operation rounded, with
64-bit floating point as its wide scalar. Interpolation of rotations uses short polynomials for the
arc cosine and the sine; their coefficients are the nearest single precision numbers.
-/

namespace HeadsetStream.Number

instance : Scalar Float where
  natCast := Float.ofNat

instance : Scalar Float32 where
  natCast := Float32.ofNat

namespace Single

/-- The larger number; `floor` if `x` is not a number. -/
def atLeast (floor x : Float32) : Float32 :=
  if floor < x then x else floor

/-- The least whole number not below `x`, between 0 and the largest 32-bit word. -/
def ceilNat (x : Float32) : Nat :=
  x.ceil.toUInt32.toNat

/-- Whether the sign bit is set. -/
def isNegative (x : Float32) : Bool :=
  x.toBits &&& 0x80000000 != 0

/-- `magnitude` with the sign of `sign`. -/
def withSign (magnitude sign : Float32) : Float32 :=
  if isNegative sign then -magnitude.abs else magnitude.abs

def halfTurn : Float32 := Float32.ofBits 0x40490FDB

def quarterTurn : Float32 := Float32.ofBits 0x3FC90FDB

def fullTurn : Float32 := Float32.ofBits 0x40C90FDB

/-- Value at `x` of the polynomial with these coefficients, highest power first. -/
def polynomial (coefficients : List Float32) (x : Float32) : Float32 :=
  match coefficients with
  | [] => 0
  | c :: rest => rest.foldl (fun sum c => sum * x + c) c

def arcCoefficients : List Float32 :=
  [-0.0012624911, 0.00667009, -0.017088126, 0.03089188, -0.050174303, 0.08897899, -0.2145988,
    1.5707963]

/-- Arc cosine: a polynomial in `|x|` times the root of `1 - |x|`, reflected for negative `x`. -/
def arc (x : Float32) : Float32 :=
  let size := x.abs
  let root := (if 0 < 1 - size then 1 - size else 0).sqrt
  let angle := polynomial arcCoefficients size * root
  if 0 ≤ x then angle else halfTurn - angle

def sineCoefficients : List Float32 :=
  [-2.3889859e-8, 2.7525562e-6, -0.00019840874, 0.008333331, -0.16666667, 1]

/-- From here on every number is whole. -/
def wholeFrom : Float32 := 8388608

/-- `x` rounded to a whole number, halves to the even neighbour: sums of the size of `wholeFrom`
have no fraction. A zero comes out positive. -/
def roundEven (x : Float32) : Float32 :=
  if x.abs ≤ wholeFrom then
    let shift := withSign wholeFrom x
    x + shift - shift
  else x

/-- Sine: `x` is brought into a half turn around zero, folded into a quarter turn on either side,
and put into an odd polynomial. -/
def arcSine (x : Float32) : Float32 :=
  let turns := roundEven (x * 0.15915494)
  let x := x - fullTurn * turns
  let x := if x.abs ≤ quarterTurn then x else withSign halfTurn x - x
  polynomial sineCoefficients (x * x) * x

end Single

instance : Precise Float32 Float where
  wide := inferInstance
  widen := Float32.toFloat
  narrow := Float.toFloat32
  pi := Float.ofBits 0x400921FB54442D18
  ceil := Float.ceil
  ceilNat := Single.ceilNat

instance : Angular Float32 where
  sqrt := Float32.sqrt
  lt a b := a < b
  sin := Float32.sin
  cos := Float32.cos
  acos := Float32.acos
  arc := Single.arc
  arcSine := Single.arcSine
  straight := 0.9995

end HeadsetStream.Number
