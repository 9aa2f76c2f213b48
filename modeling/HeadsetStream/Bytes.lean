/-!
# Byte strings and little-endian words

A byte string is a list of bytes. A number is written into a field of `width` bytes with its lowest
byte first; reading the field gives the number back, and every field of that width is the written
form of the number it reads as.
-/

namespace HeadsetStream

abbrev Bytes := List UInt8

namespace Bytes

/-- The lowest `width` bytes of `n`, lowest first. -/
def ofNat : (width : Nat) → (n : Nat) → Bytes
  | 0, _ => []
  | width + 1, n => UInt8.ofNat n :: ofNat width (n / 256)

/-- The number whose bytes, lowest first, are `b`. -/
def toNat : Bytes → Nat
  | [] => 0
  | b :: rest => b.toNat + 256 * toNat rest

@[simp] theorem length_ofNat (width n : Nat) : (ofNat width n).length = width := by
  induction width generalizing n with
  | zero => rfl
  | succ width ih => simp [ofNat, ih]

/-- How many numbers a field of `width` bytes can hold. -/
def fieldRange : (width : Nat) → Nat
  | 0 => 1
  | width + 1 => 256 * fieldRange width

theorem toNat_lt (b : Bytes) : b.toNat < fieldRange b.length := by
  induction b with
  | nil => simp [toNat, fieldRange]
  | cons b rest ih =>
    have hb := b.toNat_lt
    simp only [toNat, List.length_cons, fieldRange]
    omega

theorem toNat_ofNat {width n : Nat} (h : n < fieldRange width) : (ofNat width n).toNat = n := by
  induction width generalizing n with
  | zero =>
    simp only [fieldRange] at h
    simp only [ofNat, toNat]
    omega
  | succ width ih =>
    have hn : n / 256 < fieldRange width := Nat.div_lt_of_lt_mul h
    simp only [ofNat, toNat, ih hn, UInt8.toNat_ofNat']
    omega

theorem ofNat_toNat (b : Bytes) : ofNat b.length b.toNat = b := by
  induction b with
  | nil => rfl
  | cons b rest ih =>
    have hb := b.toNat_lt
    have hdiv : (b.toNat + 256 * toNat rest) / 256 = toNat rest := by omega
    have hhead : UInt8.ofNat (b.toNat + 256 * toNat rest) = b := by
      apply UInt8.toNat_inj.mp
      rw [UInt8.toNat_ofNat']
      omega
    simp [List.length_cons, ofNat, toNat, hdiv, hhead, ih]

/-- The field of `width` bytes that starts `offset` bytes into `b`. -/
def field (b : Bytes) (offset width : Nat) : Bytes :=
  (b.drop offset).take width

/-- The 32-bit word at `offset`; bytes past the end of `b` count as zero. -/
def word32 (b : Bytes) (offset : Nat) : UInt32 :=
  UInt32.ofNat (b.field offset 4).toNat

/-- The 64-bit word at `offset`; bytes past the end of `b` count as zero. -/
def word64 (b : Bytes) (offset : Nat) : UInt64 :=
  UInt64.ofNat (b.field offset 8).toNat

end Bytes

end HeadsetStream
