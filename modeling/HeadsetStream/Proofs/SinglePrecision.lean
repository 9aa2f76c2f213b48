import HeadsetStream.Number.Exact
import Mathlib.Algebra.Order.Field.Power
import Mathlib.Data.Rat.Cast.Order
import Mathlib.Tactic.NormNum
import Mathlib.Tactic.Positivity
import Mathlib.Tactic.Ring

/-!
# Single precision as rational numbers

A finite single precision number has a value, a rational number. It can be read off the fields that
the number is packed in, and packing loses nothing of it. Comparisons and the absolute value are
those of the values.
-/

namespace HeadsetStream.Number
open Float.Model UnpackedFloat

/-- What a floating-point number stands for, if that is a number, and 0 if not. -/
def Exact.value : Exact → ℚ
  | .finite negative m e => (if negative then -1 else 1) * (m * 2 ^ e)
  | .nan | .infinite _ => 0

theorem twoPow_eq (e : ℤ) : 0 < (twoPow e).2 ∧ ((twoPow e).1 : ℚ) / (twoPow e).2 = 2 ^ e := by
  unfold twoPow
  split
  · next h =>
    refine ⟨Nat.one_pos, ?_⟩
    rw [Nat.pow_eq, Nat.cast_pow, Nat.cast_one, div_one, ← zpow_natCast, Int.toNat_of_nonneg h]
    rfl
  · next h =>
    refine ⟨Nat.two_pow_pos _, ?_⟩
    rw [Nat.pow_eq, Nat.cast_pow, Nat.cast_one, one_div, ← zpow_natCast,
      Int.toNat_of_nonneg (by omega), zpow_neg, inv_inv]
    rfl

namespace Single

/-- The number that a single precision number is, and 0 if it is none. -/
def value (x : Float32) : ℚ := (Exact.of x).value

def isNegativeSign : Sign → Bool
  | .negative => true
  | .positive => false

/-- What an unpacked number stands for. -/
def exactly : UnpackedFloat → Exact
  | .infinity sign => .infinite (isNegativeSign sign)
  | .notANumber => .nan
  | .zero sign => .finite (isNegativeSign sign) 0 (-149)
  | .finite sign m e _ => .finite (isNegativeSign sign) m e

/-- What mantissas and exponents numbers have: the leading bit is there unless the exponent is the
least one. -/
def Fits (m : Nat) (e : ℤ) : Prop :=
  m < 2 * leadingBit ∧ -149 ≤ e ∧ e ≤ 104 ∧ (leadingBit ≤ m ∨ e = -149)

/-- The numbers that single precision has. -/
def Canonical : UnpackedFloat → Prop
  | .finite _ m e _ => Fits m e
  | .zero _ => True
  | .infinity _ | .notANumber => False

private theorem toNat_unpackMantissa (bits : UInt32) :
    (@unpackMantissa .binary32 bits.toBitVec).toNat = bits.toNat % leadingBit := by
  show (bits.toNat >>> 0) % 2 ^ 23 = bits.toNat % leadingBit
  rw [Nat.shiftRight_zero]
  rfl

private theorem toNat_unpackExponent (bits : UInt32) :
    (@unpackExponent .binary32 bits.toBitVec).toNat = bits.toNat / leadingBit % 0x100 := by
  show (bits.toNat >>> 23) % 2 ^ 8 = bits.toNat / leadingBit % 0x100
  rw [Nat.shiftRight_eq_div_pow]
  rfl

private theorem toNat_unpackSign (bits : UInt32) :
    (@unpackSign .binary32 bits.toBitVec).toNat = bits.toNat / 0x80000000 := by
  have hbits := bits.toNat_lt
  show (bits.toNat >>> 31) % 2 ^ 1 = bits.toNat / 0x80000000
  rw [Nat.shiftRight_eq_div_pow, Nat.mod_eq_of_lt (by omega)]

private theorem isNegativeSign_ofBitVec (bit : BitVec 1) :
    isNegativeSign (.ofBitVec bit) = (bit.toNat == 1) := by
  revert bit
  decide

theorem toNat_leading (fraction : BitVec 23) :
    (1#1 ++ fraction).toNat = leadingBit + fraction.toNat := by
  rw [BitVec.toNat_append, ← Nat.shiftLeft_add_eq_or_of_lt fraction.isLt]
  rfl

theorem finite_eq {sign : Sign} {m n : Nat} {e f : ℤ} {hm : 0 < m} (h : m = n) (h' : e = f) :
    finite sign m e hm = finite sign n f (h ▸ hm) := by
  subst h h'
  rfl

/-- What is packed in these fields. -/
def ofFields (sign : Sign) (exponent : BitVec 8) (fraction : BitVec 23) : UnpackedFloat :=
  if exponent = -1#8 then if fraction = 0#23 then .infinity sign else .notANumber
  else if exponent = 0#8 then
    if h : fraction = 0#23 then .zero sign
    else
      .finite sign fraction.toNat (exponent.toNat - 150 + 1)
        (Nat.pos_of_ne_zero fun hzero => h (BitVec.eq_of_toNat_eq hzero))
  else
    .finite sign (1#1 ++ fraction).toNat (exponent.toNat - 150)
      (toNat_leading fraction ▸ Nat.add_pos_left (by decide) _)

theorem unpack_eq (bits : BitVec 32) :
    unpack .binary32 bits = ofFields (.ofBitVec (@unpackSign .binary32 bits))
      (@unpackExponent .binary32 bits) (@unpackMantissa .binary32 bits) := rfl

theorem exactly_ofFields (sign : Sign) (exponent : BitVec 8) (fraction : BitVec 23) :
    exactly (ofFields sign exponent fraction) =
      if exponent = -1#8 then
        if fraction = 0#23 then .infinite (isNegativeSign sign) else .nan
      else if exponent = 0#8 then .finite (isNegativeSign sign) fraction.toNat (-149)
      else .finite (isNegativeSign sign) (leadingBit + fraction.toNat) (exponent.toNat - 150) := by
  by_cases hall : exponent = -1#8
  · rw [ofFields, if_pos hall, if_pos hall]
    split <;> rfl
  · rw [ofFields, if_neg hall, if_neg hall]
    by_cases hnone : exponent = 0#8
    · subst hnone
      rw [if_pos rfl, if_pos rfl]
      by_cases hzero : fraction = 0#23
      · subst hzero
        rfl
      · rw [dif_neg hzero]
        rfl
    · rw [if_neg hnone, if_neg hnone]
      exact congrArg (fun m => Exact.finite _ m _) (toNat_leading fraction)

/-- The exact value is read off the unpacked number. -/
theorem exactly_unpack (bits : UInt32) :
    exactly (unpack .binary32 bits.toBitVec) = .ofBits bits.toNat := by
  have hmantissa := toNat_unpackMantissa bits
  have hexponent := toNat_unpackExponent bits
  have hsign : isNegativeSign (.ofBitVec (@unpackSign .binary32 bits.toBitVec)) =
      (bits.toNat / 0x80000000 == 1) := by
    rw [isNegativeSign_ofBitVec, toNat_unpackSign]
  have hall : @unpackExponent .binary32 bits.toBitVec = -1#8 ↔
      bits.toNat / leadingBit % 0x100 = 255 := by
    rw [← hexponent, ← BitVec.toNat_inj]
    rfl
  have hnone : @unpackExponent .binary32 bits.toBitVec = 0#8 ↔
      bits.toNat / leadingBit % 0x100 = 0 := by
    rw [← hexponent, ← BitVec.toNat_inj]
    rfl
  have hzero : @unpackMantissa .binary32 bits.toBitVec = 0#23 ↔ bits.toNat % leadingBit = 0 := by
    rw [← hmantissa, ← BitVec.toNat_inj]
    rfl
  rw [unpack_eq, exactly_ofFields]
  simp only [Exact.ofBits, hall, hnone, hzero, hsign, hmantissa, hexponent]

theorem exact_of_eq (x : Float32) : Exact.of x = exactly x.toModel.unpack :=
  (exactly_unpack x.toBits).symm

/-- The bits of a finite number are its sign, its exponent counted from the least one, and its
mantissa, one above the other. -/
theorem ofBits_finite {bits : Nat} (hbits : bits < 2 ^ 32) {negative : Bool} {m : Nat} {e : ℤ}
    (h : Exact.ofBits bits = .finite negative m e) :
    Fits m e ∧
      bits = (if negative then 0x80000000 else 0) + ((e + 149).toNat * leadingBit + m) := by
  have hsign : (bits / 0x80000000 == 1) = true ↔ 0x80000000 ≤ bits := by
    rw [beq_iff_eq]
    omega
  unfold Exact.ofBits at h
  unfold Fits leadingBit at *
  dsimp only at h
  split at h
  · split at h <;> cases h
  · split at h <;>
      · obtain ⟨rfl, rfl, rfl⟩ := Exact.finite.inj h
        refine ⟨by omega, ?_⟩
        simp only [hsign]
        split <;> omega

theorem canonical_unpack_bits {bits : UInt32}
    (h : (unpack .binary32 bits.toBitVec).isFinite = true) :
    Canonical (unpack .binary32 bits.toBitVec) := by
  have hexact := exactly_unpack bits
  generalize unpack .binary32 bits.toBitVec = u at h hexact
  cases u with
  | infinity sign => cases h
  | notANumber => cases h
  | zero sign => trivial
  | finite sign m e hm => exact (ofBits_finite bits.toNat_lt hexact.symm).1

theorem canonical_unpack {x : Float32} (h : x.isFinite = true) : Canonical x.toModel.unpack :=
  canonical_unpack_bits h

theorem unpackSign_packComponents (sign : Sign) (exponent : BitVec 8) (fraction : BitVec 23) :
    @unpackSign .binary32 (packComponents .binary32 sign exponent fraction) = sign.toBitVec := by
  show (sign.toBitVec ++ exponent ++ fraction).extractLsb' 31 1 = sign.toBitVec
  rw [BitVec.extractLsb'_append_eq_of_le (by decide),
    BitVec.extractLsb'_append_eq_of_le (by decide)]
  cases sign <;> rfl

@[simp] theorem ofBitVec_toBitVec (sign : Sign) : Sign.ofBitVec sign.toBitVec = sign := by
  cases sign <;> rfl

private theorem unpack_pack_normal (sign : Sign) {m : Nat} {e : ℤ} (hm : 0 < m)
    (hbelow : m < 2 * leadingBit) (hleading : leadingBit ≤ m) (hleast : -149 ≤ e)
    (hgreatest : e ≤ 104) :
    unpack .binary32 (pack .binary32 (.finite sign m e hm)) = .finite sign m e hm := by
  unfold leadingBit at hbelow hleading
  have hlog : m.log2 + 1 = 24 :=
    congrArg (· + 1) ((Nat.log2_eq_iff hm.ne').mpr ⟨hleading, hbelow⟩)
  have hstored : (BitVec.ofNat 8 (e + 127 + 23).toNat).toNat = (e + 127 + 23).toNat := by
    rw [BitVec.toNat_ofNat, Nat.mod_eq_of_lt (by omega)]
  have hall : BitVec.ofNat 8 (e + 127 + 23).toNat ≠ -1#8 := by
    rw [ne_eq, ← BitVec.toNat_inj, hstored]
    show ¬ (e + 127 + 23).toNat = 255
    omega
  have hnone : BitVec.ofNat 8 (e + 127 + 23).toNat ≠ 0#8 := by
    rw [ne_eq, ← BitVec.toNat_inj, hstored]
    show ¬ (e + 127 + 23).toNat = 0
    omega
  have hmantissa : (1#1 ++ BitVec.ofNat 23 m).toNat = m := by
    rw [toNat_leading, BitVec.toNat_ofNat]
    unfold leadingBit
    omega
  show unpack .binary32 (if 2 ^ 8 ≤ (e + 127 + 23).toNat + 1 then _
    else if m.log2 + 1 = 24 then _ else _) = _
  rw [if_neg (by omega), if_pos hlog]
  rw [unpack_eq, unpackMantissa_packComponents, unpackExponent_packComponents,
    unpackSign_packComponents, ofBitVec_toBitVec]
  show ofFields sign (BitVec.ofNat 8 (e + 127 + 23).toNat) (BitVec.ofNat 23 m) = _
  rw [ofFields, if_neg hall, if_neg hnone]
  exact finite_eq hmantissa (by rw [hstored]; omega)

private theorem unpack_pack_subnormal (sign : Sign) {m : Nat} (hm : 0 < m)
    (hbelow : m < leadingBit) :
    unpack .binary32 (pack .binary32 (.finite sign m (-149) hm)) = .finite sign m (-149) hm := by
  unfold leadingBit at hbelow
  have hlog : m.log2 < 23 := (Nat.log2_lt hm.ne').mpr hbelow
  have hmantissa : (BitVec.ofNat 23 m).toNat = m := by
    rw [BitVec.toNat_ofNat, Nat.mod_eq_of_lt hbelow]
  have hzero : BitVec.ofNat 23 m ≠ 0#23 := by
    rw [ne_eq, ← BitVec.toNat_inj, hmantissa]
    exact hm.ne'
  have hbiased : ¬ 2 ^ 8 ≤ (-149 + 127 + 23 : ℤ).toNat + 1 := by decide
  show unpack .binary32 (if 2 ^ 8 ≤ (-149 + 127 + 23 : ℤ).toNat + 1 then _
    else if m.log2 + 1 = 24 then _ else _) = _
  rw [if_neg hbiased, if_neg (by omega)]
  rw [unpack_eq, unpackMantissa_packComponents, unpackExponent_packComponents,
    unpackSign_packComponents, ofBitVec_toBitVec]
  show ofFields sign 0#8 (BitVec.ofNat 23 m) = _
  rw [ofFields, if_neg (by decide), if_pos rfl, dif_neg hzero]
  exact finite_eq hmantissa rfl

/-- A number that single precision has is packed without loss. -/
theorem unpack_pack {u : UnpackedFloat} (h : Canonical u) :
    (Float32.Model.pack u).unpack = u := by
  show unpack .binary32 (pack .binary32 u) = u
  cases u with
  | infinity sign => exact h.elim
  | notANumber => exact h.elim
  | zero sign => cases sign <;> rfl
  | finite sign m e hm =>
    obtain ⟨hbelow, hleast, hgreatest, hleading⟩ := h
    by_cases hnormal : leadingBit ≤ m
    · exact unpack_pack_normal sign hm hbelow hnormal hleast hgreatest
    · obtain rfl := hleading.resolve_left hnormal
      exact unpack_pack_subnormal sign hm (Nat.lt_of_not_le hnormal)

/-- The bits that a number is made of are those that it has, but for what is not a number. -/
theorem exact_of_ofBits (bits : UInt32) : Exact.of (.ofBits bits) = .ofBits bits.toNat := by
  have hmodel : (Float32.ofBits bits).toModel.unpack =
      (Float32.Model.pack (unpack .binary32 bits.toBitVec)).unpack := rfl
  rw [exact_of_eq, ← exactly_unpack, hmodel]
  cases hunpacked : unpack .binary32 bits.toBitVec with
  | infinity sign => cases sign <;> rfl
  | notANumber => rfl
  | zero sign => cases sign <;> rfl
  | finite sign m e hm =>
    rw [unpack_pack]
    rw [← hunpacked]
    exact canonical_unpack_bits (by rw [hunpacked]; rfl)

theorem ofBits_infinite {bits : Nat} (hbits : bits < 2 ^ 32) {negative : Bool}
    (h : Exact.ofBits bits = .infinite negative) :
    bits = (if negative then 0x80000000 else 0) + 0x7F800000 := by
  have hsign : (bits / 0x80000000 == 1) = true ↔ 0x80000000 ≤ bits := by
    rw [beq_iff_eq]
    omega
  unfold Exact.ofBits leadingBit at h
  dsimp only at h
  split at h
  · split at h
    · obtain rfl := Exact.infinite.inj h
      simp only [hsign]
      split <;> omega
    · cases h
  · split at h <;> cases h

private theorem eq_of_toBits {x y : Float32} (h : x.toBits.toNat = y.toBits.toNat) : x = y := by
  obtain ⟨⟨bits, hx⟩⟩ := x
  obtain ⟨⟨bits', hy⟩⟩ := y
  obtain rfl : bits = bits' := UInt32.toNat.inj h
  rfl

/-- Different numbers stand for different things. -/
theorem eq_of_exact {x y : Float32} (hnumber : Exact.of x ≠ .nan)
    (h : Exact.of x = Exact.of y) : x = y := by
  refine eq_of_toBits ?_
  cases hexact : Exact.of x with
  | nan => exact absurd hexact hnumber
  | infinite negative =>
    rw [ofBits_infinite x.toBits.toNat_lt hexact,
      ofBits_infinite y.toBits.toNat_lt (h.symm.trans hexact)]
  | finite negative m e =>
    rw [(ofBits_finite x.toBits.toNat_lt hexact).2,
      (ofBits_finite y.toBits.toNat_lt (h.symm.trans hexact)).2]

theorem value_eq (x : Float32) : value x = (exactly x.toModel.unpack).value :=
  congrArg Exact.value (exact_of_eq x)

theorem magnitude_pos {m : Nat} (hm : 0 < m) (e : ℤ) : (0 : ℚ) < m * 2 ^ e := by
  positivity

/-- The exponent decides which number is larger, if the leading bits are there. -/
theorem magnitude_lt_of_exponent_lt {m n : Nat} {e f : ℤ} (hm : m < 2 * leadingBit)
    (hn : leadingBit ≤ n) (h : e < f) : (m : ℚ) * 2 ^ e < n * 2 ^ f := by
  have hm' : (m : ℚ) < leadingBit * 2 := by exact_mod_cast (by omega : m < leadingBit * 2)
  have hn' : (leadingBit : ℚ) ≤ n := by exact_mod_cast hn
  have hpow : (2 : ℚ) ^ (e + 1) ≤ 2 ^ f := zpow_le_zpow_right₀ (by norm_num) (by omega)
  calc (m : ℚ) * 2 ^ e < leadingBit * 2 * 2 ^ e := by gcongr
    _ = leadingBit * 2 ^ (e + 1) := by rw [zpow_add_one₀ (by norm_num)]; ring
    _ ≤ n * 2 ^ f := by gcongr

theorem eq_of_magnitude_eq {m n : Nat} {e f : ℤ}
    (hfirst : Fits m e) (hsecond : Fits n f) (h : (m : ℚ) * 2 ^ e = n * 2 ^ f) :
    m = n ∧ e = f := by
  obtain ⟨hm, he, -, hmleading⟩ := hfirst
  obtain ⟨hn, hf, -, hnleading⟩ := hsecond
  rcases lt_trichotomy e f with hlt | rfl | hlt
  · exact absurd h (magnitude_lt_of_exponent_lt hm (hnleading.resolve_right (by omega)) hlt).ne
  · have hpow : (2 : ℚ) ^ e ≠ 0 := zpow_ne_zero e (by norm_num)
    exact ⟨by exact_mod_cast mul_right_cancel₀ hpow h, rfl⟩
  · exact absurd h.symm (magnitude_lt_of_exponent_lt hn (hmleading.resolve_right (by omega)) hlt).ne

theorem magnitude_lt_iff {sign sign' : Sign} {m n : Nat} {e f : ℤ} {hm : 0 < m} {hn : 0 < n}
    (hfirst : Canonical (.finite sign m e hm)) (hsecond : Canonical (.finite sign' n f hn)) :
    (m : ℚ) * 2 ^ e < n * 2 ^ f ↔ e < f ∨ e = f ∧ m < n := by
  obtain ⟨hm', he, -, hmleading⟩ := hfirst
  obtain ⟨hn', hf, -, hnleading⟩ := hsecond
  rcases lt_trichotomy e f with h | rfl | h
  · have hlt := magnitude_lt_of_exponent_lt hm' (hnleading.resolve_right (by omega)) h
    simp [hlt, h]
  · simp [mul_lt_mul_iff_left₀ (zpow_pos (by norm_num : (0 : ℚ) < 2) e)]
  · have hlt := magnitude_lt_of_exponent_lt hn' (hmleading.resolve_right (by omega)) h
    simp [hlt.not_gt, h.not_gt, h.ne']

/-- Numbers compare like their values. -/
private theorem unpacked_lt_iff {u v : UnpackedFloat} (hu : Canonical u) (hv : Canonical v) :
    u.lt v = true ↔ (exactly u).value < (exactly v).value := by
  unfold UnpackedFloat.lt
  rw [beq_iff_eq]
  cases u with
  | infinity sign => exact hu.elim
  | notANumber => exact hu.elim
  | zero sign =>
    cases v with
    | infinity sign => exact hv.elim
    | notANumber => exact hv.elim
    | zero sign' =>
      dsimp only [UnpackedFloat.compare, exactly, Exact.value]
      simp
    | finite sign' n f hn =>
      have hpos := magnitude_pos hn f
      cases sign' <;> dsimp only [UnpackedFloat.compare, exactly, Exact.value, isNegativeSign] <;>
        simp [hpos, hpos.le]
  | finite sign m e hm =>
    have hpos := magnitude_pos hm e
    cases v with
    | infinity sign => exact hv.elim
    | notANumber => exact hv.elim
    | zero sign' =>
      cases sign <;> dsimp only [UnpackedFloat.compare, exactly, Exact.value, isNegativeSign] <;>
        simp [hpos, hpos.le]
    | finite sign' n f hn =>
      have hpos' := magnitude_pos hn f
      cases sign <;> cases sign' <;>
        dsimp only [UnpackedFloat.compare, exactly, Exact.value, isNegativeSign] <;>
        simp only [if_true, Bool.false_eq_true, if_false, one_mul, neg_one_mul, Option.some.injEq,
          neg_lt_neg_iff]
      case negative.negative =>
        rw [magnitude_lt_iff hv hu, Ordering.swap_eq_lt, Ordering.then_eq_gt, compare_gt_iff_gt,
          compare_gt_iff_gt, compare_eq_iff_eq, eq_comm]
      case negative.positive => simpa using (neg_neg_of_pos hpos).trans hpos'
      case positive.negative => simpa using ((neg_neg_of_pos hpos').trans hpos).le
      case positive.positive =>
        rw [magnitude_lt_iff hu hv, Ordering.then_eq_lt, compare_lt_iff_lt, compare_lt_iff_lt,
          compare_eq_iff_eq]

theorem lt_iff {x y : Float32} (hx : x.isFinite = true) (hy : y.isFinite = true) :
    x < y ↔ value x < value y := by
  rw [value_eq, value_eq, ← unpacked_lt_iff (canonical_unpack hx) (canonical_unpack hy)]
  show Float32.lt x y = true ↔ _
  rw [Float32.lt, decide_eq_true_eq]
  rfl

theorem Canonical.abs {u : UnpackedFloat} (h : Canonical u) : Canonical u.abs := by
  cases u <;> exact h

private theorem exactly_abs (u : UnpackedFloat) : (exactly u.abs).value = |(exactly u).value| := by
  cases u with
  | infinity sign => exact abs_zero.symm
  | notANumber => exact abs_zero.symm
  | zero sign =>
    dsimp only [UnpackedFloat.abs, exactly, Exact.value]
    simp
  | finite sign m e hm =>
    have hpos := magnitude_pos hm e
    cases sign <;> dsimp only [UnpackedFloat.abs, exactly, Exact.value, isNegativeSign] <;>
      simp [abs_of_pos hpos]

theorem unpack_abs {x : Float32} (h : x.isFinite = true) :
    x.abs.toModel.unpack = x.toModel.unpack.abs :=
  unpack_pack (canonical_unpack h).abs

theorem value_abs {x : Float32} (h : x.isFinite = true) : value x.abs = |value x| := by
  rw [value_eq, value_eq, unpack_abs h, exactly_abs]

theorem isFinite_of_canonical {x : Float32} (h : Canonical x.toModel.unpack) :
    x.isFinite = true := by
  show x.toModel.unpack.isFinite = true
  cases hunpacked : x.toModel.unpack with
  | infinity sign => exact (hunpacked ▸ h : Canonical (.infinity sign)).elim
  | notANumber => exact (hunpacked ▸ h : Canonical .notANumber).elim
  | zero sign => rfl
  | finite sign m e hm => rfl

theorem isFinite_abs {x : Float32} (h : x.isFinite = true) : x.abs.isFinite = true :=
  isFinite_of_canonical (unpack_abs h ▸ (canonical_unpack h).abs)

theorem value_of_exact {x : Float32} {m : Nat} {e : ℤ} (h : Exact.of x = .finite false m e) :
    value x = m * 2 ^ e := by
  rw [value, h]
  simp [Exact.value]

theorem isFinite_zero : (0 : Float32).isFinite = true := by decide +kernel

theorem isFinite_one : (1 : Float32).isFinite = true := by decide +kernel

theorem value_zero : value 0 = 0 := by
  have hexact : Exact.of 0 = .finite false 0 (-149) := by decide +kernel
  rw [value_of_exact hexact, Nat.cast_zero, zero_mul]

theorem value_one : value 1 = 1 := by
  have hexact : Exact.of 1 = .finite false (2 ^ 23) (-23) := by decide +kernel
  rw [value_of_exact hexact]
  norm_num

theorem value_of_unpack {x : Float32} {m : Nat} {e : ℤ} {hm : 0 < m}
    (h : x.toModel.unpack = .finite .positive m e hm) : value x = m * 2 ^ e := by
  rw [value_eq, h]
  exact one_mul _

theorem canonical_of_unpack {x : Float32} {m : Nat} {e : ℤ} {hm : 0 < m}
    (h : x.toModel.unpack = .finite .positive m e hm) : Canonical (.finite .positive m e hm) := by
  have hfinite : x.isFinite = true := by
    show x.toModel.unpack.isFinite = true
    rw [h]
    rfl
  exact h ▸ canonical_unpack hfinite

theorem unpack_of_value_pos {x : Float32} (h : 0 < value x) :
    ∃ (m : Nat) (e : ℤ) (hm : 0 < m), x.toModel.unpack = .finite .positive m e hm := by
  rw [value_eq] at h
  generalize x.toModel.unpack = u at h
  cases u with
  | infinity sign => exact absurd h (lt_irrefl 0)
  | notANumber => exact absurd h (lt_irrefl 0)
  | zero sign =>
    dsimp only [exactly, Exact.value] at h
    simp at h
  | finite sign m e hm =>
    cases sign with
    | positive => exact ⟨m, e, hm, rfl⟩
    | negative =>
      have hneg := (magnitude_pos hm e).le.not_gt
      dsimp only [exactly, Exact.value, isNegativeSign] at h
      simp [hneg] at h

/-- What is above zero and not finite is the positive infinity. -/
theorem unpack_of_pos {x : Float32} (h : 0 < x) (hinfinite : x.isFinite = false) :
    x.toModel.unpack = .infinity .positive := by
  have hzero : (0 : Float32).toModel.unpack = .zero .positive := by rfl
  have hlt : UnpackedFloat.lt (0 : Float32).toModel.unpack x.toModel.unpack = true :=
    of_decide_eq_true h
  have hnone : x.toModel.unpack.isFinite = false := hinfinite
  rw [hzero] at hlt
  generalize x.toModel.unpack = u at hlt hnone
  cases u with
  | infinity sign =>
    cases sign with
    | positive => rfl
    | negative => cases hlt
  | notANumber => cases hlt
  | zero sign => cases hnone
  | finite sign m e hm => cases hnone

theorem value_pos {x : Float32} (h : 0 < x) (hfinite : x.isFinite = true) : 0 < value x :=
  value_zero ▸ (lt_iff isFinite_zero hfinite).mp h

/-- There is no number between two whose mantissas follow each other. -/
theorem next_le_value {x : Float32} {n : Nat} {f : ℤ} (hn : 0 < n)
    (hthis : Canonical (.finite .positive n f hn))
    (hnext : Canonical (.finite .positive (n + 1) f n.succ_pos)) (h : n * 2 ^ f < value x) :
    (n + 1 : Nat) * 2 ^ f ≤ value x := by
  obtain ⟨m, e, hm, hunpacked⟩ := unpack_of_value_pos ((magnitude_pos hn f).trans h)
  have hcanonical := canonical_of_unpack hunpacked
  rw [value_of_unpack hunpacked] at h ⊢
  rw [magnitude_lt_iff hthis hcanonical] at h
  rw [← not_lt, magnitude_lt_iff hcanonical hnext]
  omega

end Single

end HeadsetStream.Number
