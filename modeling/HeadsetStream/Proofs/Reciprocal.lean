import HeadsetStream.Proofs.WholeNumbers
import Mathlib.Data.Int.Log
import Mathlib.Data.Rat.Floor

/-!
# Reciprocals in single precision

The reciprocal of a positive number is rounded to a grid, of which the exponent depends on the
number's binade. So one function of the value says what division into one gives, and the larger the
number is, the smaller, or the same, is its reciprocal.
-/

namespace HeadsetStream.Number
open Float.Model UnpackedFloat

/-- Rounding keeps quotients in order. -/
theorem roundDiv_le_roundDiv {num den num' den' : Nat} (hden : 0 < den) (hden' : 0 < den')
    (h : num * den' ≤ num' * den) : roundDiv num den ≤ roundDiv num' den' := by
  have hdown : num / den ≤ num' / den' := by
    rw [Nat.le_div_iff_mul_le hden']
    refine Nat.le_of_mul_le_mul_right (le_trans ?_ h) hden
    calc num / den * den' * den = num / den * den * den' := by ring
      _ ≤ num * den' := Nat.mul_le_mul_right _ (Nat.div_mul_le_self num den)
  rcases hdown.lt_or_eq with hlt | heq
  · simp only [roundDiv]
    split_ifs <;> omega
  · -- With the same whole part the rests are in order.
    have hrest : num % den * den' ≤ num' % den' * den := by
      have hnum := Nat.div_add_mod num den
      have hnum' := Nat.div_add_mod num' den'
      rw [← heq] at hnum'
      rw [← hnum, ← hnum'] at h
      linarith
    have hmore : den < 2 * (num % den) → den' < 2 * (num' % den') := by
      intro hhalf
      nlinarith
    have hless : 2 * (num' % den') < den' → 2 * (num % den) < den := by
      intro hhalf
      nlinarith
    simp only [roundDiv, ← heq]
    split_ifs <;> omega

/-- The whole number nearest to a number that is not negative; of two equally near ones the even
one. -/
def nearest (x : ℚ) : Nat := roundDiv x.num.toNat x.den

theorem nearest_mono {x y : ℚ} (hx : 0 ≤ x) (h : x ≤ y) : nearest x ≤ nearest y := by
  refine roundDiv_le_roundDiv x.den_pos y.den_pos ?_
  zify
  rw [Int.toNat_of_nonneg (Rat.num_nonneg.mpr hx),
    Int.toNat_of_nonneg (Rat.num_nonneg.mpr (hx.trans h))]
  exact (Rat.le_iff x y).mp h

theorem roundDiv_eq_nearest (num : Nat) {den : Nat} (hden : 0 < den) :
    roundDiv num den = nearest (num / den) := by
  have hpos : (0 : ℚ) ≤ num / den := by positivity
  have hcross : ((num : ℚ) / den).num.toNat * den = num * ((num : ℚ) / den).den := by
    zify
    rw [Int.toNat_of_nonneg (Rat.num_nonneg.mpr hpos)]
    have hden' : (den : ℚ) ≠ 0 := by exact_mod_cast hden.ne'
    have hfraction := Rat.num_div_den ((num : ℚ) / den)
    rw [div_eq_div_iff (by exact_mod_cast ((num : ℚ) / den).den_nz) hden'] at hfraction
    exact_mod_cast hfraction
  exact Nat.le_antisymm
    (roundDiv_le_roundDiv hden (Rat.den_pos _) hcross.ge)
    (roundDiv_le_roundDiv (Rat.den_pos _) hden hcross.le)

@[simp] theorem nearest_natCast (n : Nat) : nearest n = n := by
  simp [nearest, roundDiv, Nat.mod_one]

namespace Single

/-- The exponent of the grid that the reciprocal of `x` is rounded to. -/
def reciprocalExponent (x : ℚ) : ℤ := max (-Int.log 2 x - 24) (-149)

/-- The reciprocal of `x`, in units of its grid. -/
def reciprocalUnits (x : ℚ) : Nat := nearest (2 ^ (-reciprocalExponent x) / x)

/-- The reciprocal of `x`, rounded to its grid. -/
def reciprocal (x : ℚ) : ℚ := reciprocalUnits x * 2 ^ reciprocalExponent x

section

variable {x y : ℚ}

private theorem reciprocalUnits_le (hx : 0 < x) : reciprocalUnits x ≤ 2 ^ 24 := by
  have hlog : (2 : ℚ) ^ Int.log 2 x ≤ x := Int.zpow_log_le_self (by norm_num) hx
  have hgrid : (2 : ℚ) ^ (-reciprocalExponent x) ≤ 2 ^ (24 + Int.log 2 x) :=
    zpow_le_zpow_right₀ (by norm_num) (by unfold reciprocalExponent; omega)
  have hle : (2 : ℚ) ^ (-reciprocalExponent x) / x ≤ (2 ^ 24 : Nat) := by
    rw [div_le_iff₀ hx]
    calc (2 : ℚ) ^ (-reciprocalExponent x) ≤ 2 ^ (24 + Int.log 2 x) := hgrid
      _ = (2 ^ 24 : Nat) * 2 ^ Int.log 2 x := by rw [zpow_add₀ (by norm_num)]; norm_num
      _ ≤ (2 ^ 24 : Nat) * x := by gcongr
  exact (nearest_mono (by positivity) hle).trans_eq (nearest_natCast _)

/-- All the bits are used, unless the exponent is the least one. -/
private theorem le_reciprocalUnits (hx : 0 < x) (h : -149 < reciprocalExponent x) :
    2 ^ 23 ≤ reciprocalUnits x := by
  have hlog : x < (2 : ℚ) ^ (Int.log 2 x + 1) := Int.lt_zpow_succ_log_self (by norm_num) x
  have hgrid : -reciprocalExponent x = 23 + (Int.log 2 x + 1) := by
    unfold reciprocalExponent at h ⊢
    omega
  have hle : ((2 ^ 23 : Nat) : ℚ) ≤ 2 ^ (-reciprocalExponent x) / x := by
    rw [le_div_iff₀ hx]
    calc ((2 ^ 23 : Nat) : ℚ) * x ≤ (2 ^ 23 : Nat) * 2 ^ (Int.log 2 x + 1) := by gcongr
      _ = 2 ^ (23 + (Int.log 2 x + 1)) := by rw [zpow_add₀ (by norm_num) 23]; norm_num
      _ = 2 ^ (-reciprocalExponent x) := by rw [hgrid]
  exact (nearest_natCast _).symm.trans_le (nearest_mono (Nat.cast_nonneg _) hle)

/-- On one grid the quotients are in order, and on two all of one are above all of the other. -/
theorem reciprocal_anti (hx : 0 < x) (h : x ≤ y) : reciprocal y ≤ reciprocal x := by
  have hlog : Int.log 2 x ≤ Int.log 2 y := Int.log_mono_right hx h
  have hexponent : reciprocalExponent y ≤ reciprocalExponent x := by
    unfold reciprocalExponent
    omega
  unfold reciprocal
  rcases hexponent.lt_or_eq with hlt | heq
  · have hfew : (reciprocalUnits y : ℚ) ≤ 2 ^ 24 := by
      exact_mod_cast reciprocalUnits_le (hx.trans_le h)
    have hmany : (2 : ℚ) ^ 23 ≤ reciprocalUnits x := by
      have hleast : -149 ≤ reciprocalExponent y := le_max_right ..
      exact_mod_cast le_reciprocalUnits hx (by omega)
    calc (reciprocalUnits y : ℚ) * 2 ^ reciprocalExponent y
        ≤ 2 ^ 24 * 2 ^ reciprocalExponent y := by gcongr
      _ = 2 ^ 23 * 2 ^ (reciprocalExponent y + 1) := by
        rw [zpow_add_one₀ (by norm_num)]
        ring
      _ ≤ 2 ^ 23 * 2 ^ reciprocalExponent x := by
        gcongr
        · norm_num
        · omega
      _ ≤ reciprocalUnits x * 2 ^ reciprocalExponent x := by gcongr
  · have hunits : reciprocalUnits y ≤ reciprocalUnits x := by
      unfold reciprocalUnits
      rw [heq]
      refine nearest_mono (div_nonneg (by positivity) (hx.le.trans h)) ?_
      gcongr
    rw [heq]
    gcongr

end

theorem log_magnitude {m : Nat} (hm : 0 < m) (e : ℤ) :
    Int.log 2 ((m : ℚ) * 2 ^ e) = m.log2 + e := by
  obtain ⟨hlow, hhigh⟩ := (Nat.log2_eq_iff hm.ne').mp rfl
  have hpow (k : Nat) : (2 : ℚ) ^ ((k : ℤ) + e) = (2 ^ k : Nat) * 2 ^ e := by
    rw [zpow_add₀ (by norm_num), zpow_natCast]
    norm_num
  have hbelow := (Int.lt_zpow_iff_log_lt (by norm_num : 1 < 2) (magnitude_pos hm e)
    (x := (m.log2 + 1 : Nat) + e)).mp (by
      rw [Nat.cast_ofNat, hpow]
      gcongr)
  have habove := (Int.zpow_le_iff_le_log (by norm_num : 1 < 2) (magnitude_pos hm e)
    (x := m.log2 + e)).mp (by
      rw [Nat.cast_ofNat, hpow]
      gcongr)
  omega

/-- What a quotient's rest says about rounding is as much as its two bits say. -/
private theorem roundedMantissa_quotient (num : Nat) {den : Nat} (hden : 0 < den) :
    (ExtendedMantissa.ofMantissaAndAccuracy (num / den)
      (accuracyOfFraction (num % den) den)).roundedMantissa = roundDiv num den := by
  unfold accuracyOfFraction roundDiv
  by_cases hexact : num % den = 0
  · rw [if_pos hexact, hexact, if_pos (by omega)]
    rfl
  · rw [if_neg hexact]
    rcases lt_trichotomy (2 * (num % den)) den with hlt | heq | hgt
    · rw [compare_lt_iff_lt.mpr hlt, if_pos hlt]
      rfl
    · rw [compare_eq_iff_eq.mpr heq, if_neg heq.not_lt, if_neg heq.not_gt]
      show num / den + num / den % 2 = _
      split_ifs <;> omega
    · rw [compare_gt_iff_gt.mpr hgt, if_neg hgt.not_gt, if_pos hgt]
      rfl

/-- `m * 2 ^ e` is `x`, in at most 24 bits, and in all of them unless the exponent is the least
one. -/
structure Represents (m : Nat) (e : ℤ) (x : ℚ) : Prop where
  pos : 0 < m
  below : m < 2 ^ 24
  least : -149 ≤ e
  leading : 2 ^ 23 ≤ m ∨ e = -149
  value_eq : m * 2 ^ e = x

theorem represents_carry {e : ℤ} (hleast : -149 ≤ e) :
    Represents (2 ^ 23) (e + 1) ((2 ^ 24 : Nat) * 2 ^ e) := by
  refine ⟨by decide, by decide, by omega, .inl le_rfl, ?_⟩
  rw [zpow_add_one₀ (by norm_num)]
  norm_num
  ring

private theorem shiftToTargetExponent_represents {n : Nat} {e : ℤ} (hpos : 0 < n) (hle : n ≤ 2 ^ 24)
    (hleast : -149 ≤ e) (hleading : 2 ^ 23 ≤ n ∨ e = -149) :
    ∃ (m : Nat) (f : ℤ), shiftToTargetExponent .binary32 n e .exact = (⟨m, false, false⟩, f) ∧
      Represents m f (n * 2 ^ e) := by
  rcases hle.lt_or_eq with hbelow | rfl
  · exact ⟨n, e, shiftToTargetExponent_of_lt hbelow hleast hleading _,
      hpos, hbelow, hleast, hleading, rfl⟩
  · exact ⟨2 ^ 23, e + 1, shiftToTargetExponent_carry hleast, represents_carry hleast⟩

/-- A quotient of at most 25 bits is rounded on its own grid. -/
private theorem roundWithAccuracy_quotient {num den : Nat} {e : ℤ} (hden : 0 < den)
    (hone : den ≤ num) (hle : num ≤ 2 ^ 24 * den) (hleast : -149 ≤ e)
    (hleading : 2 ^ 23 * den ≤ num ∨ e = -149) :
    ∃ (m : Nat) (f : ℤ) (hm : 0 < m),
      roundWithAccuracy .binary32 .positive (num / den) e (accuracyOfFraction (num % den) den) =
          .finite .positive m f hm ∧
        Represents m f (roundDiv num den * 2 ^ e) := by
  have hdown : 0 < num / den := Nat.div_pos hone hden
  have hdownle : num / den ≤ 2 ^ 24 := Nat.div_le_of_le_mul (by rwa [Nat.mul_comm])
  have hdownleading : 2 ^ 23 ≤ num / den ∨ e = -149 :=
    hleading.imp_left (Nat.le_div_iff_mul_le hden).mpr
  have hrounded := roundedMantissa_quotient num hden
  rcases hdownle.lt_or_eq with hbelow | hfull
  · have hfirst := shiftToTargetExponent_of_lt hbelow hleast hdownleading
      (accuracyOfFraction (num % den) den)
    have hcases := roundedMantissa_cases
      (.ofMantissaAndAccuracy (num / den) (accuracyOfFraction (num % den) den))
    have hmantissa (accuracy : Accuracy) :
        (ExtendedMantissa.ofMantissaAndAccuracy (num / den) accuracy).mantissa = num / den := by
      rcases accuracy with _ | (_ | _ | _) <;> rfl
    rw [hmantissa, hrounded] at hcases
    obtain ⟨m, f, hsecond, hrepresents⟩ := shiftToTargetExponent_represents
      (n := roundDiv num den) (by omega) (by omega) hleast (by omega)
    refine ⟨m, f, hrepresents.pos, roundWithAccuracy_eq hfirst ?_ hrepresents.pos, hrepresents⟩
    rw [hrounded]
    exact hsecond
  · -- Only the power of two itself fills all of the bits, and it leaves no rest.
    have hrest : num % den = 0 := by
      have hsplit := Nat.div_add_mod num den
      rw [hfull, Nat.mul_comm] at hsplit
      omega
    have hexact : accuracyOfFraction (num % den) den = .exact := if_pos hrest
    have hunits : roundDiv num den = 2 ^ 24 := by
      rw [roundDiv, hrest, if_pos (by omega), hfull]
    have hfirst := shiftToTargetExponent_carry hleast
    have hsecond := shiftToTargetExponent_of_lt (n := 2 ^ 23) (e := e + 1) (by decide) (by omega)
      (.inl le_rfl) .exact
    refine ⟨2 ^ 23, e + 1, by decide, ?_, hunits ▸ represents_carry hleast⟩
    rw [hexact, hfull]
    exact roundWithAccuracy_eq hfirst hsecond (by decide)

section

variable {m : Nat} {e : ℤ}

/-- How far one is shifted to the left before `m` divides it. -/
def quotientShift (m : Nat) (e : ℤ) : Nat := (-reciprocalExponent (m * 2 ^ e) - e).toNat

/-- What there is to know of the shift: it is as long as `m` is, or as the least exponent lets it
be. -/
theorem quotientShift_spec (hm : 0 < m) (hgreatest : e ≤ 104) :
    -reciprocalExponent (m * 2 ^ e) - e = quotientShift m e ∧
      quotientShift m e ≤ 24 + m.log2 ∧
      (quotientShift m e = 24 + m.log2 ∨
        reciprocalExponent (m * 2 ^ e) = -149 ∧ 45 ≤ quotientShift m e) := by
  have hexponent : reciprocalExponent (m * 2 ^ e) = max (-(m.log2 + e) - 24) (-149) := by
    rw [reciprocalExponent, log_magnitude hm]
  unfold quotientShift
  omega

private theorem divCore_one (hm : 0 < m) (hgreatest : e ≤ 104) :
    divCore .binary32 (2 ^ 23) (-23) m e =
      (2 ^ quotientShift m e / m, reciprocalExponent (m * 2 ^ e),
        accuracyOfFraction (2 ^ quotientShift m e % m) m) := by
  have hone : totalExponent (2 ^ 23) (-23) = 1 := by decide
  have htarget : min (-23 - e)
      (Format.binary32.targetExponent (totalExponent (2 ^ 23) (-23) - totalExponent m e)) =
        reciprocalExponent (m * 2 ^ e) := by
    rw [hone, reciprocalExponent, log_magnitude hm]
    simp only [targetExponent_single, totalExponent]
    omega
  have hamount : 23 + (-23 - e - reciprocalExponent (m * 2 ^ e)).toNat = quotientShift m e := by
    obtain ⟨hshift, -, hcases⟩ := quotientShift_spec hm hgreatest
    omega
  simp only [divCore, htarget, Nat.shiftLeft_eq, ← Nat.pow_add, hamount]

private theorem reciprocalUnits_eq (hm : 0 < m) (hgreatest : e ≤ 104) :
    reciprocalUnits (m * 2 ^ e) = roundDiv (2 ^ quotientShift m e) m := by
  rw [roundDiv_eq_nearest _ hm, reciprocalUnits, Nat.cast_pow, Nat.cast_ofNat, ← zpow_natCast,
    ← (quotientShift_spec hm hgreatest).1, zpow_sub₀ (by norm_num), div_div, mul_comm (2 ^ e : ℚ)]

/-- Division into one is rounded as the reciprocal is. -/
private theorem one_div_represents {hm : 0 < m} (h : Canonical (.finite .positive m e hm)) :
    ∃ (n : Nat) (f : ℤ) (hn : 0 < n),
      div .binary32 (.finite .positive (2 ^ 23) (-23) (by decide)) (.finite .positive m e hm) =
          .finite .positive n f hn ∧
        Represents n f (reciprocal (m * 2 ^ e)) := by
  obtain ⟨hbelow, -, hgreatest, -⟩ := h
  have hbelow : m < 2 ^ 24 := hbelow
  obtain ⟨-, hshort, hcases⟩ := quotientShift_spec hm hgreatest
  have hone : m ≤ 2 ^ quotientShift m e :=
    hbelow.le.trans (Nat.pow_le_pow_right (by decide) (by omega))
  have hle : 2 ^ quotientShift m e ≤ 2 ^ 24 * m := by
    calc 2 ^ quotientShift m e ≤ 2 ^ (24 + m.log2) := Nat.pow_le_pow_right (by decide) hshort
      _ = 2 ^ 24 * 2 ^ m.log2 := Nat.pow_add ..
      _ ≤ 2 ^ 24 * m := Nat.mul_le_mul_left _ (Nat.log2_self_le hm.ne')
  have hleading : 2 ^ 23 * m ≤ 2 ^ quotientShift m e ∨
      reciprocalExponent (m * 2 ^ e) = -149 := by
    refine hcases.imp (fun hlong => ?_) And.left
    calc 2 ^ 23 * m ≤ 2 ^ 23 * 2 ^ (m.log2 + 1) := Nat.mul_le_mul_left _ Nat.lt_log2_self.le
      _ = 2 ^ quotientShift m e := by
        rw [hlong, ← Nat.pow_add]
        congr 1
        omega
  obtain ⟨n, f, hn, hrounded, hrepresents⟩ :=
    roundWithAccuracy_quotient hm hone hle (le_max_right ..) hleading
  rw [← reciprocalUnits_eq hm hgreatest] at hrepresents
  refine ⟨n, f, hn, ?_, hrepresents⟩
  let quotient := divCore .binary32 (2 ^ 23) (-23) m e
  show roundWithAccuracy .binary32 .positive quotient.1 quotient.2.1 quotient.2.2 = _
  rw [show quotient = _ from divCore_one hm hgreatest]
  exact hrounded

end

/-- Numbers that are too large for single precision are packed as an infinity. -/
private theorem exact_of_represents {x : Float32} {m : Nat} {e : ℤ} {hm : 0 < m} {r : ℚ}
    (hx : x.toModel = .pack (.finite .positive m e hm)) (h : Represents m e r) :
    Exact.of x = .finite false m e ∨ (2 ^ 128 ≤ r ∧ Exact.of x = .infinite false) := by
  by_cases hgreatest : e ≤ 104
  · have hcanonical : Canonical (.finite .positive m e hm) :=
      ⟨h.below, h.least, hgreatest, h.leading⟩
    refine .inl ?_
    rw [exact_of_eq, hx, unpack_pack hcanonical]
    rfl
  · have hlarge : (2 : ℚ) ^ 128 ≤ r := by
      have hm23 : (2 : ℚ) ^ 23 ≤ m := by exact_mod_cast h.leading.resolve_right (by omega)
      have hpow : (2 : ℚ) ^ (105 : ℤ) ≤ 2 ^ e := zpow_le_zpow_right₀ (by norm_num) (by omega)
      calc (2 : ℚ) ^ 128 = 2 ^ 23 * 2 ^ (105 : ℤ) := by norm_num
        _ ≤ (m : ℚ) * 2 ^ e := by gcongr
        _ = r := h.value_eq
    have hbiased : 2 ^ 8 ≤ (e + 127 + 23).toNat + 1 := by omega
    have hbits : UnpackedFloat.pack .binary32 (.finite .positive m e hm) =
        UnpackedFloat.pack .binary32 (.infinity .positive) := if_pos hbiased
    have hpacked : Float32.Model.pack (.finite .positive m e hm) = .pack (.infinity .positive) :=
      (Float32.Model.mk.injEq ..).mpr (congrArg UInt32.ofBitVec hbits)
    refine .inr ⟨hlarge, ?_⟩
    rw [exact_of_eq, hx, hpacked]
    rfl

private theorem unpack_one : (1 : Float32).toModel.unpack =
    .finite .positive (2 ^ 23) (-23) (by decide) := by
  rfl

theorem toModel_one_div (x : Float32) : (1 / x).toModel =
    .pack (UnpackedFloat.div .binary32 (.finite .positive (2 ^ 23) (-23) (by decide))
      x.toModel.unpack) := by
  show Float32.Model.pack (UnpackedFloat.div .binary32 (1 : Float32).toModel.unpack _) = _
  rw [unpack_one]

/-- Division into one gives the rounded reciprocal, if single precision has that. -/
theorem exact_one_div {x : Float32} (h : 0 < value x) :
    (∃ (n : Nat) (f : ℤ), n * 2 ^ f = reciprocal (value x) ∧
        Exact.of (1 / x) = .finite false n f) ∨
      (2 ^ 128 ≤ reciprocal (value x) ∧ Exact.of (1 / x) = .infinite false) := by
  obtain ⟨m, e, hm, hunpacked⟩ := unpack_of_value_pos h
  obtain ⟨n, f, hn, hdiv, hrepresents⟩ := one_div_represents (canonical_of_unpack hunpacked)
  have hmodel := toModel_one_div x
  rw [hunpacked, hdiv] at hmodel
  rw [value_of_unpack hunpacked]
  exact (exact_of_represents hmodel hrepresents).imp_left fun hexact =>
    ⟨n, f, hrepresents.value_eq, hexact⟩

/-- There is nothing left of one when it is divided by infinity. -/
theorem exact_one_div_infinity {x : Float32} (h : x.toModel.unpack = .infinity .positive) :
    Exact.of (1 / x) = .finite false 0 (-149) := by
  have hmodel := toModel_one_div x
  rw [h] at hmodel
  rw [exact_of_eq, hmodel]
  rfl

end Single

end HeadsetStream.Number
