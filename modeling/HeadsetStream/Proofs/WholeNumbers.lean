import HeadsetStream.Proofs.SinglePrecision

/-!
# Whole numbers in single precision

A whole number is rounded when it becomes a single precision number. The result stays between the
powers of two around it, so that a number from 1 to `2 ^ 31` has a value in that range too.
-/

namespace HeadsetStream.Number.Single
open Float.Model UnpackedFloat

/-- A number from `2 ^ k` to `2 ^ (k + 1)`. -/
def InBinade (k : ℤ) (u : UnpackedFloat) : Prop :=
  ∃ (m : Nat) (e : ℤ) (hm : 0 < m), u = .finite .positive m e hm ∧ 2 ^ 23 ≤ m ∧ m < 2 ^ 24 ∧
    (e = k - 23 ∨ e = k - 22 ∧ m = 2 ^ 23)

theorem two_pow_mul {n : Nat} {e k : ℤ} (h : n + e = k) : (2 : ℚ) ^ n * 2 ^ e = 2 ^ k := by
  rw [← h, zpow_add₀ (by norm_num), zpow_natCast]

namespace InBinade

variable {k : ℤ} {u : UnpackedFloat}

theorem canonical (h : InBinade k u) (hleast : -126 ≤ k) (hgreatest : k ≤ 126) : Canonical u := by
  obtain ⟨m, e, hm, rfl, hleading, hbelow, he⟩ := h
  show m < 2 * leadingBit ∧ -149 ≤ e ∧ e ≤ 104 ∧ (leadingBit ≤ m ∨ e = -149)
  unfold leadingBit
  omega

private theorem value_mem (h : InBinade k u) :
    (2 : ℚ) ^ k ≤ (exactly u).value ∧ (exactly u).value ≤ 2 ^ (k + 1) := by
  obtain ⟨m, e, hm, rfl, hleading, hbelow, he⟩ := h
  have hvalue : (exactly (.finite .positive m e hm)).value = m * 2 ^ e := one_mul _
  have hlow : (2 : ℚ) ^ 23 ≤ m := by exact_mod_cast hleading
  have hhigh : (m : ℚ) ≤ 2 ^ 24 := by exact_mod_cast hbelow.le
  rw [hvalue]
  rcases he with rfl | ⟨rfl, rfl⟩
  · have hsame : (2 : ℚ) ^ 23 * 2 ^ (k - 23) = 2 ^ k := two_pow_mul (by omega)
    have hnext : (2 : ℚ) ^ 24 * 2 ^ (k - 23) = 2 ^ (k + 1) := two_pow_mul (by omega)
    rw [← hsame, ← hnext]
    constructor <;> gcongr
  · have hnext : (2 : ℚ) ^ 23 * 2 ^ (k - 22) = 2 ^ (k + 1) := two_pow_mul (by omega)
    have hless : (2 : ℚ) ^ k ≤ 2 ^ (k + 1) := zpow_le_zpow_right₀ (by norm_num) (by omega)
    rw [Nat.cast_pow, Nat.cast_ofNat, hnext]
    exact ⟨hless, le_rfl⟩

end InBinade

private theorem mantissa_shiftRight (em : ExtendedMantissa) (n : Nat) :
    (em >>> n).mantissa = em.mantissa / 2 ^ n := by
  induction n with
  | zero => exact (Nat.div_one _).symm
  | succ n ih =>
    show (em >>> n).mantissa / 2 = _
    rw [ih, Nat.div_div_eq_div_mul, ← Nat.pow_succ]

theorem roundedMantissa_cases (em : ExtendedMantissa) :
    em.roundedMantissa = em.mantissa ∨ em.roundedMantissa = em.mantissa + 1 := by
  obtain ⟨m, round, sticky⟩ := em
  cases round <;> cases sticky <;>
    simp [ExtendedMantissa.roundedMantissa, ExtendedMantissa.accuracy, Accuracy.roundToNearestEven]
  omega

theorem targetExponent_single (e : ℤ) : Format.binary32.targetExponent e = max (e - 24) (-149) :=
  rfl

/-- The mantissa loses as many bits as the exponent is too small for them. -/
theorem shiftToTargetExponent_eq {m n : Nat} {e : ℤ} (hlog : m.log2 = 23 + n)
    (he : -149 ≤ e + n) :
    shiftToTargetExponent .binary32 m e .exact =
      (ExtendedMantissa.ofMantissaAndAccuracy m .exact >>> n, e + n) := by
  have htarget : Format.binary32.targetExponent (totalExponent m e) = e + n := by
    simp only [targetExponent_single, totalExponent, hlog]
    omega
  have hamount : (e + n - e).toNat = n := by omega
  simp only [shiftToTargetExponent, shiftToExponent, htarget, hamount]

/-- A mantissa of 24 bits, or of fewer at the least exponent, stays as it is. -/
theorem shiftToTargetExponent_of_lt {n : Nat} {e : ℤ} (hbelow : n < 2 ^ 24) (hleast : -149 ≤ e)
    (hleading : 2 ^ 23 ≤ n ∨ e = -149) (accuracy : Accuracy) :
    shiftToTargetExponent .binary32 n e accuracy =
      (.ofMantissaAndAccuracy n accuracy, e) := by
  have hlog : n.log2 ≤ 23 ∧ (n.log2 = 23 ∨ e = -149) := by
    rcases Nat.eq_zero_or_pos n with rfl | hn
    · exact ⟨by decide, .inr (hleading.resolve_left (by decide))⟩
    · have hless := (Nat.log2_lt hn.ne').mpr hbelow
      have hmore : 2 ^ 23 ≤ n → 23 ≤ n.log2 := (Nat.le_log2 hn.ne').mpr
      omega
  have htarget : Format.binary32.targetExponent (totalExponent n e) = e := by
    simp only [targetExponent_single, totalExponent]
    omega
  have hamount : (e - e).toNat = 0 := by omega
  simp only [shiftToTargetExponent, shiftToExponent, htarget, hamount, Nat.cast_zero, add_zero]
  rfl

/-- One of 25 bits loses the last one, which is 0. -/
theorem shiftToTargetExponent_carry {e : ℤ} (hleast : -149 ≤ e) :
    shiftToTargetExponent .binary32 (2 ^ 24) e .exact = (⟨2 ^ 23, false, false⟩, e + 1) := by
  rw [shiftToTargetExponent_eq (show (2 ^ 24).log2 = 23 + 1 by decide) (by omega)]
  rfl

/-- A mantissa is rounded where its exponent puts it, and put right once more. -/
theorem roundWithAccuracy_eq {sign : Sign} {m n : Nat} {e f g : ℤ} {accuracy : Accuracy}
    {em : ExtendedMantissa} (hfirst : shiftToTargetExponent .binary32 m e accuracy = (em, f))
    (hsecond : shiftToTargetExponent .binary32 em.roundedMantissa f .exact =
      (⟨n, false, false⟩, g)) (hn : 0 < n) :
    roundWithAccuracy .binary32 sign m e accuracy = .finite sign n g hn := by
  unfold roundWithAccuracy
  rw [hfirst]
  dsimp only
  rw [hsecond]
  exact dif_neg hn.ne'

/-- Rounding to 24 bits does not leave the binade. -/
theorem inBinade_round {m n : Nat} {e k : ℤ} (hm : m ≠ 0) (hlog : m.log2 = 23 + n)
    (hexponent : e + n = k - 23) (hk : -126 ≤ k) :
    InBinade k (roundWithAccuracy .binary32 .positive m e .exact) := by
  obtain ⟨hlow, hhigh⟩ := (Nat.log2_eq_iff hm).mp hlog
  let shifted := ExtendedMantissa.ofMantissaAndAccuracy m .exact >>> n
  have hfirst : shiftToTargetExponent .binary32 m e .exact = (shifted, k - 23) := by
    rw [shiftToTargetExponent_eq hlog (by omega), hexponent]
  have hmantissa : shifted.mantissa = m / 2 ^ n := mantissa_shiftRight ..
  have hleading : 2 ^ 23 ≤ m / 2 ^ n ∧ m / 2 ^ n < 2 ^ 24 := by
    rw [Nat.le_div_iff_mul_le (Nat.two_pow_pos n), Nat.div_lt_iff_lt_mul (Nat.two_pow_pos n),
      ← Nat.pow_add, ← Nat.pow_add]
    exact ⟨hlow, by convert hhigh using 2; omega⟩
  -- Rounding may carry into one bit more, and then all others are 0.
  have hrounded : 2 ^ 23 ≤ shifted.roundedMantissa ∧ shifted.roundedMantissa ≤ 2 ^ 24 := by
    have hcases := roundedMantissa_cases shifted
    rw [hmantissa] at hcases
    omega
  rcases hrounded.2.lt_or_eq with hbelow | hcarry
  · have hsecond : shiftToTargetExponent .binary32 shifted.roundedMantissa (k - 23) .exact =
        (⟨shifted.roundedMantissa, false, false⟩, k - 23) :=
      shiftToTargetExponent_of_lt hbelow (by omega) (.inl hrounded.1) .exact
    have hround : roundWithAccuracy .binary32 .positive m e .exact =
        .finite .positive shifted.roundedMantissa (k - 23) (by omega) :=
      roundWithAccuracy_eq hfirst hsecond (by omega)
    exact ⟨_, _, _, hround, hrounded.1, hbelow, .inl rfl⟩
  · have hsecond : shiftToTargetExponent .binary32 shifted.roundedMantissa (k - 23) .exact =
        (⟨2 ^ 23, false, false⟩, k - 22) := by
      rw [hcarry, shiftToTargetExponent_carry (by omega)]
      exact congrArg _ (by omega)
    have hround : roundWithAccuracy .binary32 .positive m e .exact =
        .finite .positive (2 ^ 23) (k - 22) (by omega) :=
      roundWithAccuracy_eq hfirst hsecond (by decide)
    exact ⟨_, _, _, hround, le_rfl, by decide, .inr ⟨rfl, rfl⟩⟩

theorem log2_mul_two_pow {m : Nat} (hm : m ≠ 0) (n : Nat) : (m * 2 ^ n).log2 = m.log2 + n := by
  obtain ⟨hlow, hhigh⟩ := (Nat.log2_eq_iff hm).mp rfl
  refine (Nat.log2_eq_iff (Nat.mul_ne_zero hm (Nat.two_pow_pos n).ne')).mpr ⟨?_, ?_⟩
  · rw [Nat.pow_add]
    exact Nat.mul_le_mul_right _ hlow
  · rw [Nat.add_right_comm, Nat.pow_add]
    exact Nat.mul_lt_mul_of_pos_right hhigh (Nat.two_pow_pos n)

/-- A whole number of at most 24 bits is converted. -/
private theorem inBinade_ofNat {n : Nat} (hpos : 0 < n) (hsmall : n < 2 ^ 24) :
    InBinade n.log2 (UnpackedFloat.ofNat .binary32 n) := by
  have hlog : n.log2 < 24 := (Nat.log2_lt hpos.ne').mpr hsmall
  have hcompare : compare (n : ℤ) 0 = .gt := compare_gt_iff_gt.mpr (by omega)
  have htarget : Format.binary32.targetExponent (totalExponent n 0) = n.log2 - 23 := by
    simp only [targetExponent_single, totalExponent]
    omega
  have hamount : (0 - ((n.log2 : ℤ) - 23)).toNat = 23 - n.log2 := by omega
  have hround : UnpackedFloat.ofNat .binary32 n = roundWithAccuracy .binary32 .positive
      (n * 2 ^ (23 - n.log2)) (0 - (23 - n.log2 : Nat)) .exact := by
    simp only [UnpackedFloat.ofNat, UnpackedFloat.ofInt, UnpackedFloat.normalize, hcompare,
      Int.toNat_natCast, UnpackedFloat.round, htarget, decreaseExponent, hamount,
      Nat.shiftLeft_eq]
  have hwide : (n * 2 ^ (23 - n.log2)).log2 = 23 + 0 := by
    rw [log2_mul_two_pow hpos.ne']
    omega
  rw [hround]
  exact inBinade_round (Nat.mul_ne_zero hpos.ne' (Nat.two_pow_pos _).ne') hwide (by omega)
    (by omega)

/-- A product with one may be in the next binade if the factor ends its own. -/
private theorem inBinade_mul_one {k : ℤ} {u : UnpackedFloat} (h : InBinade k u) (hk : -126 ≤ k) :
    ∃ l, (l = k ∨ l = k + 1) ∧
      InBinade l (mul .binary32 u (.finite .positive (2 ^ 23) (-23) (by decide))) := by
  obtain ⟨m, e, hm, rfl, hleading, hbelow, he⟩ := h
  have hlog : m.log2 = 23 := (Nat.log2_eq_iff hm.ne').mpr ⟨hleading, hbelow⟩
  have hproduct : (m * 2 ^ 23).log2 = 23 + 23 := by rw [log2_mul_two_pow hm.ne', hlog]
  refine ⟨e + 23, by omega, ?_⟩
  exact inBinade_round (Nat.mul_ne_zero hm.ne' (by decide)) hproduct (by omega) (by omega)

theorem value_of_inBinade {x : Float32} {u : UnpackedFloat} {k : ℤ}
    (hx : x.toModel = Float32.Model.pack u) (h : InBinade k u) (hleast : 0 ≤ k)
    (hgreatest : k ≤ 30) : x.isFinite = true ∧ 0 < value x ∧ value x ≤ 2 ^ 31 := by
  have hcanonical := h.canonical (by omega) (by omega)
  have hunpack : x.toModel.unpack = u := by rw [hx, unpack_pack hcanonical]
  have hpos : (0 : ℚ) < 2 ^ k := zpow_pos (by norm_num) k
  have hmost : (2 : ℚ) ^ (k + 1) ≤ 2 ^ (31 : ℤ) :=
    zpow_le_zpow_right₀ (by norm_num) (by omega)
  obtain ⟨hlow, hhigh⟩ := h.value_mem
  refine ⟨isFinite_of_canonical (hunpack ▸ hcanonical), ?_, ?_⟩
  · rw [value_eq, hunpack]
    exact hpos.trans_le hlow
  · rw [value_eq, hunpack]
    exact hhigh.trans hmost

/-- A whole number below `2 ^ 23` is converted and multiplied by one. -/
theorem toModel_ofNat_small {n : Nat} (hsmall : n < 2 ^ 23) :
    (Float32.ofNat n).toModel = .pack (mul .binary32
      (Float32.Model.pack (UnpackedFloat.ofNat .binary32 n)).unpack
      (.finite .positive (2 ^ 23) (-23) (by decide))) := by
  have hword : n.toUInt64.toNat = n := Nat.mod_eq_of_lt (by omega)
  have hone : (Float32.ofBits 0x3F800000).toModel.unpack =
      .finite .positive (2 ^ 23) (-23) (by decide) := by rfl
  show (Float32.ofScientific n false 0).toModel = _
  rw [Float32.ofScientific, dif_pos ⟨hsmall, by decide⟩]
  show Float32.Model.pack (mul .binary32 (Float32.Model.pack
    (UnpackedFloat.ofNat .binary32 n.toUInt64.toNat)).unpack
      (Float32.ofBits 0x3F800000).toModel.unpack) = _
  rw [hword, hone]

/-- A larger one is rounded at once. -/
theorem toModel_ofNat_large {n : Nat} (hlarge : 2 ^ 23 ≤ n) :
    (Float32.ofNat n).toModel =
      .pack (roundWithAccuracy .binary32 .positive (n * 2 ^ 24) (-24) .exact) := by
  have hn : n ≠ 0 := by omega
  show (Float32.ofScientific n false 0).toModel = _
  rw [Float32.ofScientific, dif_neg (by omega)]
  show Float32.Model.pack (UnpackedFloat.ofScientific .binary32 n 0) = _
  have hleast : ¬ (0 : ℤ) < -((2 ^ Format.binary32.exponentBits : ℤ) + n.log2) := by
    show ¬ (0 : ℤ) < -(256 + n.log2)
    omega
  rw [UnpackedFloat.ofScientific, dif_neg hn, if_neg (by decide), if_neg hleast, if_pos le_rfl]
  show Float32.Model.pack (roundWithAccuracy .binary32 .positive (n <<< 24 * 1) (-24) .exact) = _
  rw [Nat.shiftLeft_eq, Nat.mul_one]

/-- Whole numbers up to `2 ^ 31` keep in range when they are rounded. -/
theorem value_ofNat {n : Nat} (hpos : 0 < n) (hle : n ≤ 2 ^ 31) :
    (Float32.ofNat n).isFinite = true ∧ 0 < value (Float32.ofNat n) ∧
      value (Float32.ofNat n) ≤ 2 ^ 31 := by
  have hlog (j : Nat) : n.log2 < j ↔ n < 2 ^ j := Nat.log2_lt hpos.ne'
  by_cases hsmall : n < 2 ^ 23
  · have hexponent := (hlog 23).mpr hsmall
    have hconverted := inBinade_ofNat hpos (by omega)
    obtain ⟨l, hl, hbinade⟩ := inBinade_mul_one hconverted (by omega)
    refine value_of_inBinade ?_ hbinade (by omega) (by omega)
    rw [toModel_ofNat_small hsmall, unpack_pack (hconverted.canonical (by omega) (by omega))]
  · by_cases hmost : n = 2 ^ 31
    · have hexact : Exact.of (Float32.ofNat (2 ^ 31)) = .finite false (2 ^ 23) 8 := by
        decide +kernel
      rw [hmost, value_of_exact hexact]
      refine ⟨by decide +kernel, ?_⟩
      norm_num
    · have hexponent := (hlog 31).mpr (by omega)
      have hleast := mt (hlog 23).mp hsmall
      have hbinade : InBinade n.log2
          (roundWithAccuracy .binary32 .positive (n * 2 ^ 24) (-24) .exact) := by
        refine inBinade_round (n := n.log2 + 1) (by omega) ?_ (by omega) (by omega)
        rw [log2_mul_two_pow hpos.ne']
        omega
      exact value_of_inBinade (toModel_ofNat_large (by omega)) hbinade (by omega) (by omega)

end HeadsetStream.Number.Single
