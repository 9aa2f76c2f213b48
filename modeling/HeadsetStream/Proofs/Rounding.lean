import HeadsetStream.Number.Rounding
import HeadsetStream.Proofs.SinglePrecision
import Mathlib.Algebra.Order.Field.Rat
import Mathlib.Tactic.FieldSimp
import Mathlib.Tactic.Linarith

/-!
# What it is to be rounded

A rounded number is the nearest one that its format has; of two equally near ones it is the even
multiple of their distance. That says which one it is. A quotient is rounded so, and with it a
product or a quotient of two numbers; what is rounded to single precision is packed into its bits
without loss, or as an infinity if it is too large.
-/

namespace HeadsetStream.Number

/-- The numbers with a mantissa of at most `bits` bits and an exponent that is not less than
`least`. -/
def Representable (bits : Nat) (least : ℤ) (x : ℚ) : Prop :=
  ∃ (m : Nat) (e : ℤ), m < 2 ^ bits ∧ least ≤ e ∧ x = m * 2 ^ e

/-- `r` is the representable number nearest to `x`. If another one is as near, `r` is an even
multiple of the distance between them. -/
structure RoundsTo (bits : Nat) (least : ℤ) (x r : ℚ) : Prop where
  representable : Representable bits least r
  nearest : ∀ s, Representable bits least s → |x - r| ≤ |x - s|
  even : ∀ s, Representable bits least s → |x - s| = |x - r| → s ≠ r →
    ∃ k : ℤ, r = 2 * k * |r - s|

section

variable {bits : Nat} {least : ℤ} {x r s : ℚ}

theorem Representable.nonneg (h : Representable bits least x) : 0 ≤ x := by
  obtain ⟨m, e, -, -, rfl⟩ := h
  positivity

theorem Representable.roundsTo (h : Representable bits least x) : RoundsTo bits least x x where
  representable := h
  nearest s _ := by simp
  even s _ htie hne := by
    rw [sub_self, abs_zero, abs_eq_zero, sub_eq_zero] at htie
    exact absurd htie.symm hne

namespace RoundsTo

theorem unique (hr : RoundsTo bits least x r) (hs : RoundsTo bits least x s) : r = s := by
  by_contra hne
  have htie : |x - s| = |x - r| :=
    le_antisymm (hs.nearest r hr.representable) (hr.nearest s hs.representable)
  obtain ⟨j, hj⟩ := hr.even s hs.representable htie (Ne.symm hne)
  obtain ⟨k, hk⟩ := hs.even r hr.representable htie.symm hne
  -- The difference would be an even multiple of itself.
  rw [abs_sub_comm] at hk
  have hpos : |r - s| ≠ 0 := abs_ne_zero.mpr (sub_ne_zero.mpr hne)
  have hdifference : |r - s| = |((2 * (j - k) : ℤ) : ℚ)| * |r - s| := by
    calc |r - s| = abs (2 * j * |r - s| - 2 * k * |r - s|) := by rw [← hj, ← hk]
      _ = |((2 * (j - k) : ℤ) : ℚ)| * |r - s| := by
        rw [← sub_mul, ← mul_sub, abs_mul, abs_abs]
        push_cast
        rfl
  have hone : abs (2 * (j - k)) = 1 := by
    exact_mod_cast (mul_right_cancel₀ hpos ((one_mul _).trans hdifference)).symm
  rcases eq_or_eq_neg_of_abs_eq hone with hodd | hodd <;> omega

/-- What is representable bounds what is rounded. -/
theorem le_of_le (hr : RoundsTo bits least x r) (hs : Representable bits least s) (h : s ≤ x) :
    s ≤ r := by
  by_contra hlt
  have hnear := hr.nearest s hs
  rw [abs_of_nonneg (by linarith), abs_of_nonneg (by linarith)] at hnear
  linarith

end RoundsTo

end

/-! ## Quotients -/

section

variable {num den : Nat}

/-- The nearest whole number is at most half a unit away, and even if it is just that. -/
theorem abs_sub_roundDiv (num : Nat) (hden : 0 < den) :
    |(num : ℚ) / den - roundDiv num den| ≤ 1 / 2 ∧
      (|(num : ℚ) / den - roundDiv num den| = 1 / 2 → roundDiv num den % 2 = 0) := by
  have hpos : (0 : ℚ) < den := by exact_mod_cast hden
  have hsplit : (num : ℚ) / den = (num / den : Nat) + (num % den : Nat) / den := by
    rw [add_div_eq_mul_add_div _ _ hpos.ne', div_left_inj' hpos.ne']
    exact_mod_cast (Nat.div_add_mod' num den).symm
  have hrest : ((num % den : Nat) : ℚ) / den < 1 := by
    rw [div_lt_one hpos]
    exact_mod_cast Nat.mod_lt num hden
  have hnonneg : (0 : ℚ) ≤ ((num % den : Nat) : ℚ) / den := by positivity
  have hless : 2 * (num % den) < den ↔ ((num % den : Nat) : ℚ) / den < 1 / 2 := by
    rw [div_lt_iff₀ hpos, one_div_mul_eq_div, lt_div_iff₀ two_pos, mul_comm]
    exact_mod_cast Iff.rfl
  have hmore : den < 2 * (num % den) ↔ 1 / 2 < ((num % den : Nat) : ℚ) / den := by
    rw [lt_div_iff₀ hpos, one_div_mul_eq_div, div_lt_iff₀ two_pos, mul_comm]
    exact_mod_cast Iff.rfl
  rw [hsplit]
  simp only [roundDiv, hless, hmore]
  split_ifs with hbelow habove heven
  · rw [add_sub_cancel_left, abs_of_nonneg hnonneg]
    exact ⟨hbelow.le, fun htie => absurd htie hbelow.ne⟩
  · rw [Nat.cast_add_one, add_sub_add_left_eq_sub, abs_of_neg (by linarith)]
    exact ⟨by linarith, fun htie => by linarith⟩
  · rw [add_sub_cancel_left, abs_of_nonneg hnonneg]
    exact ⟨not_lt.mp habove, fun _ => heven⟩
  · rw [Nat.cast_add_one, add_sub_add_left_eq_sub, abs_of_neg (by linarith)]
    exact ⟨by linarith, fun _ => by omega⟩

/-- No whole number is nearer, and if another one is as near, it is a neighbour of an even one. -/
theorem abs_sub_roundDiv_le (num : Nat) (hden : 0 < den) (k : ℤ) :
    |(num : ℚ) / den - roundDiv num den| ≤ |(num : ℚ) / den - k| ∧
      (|(num : ℚ) / den - k| = |(num : ℚ) / den - roundDiv num den| → k ≠ roundDiv num den →
        |(roundDiv num den : ℚ) - k| = 1 ∧ roundDiv num den % 2 = 0) := by
  obtain ⟨hhalf, heven⟩ := abs_sub_roundDiv num hden
  generalize (num : ℚ) / den = x at *
  generalize roundDiv num den = n at *
  by_cases hsame : k = n
  · subst hsame
    exact ⟨le_rfl, fun _ hne => absurd rfl hne⟩
  · have hapart : (1 : ℚ) ≤ |(n : ℚ) - k| := by
      exact_mod_cast Int.one_le_abs (sub_ne_zero.mpr (Ne.symm hsame))
    have htriangle : |(n : ℚ) - k| ≤ |x - n| + |x - k| := by
      rw [abs_sub_comm x n]
      exact abs_sub_le ..
    refine ⟨by linarith, fun htie _ => ?_⟩
    exact ⟨by linarith, heven (by linarith)⟩

private theorem roundDiv_le_of_le (hden : 0 < den) {k : Nat} (h : (num : ℚ) / den ≤ k) :
    roundDiv num den ≤ k := by
  have hnear := (abs_sub_roundDiv_le num hden k).1
  rw [Int.cast_natCast, abs_sub_comm _ (k : ℚ), abs_of_nonneg (sub_nonneg.mpr h),
    abs_sub_comm] at hnear
  have hle : (roundDiv num den : ℚ) ≤ k := by
    linarith [le_abs_self (roundDiv num den - num / den : ℚ)]
  exact_mod_cast hle

private theorem le_roundDiv_of_le (hden : 0 < den) {k : Nat} (h : (k : ℚ) ≤ num / den) :
    k ≤ roundDiv num den := by
  have hnear := (abs_sub_roundDiv_le num hden k).1
  rw [Int.cast_natCast, abs_of_nonneg (sub_nonneg.mpr h)] at hnear
  have hle : (k : ℚ) ≤ roundDiv num den := by
    linarith [le_abs_self (num / den - roundDiv num den : ℚ)]
  exact_mod_cast hle

/-- The exponent is that of the power of two below the quotient. -/
theorem binade_spec (hnum : 0 < num) (hden : 0 < den) :
    (2 : ℚ) ^ binade num den ≤ num / den ∧ (num : ℚ) / den < 2 ^ (binade num den + 1) := by
  obtain ⟨hnumLow, hnumHigh⟩ := (Nat.log2_eq_iff hnum.ne').mp rfl
  obtain ⟨hdenLow, hdenHigh⟩ := (Nat.log2_eq_iff hden.ne').mp rfl
  have hpos : (0 : ℚ) < den := by exact_mod_cast hden
  let log : ℤ := num.log2 - den.log2
  have hlow : (2 : ℚ) ^ (log - 1) ≤ num / den := by
    rw [le_div_iff₀ hpos]
    calc (2 : ℚ) ^ (log - 1) * den ≤ 2 ^ (log - 1) * 2 ^ (den.log2 + 1) := by
          gcongr
          exact_mod_cast hdenHigh.le
      _ = 2 ^ num.log2 := by
        rw [← zpow_natCast, ← zpow_natCast, ← zpow_add₀ two_ne_zero]
        congr 1
        omega
      _ ≤ num := by exact_mod_cast hnumLow
  have hhigh : (num : ℚ) / den < 2 ^ (log + 1) := by
    rw [div_lt_iff₀ hpos]
    calc (num : ℚ) < 2 ^ (num.log2 + 1) := by exact_mod_cast hnumHigh
      _ = 2 ^ (log + 1) * 2 ^ den.log2 := by
        rw [← zpow_natCast, ← zpow_natCast, ← zpow_add₀ two_ne_zero]
        congr 1
        omega
      _ ≤ 2 ^ (log + 1) * den := by
        gcongr
        exact_mod_cast hdenLow
  obtain ⟨hhalf, hpow⟩ := twoPow_eq log
  have htest : den * (twoPow log).1 ≤ num * (twoPow log).2 ↔ (2 : ℚ) ^ log ≤ num / den := by
    have hhalf' : (0 : ℚ) < (twoPow log).2 := by exact_mod_cast hhalf
    rw [← hpow, div_le_div_iff₀ hhalf' hpos, mul_comm den]
    exact_mod_cast Iff.rfl
  show (2 : ℚ) ^ (if den * (twoPow log).1 ≤ num * (twoPow log).2 then log else log - 1) ≤ _ ∧
    _ < (2 : ℚ) ^ ((if den * (twoPow log).1 ≤ num * (twoPow log).2 then log else log - 1) + 1)
  simp only [htest]
  split_ifs with h
  · exact ⟨h, hhigh⟩
  · rw [sub_add_cancel]
    exact ⟨hlow, not_le.mp h⟩

end

/-! ## Numbers with an exponent -/

/-- The number that is meant. -/
def Binary.value (x : Binary) : ℚ := x.m * 2 ^ x.e

namespace BinaryFormat

variable {format : BinaryFormat}

/-- A mantissa may be one power of two too long, and it is no shorter than it has to be. -/
def Fits (format : BinaryFormat) (x : Binary) : Prop :=
  x.m ≤ 2 ^ format.bits ∧ format.least ≤ x.e ∧ (2 ^ format.bits ≤ 2 * x.m ∨ x.e = format.least)

theorem Fits.representable (h : format.Fits x) :
    Representable format.bits format.least x.value := by
  obtain ⟨hle, hleast, -⟩ := h
  rcases hle.lt_or_eq with hlt | heq
  · exact ⟨x.m, x.e, hlt, hleast, rfl⟩
  · refine ⟨1, x.e + format.bits, ?_, by omega, ?_⟩
    · exact Nat.one_lt_two_pow format.bits_pos.ne'
    · rw [Binary.value, heq, zpow_add₀ two_ne_zero, zpow_natCast]
      push_cast
      ring

section

variable {num den : Nat}

/-- A quotient in units of its grid, as a quotient. -/
def scaled (format : BinaryFormat) (num den : Nat) : Nat × Nat :=
  (num * (twoPow (format.gridExponent num den)).2, den * (twoPow (format.gridExponent num den)).1)

theorem round_of_pos (hnum : 0 < num) :
    format.round num den =
      ⟨roundDiv (format.scaled num den).1 (format.scaled num den).2, format.gridExponent num den⟩ :=
  if_neg hnum.ne'

theorem scaled_eq (format : BinaryFormat) (num : Nat) (hden : 0 < den) :
    0 < (format.scaled num den).2 ∧
      ((format.scaled num den).1 : ℚ) / (format.scaled num den).2 =
        num / den / 2 ^ format.gridExponent num den := by
  obtain ⟨hhalf, hpow⟩ := twoPow_eq (format.gridExponent num den)
  have htwo : 0 < (twoPow (format.gridExponent num den)).1 := by
    unfold twoPow
    split
    · exact Nat.two_pow_pos _
    · exact Nat.one_pos
  refine ⟨Nat.mul_pos hden htwo, ?_⟩
  rw [← hpow, scaled]
  push_cast
  rw [div_div_div_eq]

theorem Fits.round (format : BinaryFormat) (num : Nat) (hden : 0 < den) :
    format.Fits (format.round num den) := by
  rcases Nat.eq_zero_or_pos num with rfl | hnum
  · exact ⟨Nat.zero_le _, le_rfl, .inr rfl⟩
  · obtain ⟨hlow, hhigh⟩ := binade_spec hnum hden
    obtain ⟨hpos, hscaled⟩ := scaled_eq format num hden
    have hgrid : (0 : ℚ) < 2 ^ format.gridExponent num den := by positivity
    rw [round_of_pos hnum]
    refine ⟨roundDiv_le_of_le hpos ?_, le_max_right .., ?_⟩
    · rw [hscaled, div_le_iff₀ hgrid, Nat.cast_pow, Nat.cast_ofNat, ← zpow_natCast,
        ← zpow_add₀ two_ne_zero]
      refine hhigh.le.trans (zpow_le_zpow_right₀ one_le_two ?_)
      unfold gridExponent
      omega
    · refine or_iff_not_imp_right.mpr fun hleast => ?_
      have hpow : 2 ^ format.bits = 2 * 2 ^ (format.bits - 1) := by
        rw [← Nat.pow_succ', Nat.succ_eq_add_one, Nat.sub_add_cancel format.bits_pos]
      rw [hpow]
      refine Nat.mul_le_mul_left 2 (le_roundDiv_of_le hpos ?_)
      rw [hscaled, le_div_iff₀ hgrid, Nat.cast_pow, Nat.cast_ofNat, ← zpow_natCast,
        ← zpow_add₀ two_ne_zero]
      refine (zpow_le_zpow_right₀ one_le_two ?_).trans hlow
      have hbits := format.bits_pos
      unfold gridExponent at hleast ⊢
      dsimp only at hleast
      omega

theorem round_value_zero (format : BinaryFormat) (den : Nat) : (format.round 0 den).value = 0 := by
  simp [round, Binary.value]

/-- What is no multiple of the grid is below the power of two that is below the quotient, and that
is one. -/
private theorem multiple_or_lt (format : BinaryFormat) (hnum : 0 < num) (hden : 0 < den) {s : ℚ}
    (h : Representable format.bits format.least s) :
    ∃ k : ℤ, s = k * 2 ^ format.gridExponent num den ∨
      s < k * 2 ^ format.gridExponent num den ∧
        k * 2 ^ format.gridExponent num den ≤ (num : ℚ) / den := by
  obtain ⟨m, f, hm, hf, rfl⟩ := h
  by_cases hgrid : format.gridExponent num den ≤ f
  · refine ⟨m * 2 ^ (f - format.gridExponent num den).toNat, .inl ?_⟩
    push_cast
    rw [mul_assoc, ← zpow_natCast, ← zpow_add₀ two_ne_zero]
    congr 2
    omega
  · have hexponent : format.gridExponent num den + (format.bits - 1 : Nat) = binade num den := by
      have hbits := format.bits_pos
      unfold gridExponent at hgrid ⊢
      omega
    have hpow : ((2 ^ (format.bits - 1) : ℤ) : ℚ) * 2 ^ format.gridExponent num den =
        2 ^ binade num den := by
      rw [← hexponent, zpow_add₀ two_ne_zero, zpow_natCast, mul_comm]
      push_cast
      rfl
    refine ⟨2 ^ (format.bits - 1), .inr ?_⟩
    rw [hpow]
    refine ⟨?_, (binade_spec hnum hden).1⟩
    calc (m : ℚ) * 2 ^ f < 2 ^ format.bits * 2 ^ f := by
          gcongr
          exact_mod_cast hm
      _ = 2 ^ (format.bits + f) := by rw [zpow_add₀ two_ne_zero, zpow_natCast]
      _ ≤ 2 ^ binade num den := zpow_le_zpow_right₀ one_le_two (by omega)

/-- A quotient is rounded to the nearest number that the format has. -/
theorem roundsTo_round (format : BinaryFormat) (num : Nat) (hden : 0 < den) :
    RoundsTo format.bits format.least (num / den) (format.round num den).value := by
  have hrepresentable := (Fits.round format num hden).representable
  rcases Nat.eq_zero_or_pos num with rfl | hnum
  · rw [round_value_zero] at hrepresentable ⊢
    simpa using hrepresentable.roundsTo
  · obtain ⟨hpos, hscaled⟩ := scaled_eq format num hden
    have hnear := abs_sub_roundDiv_le (format.scaled num den).1 hpos
    have hmultiple := fun s => multiple_or_lt format hnum hden (s := s)
    rw [round_of_pos hnum] at hrepresentable ⊢
    rw [hscaled] at hnear
    unfold Binary.value at hrepresentable ⊢
    dsimp only at hrepresentable ⊢
    generalize (num : ℚ) / den = x at *
    generalize format.gridExponent num den = e at *
    generalize roundDiv (format.scaled num den).1 (format.scaled num den).2 = n at *
    have hgrid : (0 : ℚ) < 2 ^ e := by positivity
    have hunits (k : ℚ) : |x - k * 2 ^ e| = |x / 2 ^ e - k| * 2 ^ e := by
      rw [← abs_of_pos hgrid, ← abs_mul, abs_of_pos hgrid, sub_mul, div_mul_cancel₀ _ hgrid.ne']
    have hleast (k : ℤ) : |x - n * 2 ^ e| ≤ |x - k * 2 ^ e| := by
      rw [hunits, hunits]
      exact mul_le_mul_of_nonneg_right (hnear k).1 hgrid.le
    refine ⟨hrepresentable, fun s hs => ?_, fun s hs htie hne => ?_⟩
    · obtain ⟨k, rfl | ⟨hlt, hle⟩⟩ := hmultiple s hs
      · exact hleast k
      · refine (hleast k).trans ?_
        rw [abs_of_nonneg (sub_nonneg.mpr hle), abs_of_nonneg (by linarith)]
        linarith
    · obtain ⟨k, rfl | ⟨hlt, hle⟩⟩ := hmultiple s hs
      · rw [hunits, hunits] at htie
        obtain ⟨hone, heven⟩ := (hnear k).2 (mul_right_cancel₀ hgrid.ne' htie) (by
          rintro rfl
          exact hne (by push_cast; rfl))
        refine ⟨n / 2, ?_⟩
        rw [← sub_mul, abs_mul, hone, one_mul, abs_of_pos hgrid]
        congr 1
        have hhalf : (n : ℤ) = 2 * (n / 2) := by omega
        exact_mod_cast hhalf
      · have hfar := hleast k
        rw [← htie, abs_of_nonneg (sub_nonneg.mpr hle), abs_of_nonneg (by linarith)] at hfar
        linarith

end

section

variable (format : BinaryFormat) (x y : Binary)

theorem roundsTo_ofNat (n : Nat) :
    RoundsTo format.bits format.least n (format.ofNat n).value := by
  simpa [ofNat] using roundsTo_round format n Nat.one_pos

theorem roundsTo_ofBinary :
    RoundsTo format.bits format.least x.value (format.ofBinary x).value := by
  obtain ⟨hhalf, hpow⟩ := twoPow_eq x.e
  have hvalue : ((x.m * (twoPow x.e).1 : Nat) : ℚ) / (twoPow x.e).2 = x.value := by
    rw [Binary.value, ← hpow, Nat.cast_mul, mul_div_assoc]
  exact hvalue ▸ roundsTo_round format (x.m * (twoPow x.e).1) hhalf

theorem roundsTo_mul :
    RoundsTo format.bits format.least (x.value * y.value) (format.mul x y).value := by
  obtain ⟨hhalf, hpow⟩ := twoPow_eq (x.e + y.e)
  have hvalue : ((x.m * y.m * (twoPow (x.e + y.e)).1 : Nat) : ℚ) / (twoPow (x.e + y.e)).2 =
      x.value * y.value := by
    rw [Nat.cast_mul, mul_div_assoc, hpow, zpow_add₀ two_ne_zero, Binary.value, Binary.value]
    push_cast
    ring
  exact hvalue ▸ roundsTo_round format _ hhalf

theorem roundsTo_div (hy : 0 < y.m) :
    RoundsTo format.bits format.least (x.value / y.value) (format.div x y).value := by
  obtain ⟨hhalf, hpow⟩ := twoPow_eq (x.e - y.e)
  have hvalue : ((x.m * (twoPow (x.e - y.e)).1 : Nat) : ℚ) /
      (y.m * (twoPow (x.e - y.e)).2 : Nat) = x.value / y.value := by
    rw [Nat.cast_mul, Nat.cast_mul, mul_div_mul_comm, hpow, zpow_sub₀ two_ne_zero, Binary.value,
      Binary.value, mul_div_mul_comm]
  exact hvalue ▸ roundsTo_round format _ (Nat.mul_pos hy hhalf)

theorem holds_iff : format.holds x = true ↔ x.value < 2 ^ format.top := by
  obtain ⟨hhalf, hpow⟩ := twoPow_eq (x.e - format.top)
  have hhalf' : (0 : ℚ) < (twoPow (x.e - format.top)).2 := by exact_mod_cast hhalf
  have htop : (0 : ℚ) < 2 ^ format.top := by positivity
  have hvalue : x.value / 2 ^ format.top = x.m * (twoPow (x.e - format.top)).1 /
      (twoPow (x.e - format.top)).2 := by
    rw [mul_div_assoc, hpow, zpow_sub₀ two_ne_zero, Binary.value, mul_div_assoc]
  rw [← div_lt_one htop, hvalue, div_lt_one hhalf', ← Nat.cast_mul, Nat.cast_lt]
  exact decide_eq_true_iff

end

end BinaryFormat

/-! ## Bits -/

theorem ofBits_eq (negative : Bool) {exponent fraction : Nat} (hexponent : exponent ≤ 255)
    (hfraction : fraction < leadingBit) :
    Exact.ofBits ((if negative then 0x80000000 else 0) + (exponent * leadingBit + fraction)) =
      if exponent = 255 then
        if fraction = 0 then .infinite negative else .nan
      else if exponent = 0 then .finite negative fraction (-149)
      else .finite negative (leadingBit + fraction) ((exponent : ℤ) - 150) := by
  unfold leadingBit at *
  have hsign : (((if negative then 0x80000000 else 0) + (exponent * 0x800000 + fraction)) /
      0x80000000 == 1) = negative := by
    cases negative <;> simp <;> omega
  have hupper : ((if negative then 0x80000000 else 0) + (exponent * 0x800000 + fraction)) /
      0x800000 % 0x100 = exponent := by
    cases negative <;> simp <;> omega
  have hlower : ((if negative then 0x80000000 else 0) + (exponent * 0x800000 + fraction)) %
      0x800000 = fraction := by
    cases negative <;> simp <;> omega
  simp only [Exact.ofBits, leadingBit, hsign, hupper, hlower]

/-- From the exponent on that is not used the numbers are too large. -/
private theorem lt_top_iff {m : Nat} {e : ℤ} (hm : m < 2 ^ 24) (hleading : 2 ^ 23 ≤ m ∨ e = -149) :
    (m : ℚ) * 2 ^ e < 2 ^ 128 ↔ e ≤ 104 := by
  refine ⟨fun hlt => ?_, fun hle => ?_⟩
  · by_contra hlarge
    refine hlt.not_ge ?_
    calc (2 : ℚ) ^ 128 = (2 ^ 23 : Nat) * 2 ^ (105 : ℤ) := by norm_num
      _ ≤ m * 2 ^ e := by
        gcongr
        · exact hleading.resolve_right (by omega)
        · exact one_le_two
        · omega
  · calc (m : ℚ) * 2 ^ e < (2 ^ 24 : Nat) * 2 ^ e := by gcongr
      _ ≤ (2 ^ 24 : Nat) * 2 ^ (104 : ℤ) := by
        gcongr
        exact one_le_two
      _ = 2 ^ 128 := by norm_num

private theorem toSingle_bits (x : Binary) (negative : Bool) :
    Exact.of (x.toSingle negative) = .ofBits ((if negative then 0x80000000 else 0) +
      min ((x.e + 149).toNat * leadingBit + x.m) infinityBits) := by
  have hmin : min ((x.e + 149).toNat * leadingBit + x.m) infinityBits ≤ 0x7F800000 :=
    Nat.min_le_right ..
  rw [Binary.toSingle, Single.exact_of_ofBits, UInt32.toNat_ofNat', Nat.mod_eq_of_lt]
  split <;> omega

theorem toSingle_exact_of_lt {x : Binary} (hm : x.m < 2 ^ 24) (hleast : -149 ≤ x.e)
    (hleading : 2 ^ 23 ≤ x.m ∨ x.e = -149) (negative : Bool) :
    Exact.of (x.toSingle negative) =
      if x.value < 2 ^ 128 then .finite negative x.m x.e else .infinite negative := by
  simp only [toSingle_bits, Binary.value, lt_top_iff hm hleading]
  by_cases hfinite : x.e ≤ 104
  · by_cases hnormal : 2 ^ 23 ≤ x.m
    · have hsize : min ((x.e + 149).toNat * leadingBit + x.m) infinityBits =
          (x.e + 150).toNat * leadingBit + (x.m - leadingBit) := by
        unfold leadingBit infinityBits
        omega
      have hmantissa : leadingBit + (x.m - leadingBit) = x.m := by
        unfold leadingBit
        omega
      have hexponent : ((x.e + 150).toNat : ℤ) - 150 = x.e := by omega
      rw [hsize, ofBits_eq negative (by omega) (by unfold leadingBit; omega), if_neg (by omega),
        if_neg (by omega), if_pos hfinite, hmantissa, hexponent]
    · have hsubnormal := hleading.resolve_left hnormal
      have hsize : min ((x.e + 149).toNat * leadingBit + x.m) infinityBits =
          0 * leadingBit + x.m := by
        unfold leadingBit infinityBits
        omega
      rw [hsize, ofBits_eq negative (by omega) (by unfold leadingBit; omega), if_neg (by decide),
        if_pos rfl, if_pos hfinite, hsubnormal]
  · have hsize : min ((x.e + 149).toNat * leadingBit + x.m) infinityBits =
        255 * leadingBit + 0 := by
      unfold leadingBit infinityBits
      omega
    rw [hsize, ofBits_eq negative le_rfl (by decide), if_pos rfl, if_pos rfl, if_neg hfinite]

/-- A number that is rounded to single precision is packed without loss. -/
theorem toSingle_exact {x : Binary} (h : BinaryFormat.single.Fits x) (negative : Bool) :
    if x.value < 2 ^ 128 then
      ∃ m e, Exact.of (x.toSingle negative) = .finite negative m e ∧ m * 2 ^ e = x.value
    else Exact.of (x.toSingle negative) = .infinite negative := by
  obtain ⟨hle, hleast, hleading⟩ :
      x.m ≤ 2 ^ 24 ∧ -149 ≤ x.e ∧ (2 ^ 24 ≤ 2 * x.m ∨ x.e = -149) := h
  rcases hle.lt_or_eq with hlt | hfull
  · have hleading : 2 ^ 23 ≤ x.m ∨ x.e = -149 := hleading.imp_left (by omega)
    rw [toSingle_exact_of_lt hlt hleast hleading]
    split_ifs with hfinite
    · exact ⟨x.m, x.e, rfl, rfl⟩
    · rfl
  · -- The bit too many counts up the exponent.
    have hvalue : x.value = Binary.value ⟨2 ^ 23, x.e + 1⟩ := by
      simp only [Binary.value, hfull, zpow_add_one₀ (two_ne_zero' ℚ)]
      norm_num
      ring
    have hsame : x.toSingle negative = Binary.toSingle ⟨2 ^ 23, x.e + 1⟩ negative := by
      have hbits : (x.e + 149).toNat * leadingBit + x.m =
          (x.e + 1 + 149).toNat * leadingBit + 2 ^ 23 := by
        unfold leadingBit
        omega
      simp only [Binary.toSingle, hbits]
    rw [hsame, hvalue, toSingle_exact_of_lt (Nat.pow_lt_pow_right (by decide) (by decide))
      (by dsimp only; omega) (.inl le_rfl)]
    split_ifs with hfinite
    · exact ⟨_, _, rfl, rfl⟩
    · rfl

end HeadsetStream.Number
