import HeadsetStream.Json.Scalar
import HeadsetStream.Proofs.Rounding

/-!
# Which single precision number a text means

A whole number of 64 bits means the single precision number nearest to it. What any other number
comes to is worked out in double precision step by step, and the nearest single precision number to
that is meant; a number beyond double precision means nothing. The meaning of a number is what it is
read as.
-/

namespace HeadsetStream.Json
open HeadsetStream.Number

/-- `x` is the single precision number nearest to `y`, or its negative. From `2 ^ 128` on it is
infinite. -/
def NearestSingle (negative : Bool) (y : ℚ) (x : Float32) : Prop :=
  ∃ r, RoundsTo 24 (-149) y r ∧
    if r < 2 ^ 128 then ∃ m e, Exact.of x = .finite negative m e ∧ m * 2 ^ e = r
    else Exact.of x = .infinite negative

/-- `r` is the double precision number nearest to `x`, where there is no largest one. -/
abbrev NearestDouble (x r : ℚ) : Prop := RoundsTo 53 (-1074) x r

/-- `y` is what a coefficient comes to with an exponent of ten in double precision: the coefficient
and the power of ten are rounded, and so is their product or their quotient. Below one power of ten
that double precision has there are two quotients, and below two of them nothing is left. -/
inductive WorksOut (coefficient : Nat) (exponent : ℤ) (y : ℚ) : Prop where
  | product {k : Nat} {size power : ℚ} (hexponent : exponent = k)
      (hsize : NearestDouble coefficient size) (hpower : NearestDouble (10 ^ k) power)
      (hy : NearestDouble (size * power) y)
  | quotient {k : Nat} {size power : ℚ} (hpos : 0 < k) (hk : k ≤ 308) (hexponent : exponent = -k)
      (hsize : NearestDouble coefficient size) (hpower : NearestDouble (10 ^ k) power)
      (hy : NearestDouble (size / power) y)
  | quotients {k : Nat} {size most part power : ℚ} (hpos : 0 < k) (hk : k ≤ 308)
      (hexponent : exponent = -308 - k) (hsize : NearestDouble coefficient size)
      (hmost : NearestDouble (10 ^ 308) most) (hpart : NearestDouble (size / most) part)
      (hpower : NearestDouble (10 ^ k) power) (hy : NearestDouble (part / power) y)
  | nothing {k : Nat} (hk : 616 < k) (hexponent : exponent = -k) (hy : y = 0)

namespace Number

/-- A plain number in the range of 64-bit words, signed or not; minus zero is none. -/
def IsWord (n : Number) : Prop :=
  n.plain = true ∧
    if n.negative then 0 < n.coefficient ∧ n.coefficient ≤ 2 ^ 63 else n.coefficient < 2 ^ 64

/-- `x` is what a number means in single precision. -/
inductive Denotes (n : Number) (x : Float32) : Prop where
  | word (hword : n.IsWord) (hx : NearestSingle n.negative n.coefficient x)
  | other {y : ℚ} (hword : ¬ n.IsWord) (hy : WorksOut n.coefficient n.exponent y)
      (hrange : y < 2 ^ 1024) (hx : NearestSingle n.negative y x)

end Number

/-! ## Single precision -/

theorem NearestSingle.unique {negative : Bool} {y : ℚ} {x x' : Float32}
    (h : NearestSingle negative y x) (h' : NearestSingle negative y x') : x = x' := by
  obtain ⟨r, hr, hx⟩ := h
  obtain ⟨r', hr', hx'⟩ := h'
  obtain rfl := hr.unique hr'
  split_ifs at hx hx' with hfinite
  · obtain ⟨m, e, hexact, hvalue⟩ := hx
    obtain ⟨m', e', hexact', hvalue'⟩ := hx'
    obtain ⟨rfl, rfl⟩ := Single.eq_of_magnitude_eq
      (Single.ofBits_finite x.toBits.toNat_lt hexact).1
      (Single.ofBits_finite x'.toBits.toNat_lt hexact').1 (hvalue.trans hvalue'.symm)
    exact Single.eq_of_exact (by rw [hexact]; exact nofun) (hexact.trans hexact'.symm)
  · exact Single.eq_of_exact (by rw [hx]; exact nofun) (hx.trans hx'.symm)

theorem nearestSingle_toSingle {y : ℚ} {b : Binary} (hfits : BinaryFormat.single.Fits b)
    (h : RoundsTo 24 (-149) y b.value) (negative : Bool) :
    NearestSingle negative y (b.toSingle negative) :=
  ⟨b.value, h, toSingle_exact hfits negative⟩

private theorem nearestSingle_ofNat (n : Nat) (negative : Bool) :
    NearestSingle negative n ((BinaryFormat.single.ofNat n).toSingle negative) :=
  nearestSingle_toSingle (.round _ n Nat.one_pos) (BinaryFormat.single.roundsTo_ofNat n) negative

theorem nearestSingle_ofBinary (b : Binary) (negative : Bool) :
    NearestSingle negative b.value ((BinaryFormat.single.ofBinary b).toSingle negative) :=
  nearestSingle_toSingle (.round _ _ (twoPow_eq b.e).1) (BinaryFormat.single.roundsTo_ofBinary b)
    negative

/-! ## Double precision -/

private theorem nearestDouble_zero {r : ℚ} : NearestDouble 0 r ↔ r = 0 := by
  have hzero : Representable 53 (-1074) 0 := ⟨0, 0, by decide, by decide, by simp⟩
  refine ⟨fun h => h.unique hzero.roundsTo, ?_⟩
  rintro rfl
  exact hzero.roundsTo

/-- Beyond the powers of ten that double precision has, all numbers are too large. -/
private theorem le_product {coefficient k : Nat} {size power y : ℚ} (hpos : 0 < coefficient)
    (hk : 308 < k) (hsize : NearestDouble coefficient size) (hpower : NearestDouble (10 ^ k) power)
    (hy : NearestDouble (size * power) y) : 2 ^ 1024 ≤ y := by
  have hone : 1 ≤ size :=
    hsize.le_of_le ⟨1, 0, by decide, by decide, by simp⟩ (by exact_mod_cast hpos)
  have htop : Representable 53 (-1074) (2 ^ 1024) := ⟨1, 1024, by decide, by decide, by norm_num⟩
  have hlarge : (2 : ℚ) ^ 1024 ≤ power := by
    refine hpower.le_of_le htop ?_
    calc (2 : ℚ) ^ 1024 ≤ 10 ^ 309 := by
          exact_mod_cast (by decide +kernel : 2 ^ 1024 ≤ 10 ^ 309)
      _ ≤ 10 ^ k := pow_le_pow_right₀ (by norm_num) hk
  refine hy.le_of_le htop ?_
  calc (2 : ℚ) ^ 1024 ≤ power := hlarge
    _ ≤ size * power := le_mul_of_one_le_left hpower.representable.nonneg hone

theorem nearestDouble_ofNat (n : Nat) : NearestDouble n (BinaryFormat.double.ofNat n).value :=
  BinaryFormat.double.roundsTo_ofNat n

theorem nearestDouble_powerOfTen (k : Nat) :
    NearestDouble (10 ^ k) (Number.powerOfTen k).value := by
  have h := nearestDouble_ofNat (Nat.pow 10 k)
  rwa [Nat.pow_eq, Nat.cast_pow] at h

/-- A power of ten is not rounded to zero. -/
private theorem powerOfTen_pos (k : Nat) : 0 < (Number.powerOfTen k).m := by
  have hone : 1 ≤ (Number.powerOfTen k).value :=
    (nearestDouble_powerOfTen k).le_of_le ⟨1, 0, by decide, by decide, by simp⟩
      (one_le_pow₀ (by norm_num))
  refine Nat.pos_of_ne_zero fun hzero => ?_
  rw [Binary.value, hzero, Nat.cast_zero, zero_mul] at hone
  linarith

private theorem nearestDouble_mul (x y : Binary) :
    NearestDouble (x.value * y.value) (BinaryFormat.double.mul x y).value :=
  BinaryFormat.double.roundsTo_mul x y

theorem nearestDouble_div (x : Binary) (k : Nat) :
    NearestDouble (x.value / (Number.powerOfTen k).value)
      (BinaryFormat.double.div x (Number.powerOfTen k)).value :=
  BinaryFormat.double.roundsTo_div x _ (powerOfTen_pos k)

/-- What the exponent says about the steps: the power of ten is multiplied by, divides once, divides
after the largest one, or is too small for anything to be left. -/
private theorem exponent_cases (exponent : ℤ) :
    (∃ k : Nat, exponent = k) ∨ (∃ k : Nat, 0 < k ∧ k ≤ 308 ∧ exponent = -k) ∨
      (∃ k : Nat, 0 < k ∧ k ≤ 308 ∧ exponent = -308 - k) ∨ ∃ k : Nat, 616 < k ∧ exponent = -k := by
  by_cases hproduct : 0 ≤ exponent
  · exact .inl ⟨exponent.toNat, by omega⟩
  by_cases hquotient : -308 ≤ exponent
  · exact .inr (.inl ⟨(-exponent).toNat, by omega, by omega, by omega⟩)
  by_cases hquotients : -616 ≤ exponent
  · exact .inr (.inr (.inl ⟨(-exponent - 308).toNat, by omega, by omega, by omega⟩))
  · exact .inr (.inr (.inr ⟨(-exponent).toNat, by omega, by omega⟩))

private theorem worksOut_zero (exponent : ℤ) : WorksOut 0 exponent 0 := by
  have hnone : NearestDouble (0 : Nat) 0 := by simpa using nearestDouble_zero.mpr rfl
  have hpower := nearestDouble_powerOfTen
  obtain ⟨k, hk⟩ | ⟨k, hpos, hle, hk⟩ | ⟨k, hpos, hle, hk⟩ | ⟨k, hlarge, hk⟩ :=
    exponent_cases exponent
  · exact .product hk hnone (hpower k) (by rwa [zero_mul, ← Nat.cast_zero])
  · exact .quotient hpos hle hk hnone (hpower k) (by rwa [zero_div, ← Nat.cast_zero])
  · exact .quotients hpos hle hk hnone (hpower 308) (by rwa [zero_div, ← Nat.cast_zero]) (hpower k)
      (by rwa [zero_div, ← Nat.cast_zero])
  · exact .nothing hlarge hk rfl

/-- The steps leave no choice. -/
theorem WorksOut.unique {coefficient : Nat} {exponent : ℤ} {y y' : ℚ}
    (h : WorksOut coefficient exponent y) (h' : WorksOut coefficient exponent y') : y = y' := by
  cases h with
  | product hk hsize hpower hy =>
    cases h' with
    | product hk' hsize' hpower' hy' =>
      obtain rfl : _ = _ := by exact_mod_cast hk.symm.trans hk'
      obtain rfl := hsize.unique hsize'
      obtain rfl := hpower.unique hpower'
      exact hy.unique hy'
    | _ => omega
  | quotient hpos hle hk hsize hpower hy =>
    cases h' with
    | quotient hpos' hle' hk' hsize' hpower' hy' =>
      obtain rfl : _ = _ := by exact_mod_cast neg_inj.mp (hk.symm.trans hk')
      obtain rfl := hsize.unique hsize'
      obtain rfl := hpower.unique hpower'
      exact hy.unique hy'
    | _ => omega
  | quotients hpos hle hk hsize hmost hpart hpower hy =>
    cases h' with
    | quotients hpos' hle' hk' hsize' hmost' hpart' hpower' hy' =>
      obtain rfl : _ = _ := by exact_mod_cast sub_right_inj.mp (hk.symm.trans hk')
      obtain rfl := hsize.unique hsize'
      obtain rfl := hmost.unique hmost'
      obtain rfl := hpart.unique hpart'
      obtain rfl := hpower.unique hpower'
      exact hy.unique hy'
    | _ => omega
  | nothing hlarge hk hy =>
    cases h' with
    | nothing hlarge' hk' hy' => rw [hy, hy']
    | _ => omega

namespace Number

variable {n : Number}

/-- What is read is what the number comes to. -/
theorem worksOut_magnitude {size : Binary} (h : n.magnitude? = some size) :
    WorksOut n.coefficient n.exponent size.value := by
  have hcoefficient := nearestDouble_ofNat n.coefficient
  unfold magnitude? topPower at h
  dsimp only at h
  split_ifs at h with hzero hlarge hproduct hquotient hquotients <;> obtain rfl := Option.some.inj h
  · have hnone : (BinaryFormat.double.ofNat 0).value = 0 := BinaryFormat.round_value_zero ..
    rw [hzero, hnone]
    exact worksOut_zero n.exponent
  · exact .product (Int.toNat_of_nonneg hproduct).symm hcoefficient (nearestDouble_powerOfTen _)
      (nearestDouble_mul ..)
  · exact .quotient (by omega) (by omega) (by omega) hcoefficient (nearestDouble_powerOfTen _)
      (nearestDouble_div ..)
  · exact .quotients (k := (-n.exponent - 308).toNat) (by omega) (by omega) (by omega) hcoefficient
      (nearestDouble_powerOfTen 308) (nearestDouble_div ..) (nearestDouble_powerOfTen _)
      (nearestDouble_div ..)
  · exact .nothing (k := (-n.exponent).toNat) (by omega) (by omega) (by simp [Binary.value])

/-- What is not read is too large. -/
private theorem le_of_magnitude_none (h : n.magnitude? = none) {y : ℚ}
    (hy : WorksOut n.coefficient n.exponent y) : 2 ^ 1024 ≤ y := by
  unfold magnitude? topPower at h
  dsimp only at h
  split_ifs at h with hzero hlarge
  cases hy with
  | product hk hsize hpower hy =>
    exact le_product (Nat.pos_of_ne_zero hzero) (by omega) hsize hpower hy
  | _ => omega

/-- A number is read in double precision if it is in range there, and then as what it comes to. -/
theorem toDouble?_iff {y : ℚ} : (∃ size, n.toDouble? = some size ∧ size.value = y) ↔
    WorksOut n.coefficient n.exponent y ∧ y < 2 ^ 1024 := by
  simp only [toDouble?, Option.filter_eq_some_iff, BinaryFormat.holds_iff]
  constructor
  · rintro ⟨size, ⟨hread, hholds⟩, rfl⟩
    exact ⟨worksOut_magnitude hread, hholds⟩
  · rintro ⟨hy, hrange⟩
    cases hread : n.magnitude? with
    | none => exact absurd hrange (le_of_magnitude_none hread hy).not_gt
    | some size =>
      obtain rfl := hy.unique (worksOut_magnitude hread)
      exact ⟨size, ⟨rfl, hrange⟩, rfl⟩

/-! ## The reader -/

theorem toWord?_of_toInt? {i : ℤ} (h : n.toInt? = some i) :
    n.toWord? = if -0x8000000000000000 ≤ i ∧ i < 0x10000000000000000 then some i else none := by
  have h63 : wordCount 63 = 0x8000000000000000 := rfl
  have h64 : wordCount 64 = 0x10000000000000000 := rfl
  simp only [toWord?, h, Option.bind_some, h63, h64, Bool.and_eq_true, decide_eq_true_eq]
  rfl

private theorem toWord?_of_isWord (h : n.IsWord) :
    n.toWord? = some (if n.negative then -(n.coefficient : ℤ) else n.coefficient) := by
  obtain ⟨hplain, hrange⟩ := h
  cases hnegative : n.negative with
  | true =>
    rw [hnegative, if_pos rfl] at hrange
    have hint : n.toInt? = some (-(n.coefficient : ℤ)) := by
      simp [toInt?, hplain, hnegative, hrange.1.ne']
    rw [toWord?_of_toInt? hint, if_pos (by omega), if_pos rfl]
  | false =>
    rw [hnegative, if_neg Bool.false_ne_true] at hrange
    have hint : n.toInt? = some (n.coefficient : ℤ) := by simp [toInt?, hplain, hnegative]
    rw [toWord?_of_toInt? hint, if_pos (by omega), if_neg Bool.false_ne_true]

private theorem toWord?_eq_none (h : ¬ n.IsWord) : n.toWord? = none := by
  by_cases hplain : n.plain = true
  · have hrange := mt (And.intro hplain) h
    cases hnegative : n.negative with
    | true =>
      rw [hnegative, if_pos rfl] at hrange
      by_cases hzero : n.coefficient = 0
      · simp [toWord?, toInt?, hplain, hnegative, hzero]
      · have hint : n.toInt? = some (-(n.coefficient : ℤ)) := by
          simp [toInt?, hplain, hnegative, hzero]
        rw [toWord?_of_toInt? hint, if_neg (by omega)]
    | false =>
      rw [hnegative, if_neg Bool.false_ne_true] at hrange
      have hint : n.toInt? = some (n.coefficient : ℤ) := by simp [toInt?, hplain, hnegative]
      rw [toWord?_of_toInt? hint, if_neg (by omega)]
  · simp [toWord?, toInt?, hplain]

/-- A number is read as what it means. -/
theorem toSingle?_eq_some_iff {x : Float32} : n.toSingle? = some x ↔ n.Denotes x := by
  by_cases hword : n.IsWord
  · have hread : n.toSingle? =
        some ((BinaryFormat.single.ofNat n.coefficient).toSingle n.negative) := by
      have hsign : decide ((if n.negative then -(n.coefficient : ℤ) else n.coefficient) < 0) =
          n.negative := by
        have hrange := hword.2
        cases hnegative : n.negative <;> simp [hnegative] at hrange ⊢
        exact hrange.1
      have hsize : (if n.negative then -(n.coefficient : ℤ) else n.coefficient).natAbs =
          n.coefficient := by
        split <;> omega
      simp only [toSingle?, toWord?_of_isWord hword, hsign, hsize]
    have hnear := nearestSingle_ofNat n.coefficient n.negative
    rw [hread, Option.some.injEq]
    constructor
    · rintro rfl
      exact .word hword hnear
    · rintro (⟨-, hx⟩ | ⟨hnot, -⟩)
      · exact hnear.unique hx
      · exact absurd hword hnot
  · have hread : n.toSingle? = n.toDouble?.map fun size =>
        (BinaryFormat.single.ofBinary size).toSingle n.negative := by
      rw [toSingle?, toWord?_eq_none hword]
    rw [hread, Option.map_eq_some_iff]
    constructor
    · rintro ⟨size, hsize, rfl⟩
      obtain ⟨hy, hrange⟩ := toDouble?_iff.mp ⟨size, hsize, rfl⟩
      exact .other hword hy hrange (nearestSingle_ofBinary size n.negative)
    · rintro (⟨hyes, -⟩ | ⟨-, hy, hrange, hx⟩)
      · exact absurd hyes hword
      · obtain ⟨size, hsize, rfl⟩ := toDouble?_iff.mpr ⟨hy, hrange⟩
        exact ⟨size, hsize, (nearestSingle_ofBinary size n.negative).unique hx⟩

end Number

end HeadsetStream.Json
