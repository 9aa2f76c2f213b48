import HeadsetStream.Command.Playback
import HeadsetStream.Proofs.Reciprocal

/-!
# The time between frames

A display rate becomes a time between frames in two steps that both round: the reciprocal in single
precision, and its nanoseconds. Both keep the order, so the time at one rate bounds the times at all
higher ones. It can be counted from the first rate above `2 ^ -64` on, and it is positive up to the
last rate below two thousand million, beyond which it is rounded to nothing.
-/

namespace HeadsetStream.Command
open Number Tracking

/-- The nanoseconds between frames at `x` frames a second. -/
def nearestPeriod (x : ℚ) : Nat := nearest (Single.reciprocal x * nanosPerSecond)

/-- The times that fit count their seconds in 64 bits. -/
def longestPeriod : Nat := 0x10000000000000000 * nanosPerSecond

private theorem nearestPeriod_anti {x y : ℚ} (hx : 0 < x) (h : x ≤ y) :
    nearestPeriod y ≤ nearestPeriod x := by
  have hnonneg : 0 ≤ Single.reciprocal y := by unfold Single.reciprocal; positivity
  refine nearest_mono (by positivity) ?_
  gcongr
  exact Single.reciprocal_anti hx h

theorem framePeriod_eq {rate : Float32} (h : 0 < Single.value rate) :
    framePeriod rate = if nearestPeriod (Single.value rate) < longestPeriod then
      some (nearestPeriod (Single.value rate)) else none := by
  rcases Single.exact_one_div h with ⟨n, f, hvalue, hexact⟩ | ⟨hlarge, hexact⟩
  · obtain ⟨hhalf, hpow⟩ := twoPow_eq f
    have hperiod : roundDiv (n * (twoPow f).1 * nanosPerSecond) (twoPow f).2 =
        nearestPeriod (Single.value rate) := by
      rw [roundDiv_eq_nearest _ hhalf, nearestPeriod, ← hvalue, ← hpow]
      push_cast
      congr 1
      ring
    simp only [framePeriod, hexact, hperiod]
    rfl
  · have hlong : longestPeriod ≤ nearestPeriod (Single.value rate) := by
      rw [← nearest_natCast longestPeriod, nearestPeriod]
      refine nearest_mono (Nat.cast_nonneg _) ?_
      calc (longestPeriod : ℚ) ≤ 2 ^ 128 * nanosPerSecond := by
            norm_num [longestPeriod, nanosPerSecond]
        _ ≤ Single.reciprocal (Single.value rate) * nanosPerSecond := by gcongr
    simp only [framePeriod, hexact]
    rw [if_neg hlong.not_gt]

theorem framePeriod_of_infinity {rate : Float32}
    (h : rate.toModel.unpack = .infinity .positive) : framePeriod rate = some 0 := by
  rw [framePeriod, Single.exact_one_div_infinity h]
  decide +kernel

/-- A higher rate leaves no more time between frames. -/
theorem framePeriod_anti {slow fast : Float32} (hpos : 0 < Single.value slow)
    (h : Single.value slow ≤ Single.value fast) {period : Nat}
    (hslow : framePeriod slow = some period) :
    ∃ shorter ≤ period, framePeriod fast = some shorter := by
  have hanti := nearestPeriod_anti hpos h
  rw [framePeriod_eq hpos] at hslow
  split_ifs at hslow with hfits
  obtain rfl := Option.some.inj hslow
  rw [framePeriod_eq (hpos.trans_le h), if_pos (hanti.trans_lt hfits)]
  exact ⟨_, hanti, rfl⟩

section

variable {rate : Float32}

/-- The time between frames is too long to be counted. -/
theorem framePeriod_slow (hpos : 0 < Single.value rate)
    (h : Single.value rate ≤ 2 ^ (-64 : ℤ)) : framePeriod rate = none := by
  let bound := Float32.ofBits 0x1F800000
  have hexact : Exact.of bound = .finite false (2 ^ 23) (-87) := by decide +kernel
  have hvalue : Single.value bound = 2 ^ (-64 : ℤ) := by
    rw [Single.value_of_exact hexact]
    norm_num
  have hnone : framePeriod bound = none := by decide +kernel
  cases hrate : framePeriod rate with
  | none => rfl
  | some period =>
    obtain ⟨shorter, -, hbound⟩ := framePeriod_anti hpos (h.trans_eq hvalue.symm) hrate
    rw [hnone] at hbound
    cases hbound

/-- The time between frames is less than half a nanosecond. -/
theorem framePeriod_fast (h : 2000000000 ≤ Single.value rate) : framePeriod rate = some 0 := by
  let bound := Float32.ofBits 0x4EEE6B28
  have hexact : Exact.of bound = .finite false 15625000 7 := by decide +kernel
  have hvalue : Single.value bound = 2000000000 := by
    rw [Single.value_of_exact hexact]
    norm_num
  have hzero : framePeriod bound = some 0 := by decide +kernel
  obtain ⟨period, hle, hrate⟩ :=
    framePeriod_anti (by rw [hvalue]; norm_num) (hvalue.trans_le h) hzero
  rw [hrate, Nat.le_zero.mp hle]

/-- At all rates between the time is counted, and is not nothing. -/
theorem framePeriod_positive (hslow : 2 ^ (-64 : ℤ) < Single.value rate)
    (hfast : Single.value rate < 2000000000) :
    ∃ period, framePeriod rate = some period ∧ 0 < period := by
  let lowest := Float32.ofBits 0x1F800001
  let highest := Float32.ofBits 0x4EEE6B27
  have hlowest : Single.value lowest = (2 ^ 23 + 1 : Nat) * 2 ^ (-87 : ℤ) :=
    Single.value_of_exact (by decide +kernel)
  have hhighest : Single.value highest = (15624999 : Nat) * 2 ^ (7 : ℤ) :=
    Single.value_of_exact (by decide +kernel)
  have habove : Single.value lowest ≤ Single.value rate := by
    have hleast : ((2 ^ 23 : Nat) : ℚ) * 2 ^ (-87 : ℤ) = 2 ^ (-64 : ℤ) := by norm_num
    rw [hlowest]
    exact Single.next_le_value (by decide) ⟨by decide, by decide, by decide, by decide⟩
      ⟨by decide, by decide, by decide, by decide⟩ (hleast.trans_lt hslow)
  have hbelow : Single.value rate ≤ Single.value highest := by
    have hmost : ((15624999 + 1 : Nat) : ℚ) * 2 ^ (7 : ℤ) = 2000000000 := by norm_num
    rw [hhighest]
    by_contra hover
    have hnext := Single.next_le_value (by decide)
      ⟨by decide, by decide, by decide, by decide⟩
      ⟨by decide, by decide, by decide, by decide⟩ (not_le.mp hover)
    exact (hmost.symm.trans_le hnext).not_gt hfast
  have hpos : 0 < Single.value rate := (by positivity : (0 : ℚ) < 2 ^ (-64 : ℤ)).trans hslow
  obtain ⟨longest, hlongest⟩ : ∃ longest, framePeriod lowest = some longest :=
    Option.isSome_iff_exists.mp (by decide +kernel)
  obtain ⟨period, -, hperiod⟩ :=
    framePeriod_anti (by rw [hlowest]; positivity) habove hlongest
  obtain ⟨shortest, hle, hshortest⟩ := framePeriod_anti hpos hbelow hperiod
  have hone : framePeriod highest = some 1 := by decide +kernel
  rw [hone] at hshortest
  obtain rfl := Option.some.inj hshortest
  exact ⟨period, hperiod, hle⟩

end

end HeadsetStream.Command
