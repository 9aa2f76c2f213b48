import HeadsetStream.Tracking.Schedule
import Mathlib.Data.Nat.ModEq
import Mathlib.Order.Bounds.Basic

/-!
# Keeping to the schedule

A schedule repeats a time at a fixed period. A sampler that is not late wakes at the first time of
its schedule that is still to come. One that is late adds the periods that it has missed, and one
more, to the present and not to the time that it has missed: it wakes too late by as long as it was
late, and its schedule is put off by so much from then on.
-/

namespace HeadsetStream.Tracking

/-- The times of a schedule that are still to come. -/
def upcoming (next now period : Nat) : Set Nat :=
  {wake | now < wake ∧ ∃ k, wake = next + k * period}

section

variable {next now period : Nat}

theorem missedTime_eq (hperiod : 0 < period) :
    missedTime next now period = ((now - next) / period + 1) * period := by
  rw [missedTime, Nat.max_eq_left hperiod]

theorem missedTime_le_iff (hperiod : 0 < period) :
    missedTime next now period ≤ period ↔ now - next < period := by
  constructor
  · exact fun h => (lt_missedTime next now hperiod).trans_le h
  · intro h
    rw [missedTime_eq hperiod, Nat.div_eq_of_lt h, Nat.zero_add, Nat.one_mul]

theorem isLeast_upcoming_of_lt (h : now < next) : IsLeast (upcoming next now period) next := by
  refine ⟨⟨h, 0, by rw [Nat.zero_mul, Nat.add_zero]⟩, ?_⟩
  rintro wake ⟨-, k, rfl⟩
  exact Nat.le_add_right next _

/-- The missed periods and one more lead to the first time that is still to come. -/
theorem isLeast_upcoming_missed (hperiod : 0 < period) (hdue : next ≤ now) :
    IsLeast (upcoming next now period) (next + missedTime next now period) := by
  have hlate := lt_missedTime next now hperiod
  refine ⟨⟨by omega, _, congrArg (next + ·) (missedTime_eq hperiod)⟩, ?_⟩
  rintro wake ⟨hwake, k, rfl⟩
  have hwhole : (now - next) / period < k := by
    rw [Nat.div_lt_iff_lt_mul hperiod]
    omega
  rw [missedTime_eq hperiod]
  exact Nat.add_le_add_left (Nat.mul_le_mul_right period hwhole) next

/-- A sampler that is late sleeps as much longer as it is late. -/
theorem nextWake_of_le (hdue : next ≤ now)
    (hcount : missedTime next now period < UInt64.size) :
    nextWake next now period = next + missedTime next now period + (now - next) := by
  rw [nextWake, if_neg (Nat.not_lt.mpr hdue), Nat.mod_eq_of_lt hcount]
  omega

theorem nextWake_modEq_iff (hperiod : 0 < period) (hdue : next ≤ now)
    (hcount : missedTime next now period < UInt64.size) :
    nextWake next now period ≡ next [MOD period] ↔ period ∣ now - next := by
  have hwhole : period ∣ missedTime next now period := by
    rw [missedTime_eq hperiod]
    exact Nat.dvd_mul_left period _
  rw [nextWake_of_le hdue hcount, Nat.add_assoc, Nat.ModEq.comm,
    Nat.modEq_iff_dvd' (Nat.le_add_right next _), Nat.add_sub_cancel_left,
    Nat.dvd_add_right hwhole]

/-- The sampler wakes at the first time of its schedule that is still to come exactly if it is not
late. If it is, it wakes as much after that time; so the next time to wake is at most a period ahead
only if it is late by less than a period, and belongs to the schedule only if it is late by whole
periods. -/
theorem wakes_on_schedule_iff (hperiod : 0 < period)
    (hcount : next ≤ now → missedTime next now period < UInt64.size) :
    let wake := nextWake next now period
    (IsLeast (upcoming next now period) wake ↔ now ≤ next) ∧
      IsLeast (upcoming next now period) (wake - (now - next)) ∧
      now < wake ∧
      (wake ≤ max next now + period ↔ now < next + period) ∧
      (wake ≡ next [MOD period] ↔ period ∣ now - next) := by
  intro wake
  rcases Nat.lt_or_ge now next with hearly | hdue
  · have hwake : wake = next := nextWake_of_lt hearly
    have hontime : now - next = 0 := Nat.sub_eq_zero_of_le hearly.le
    have hleast : IsLeast (upcoming next now period) next := isLeast_upcoming_of_lt hearly
    rw [hwake, hontime]
    refine ⟨iff_of_true hleast hearly.le, hleast, hearly, iff_of_true ?_ (by omega),
      iff_of_true (Nat.ModEq.refl next) (Nat.dvd_zero period)⟩
    exact (Nat.le_max_left next now).trans (Nat.le_add_right _ period)
  · have hwake : wake = _ := nextWake_of_le hdue (hcount hdue)
    have hleast := isLeast_upcoming_missed hperiod hdue
    have hdivides := nextWake_modEq_iff hperiod hdue (hcount hdue)
    have hlate := lt_missedTime next now hperiod
    refine ⟨⟨fun h => ?_, fun h => ?_⟩, ?_, by omega, ?_, hdivides⟩
    · have hunique := hleast.unique h
      omega
    · obtain rfl := h.antisymm hdue
      rwa [hwake, Nat.sub_self, Nat.add_zero]
    · rwa [hwake, Nat.add_sub_cancel]
    · have hnear : missedTime next now period ≤ period ↔ now - next < period :=
        missedTime_le_iff hperiod
      omega

end

/-- A sampler that is late by two and a half periods wakes by as much after the time at which its
schedule goes on. -/
theorem two_and_a_half_periods_late :
    let wake := nextWake 10000000 35000000 10000000
    let times := upcoming 10000000 35000000 10000000
    0 < 10000000 ∧ (10000000 ≤ 35000000 → missedTime 10000000 35000000 10000000 < UInt64.size) ∧
      wake = 65000000 ∧ IsLeast times 40000000 ∧ ¬ IsLeast times wake ∧
      ¬ wake ≡ 10000000 [MOD 10000000] := by
  intro wake times
  have hperiod : 0 < 10000000 := by decide
  have hcount : 10000000 ≤ 35000000 →
      missedTime 10000000 35000000 10000000 < UInt64.size := by decide
  have hwake : wake = 65000000 := by decide
  obtain ⟨hontime, hleast, -, -, hwhole⟩ := wakes_on_schedule_iff hperiod hcount
  have hlate : wake - (35000000 - 10000000) = 40000000 := by rw [hwake]
  rw [hlate] at hleast
  refine ⟨hperiod, hcount, hwake, hleast, fun h => ?_, fun h => ?_⟩
  · exact absurd (hontime.mp h) (by decide)
  · exact absurd (hwhole.mp h) (by decide)

/-- A sampler that overslept does not wake at the first time of its schedule that is to come. -/
theorem overslept_off_schedule :
    ¬ ∀ next now period, 0 < period →
      IsLeast (upcoming next now period) (nextWake next now period) := by
  intro h
  have hwake : nextWake 10000000 35000000 10000000 = 65000000 := by decide
  obtain ⟨-, hleast⟩ := h 10000000 35000000 10000000 (by decide)
  have hfirst : 40000000 ∈ upcoming 10000000 35000000 10000000 := ⟨by decide, 3, by decide⟩
  have hle := hleast hfirst
  rw [hwake] at hle
  exact absurd hle (by decide)

-- Beyond the count of 64 bits the sampler does not sleep at all.
example : nextWake 0 0x8000000000000000 0x8000000000000000 = 0x8000000000000000 := by decide

end HeadsetStream.Tracking
