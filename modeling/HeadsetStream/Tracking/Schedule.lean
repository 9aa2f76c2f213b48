import HeadsetStream.Number.Single

/-!
# When to sample

Tracking is sampled at a multiple of the display rate. After each sample the sampler sleeps until
its next wake time; after sleeping late it leaves out the samples it has missed.
-/

namespace HeadsetStream.Tracking
open Number

def nanosPerSecond : Nat := 1000000000

/-- Samples for each frame of the display. -/
def samplesPerFrame : Float32 := 3

/-- The time between two samples in microseconds, at least one, at a display rate in hertz. -/
def samplePeriod (rate : Float32) : Nat :=
  (Single.atLeast 1 (1 / (rate * samplesPerFrame) * 1e6)).toUInt64.toNat

/-- The time from `next` to the first of its repeats that is after `now`: one period more than the
whole periods missed. -/
def missedTime (next now period : Nat) : Nat :=
  ((now - next) / max period 1 + 1) * max period 1

/-- The wake time for a sample that is due at `next`. If it is not yet past it stands; else the
sampler wakes after `now` by the time it has missed, in as many nanoseconds as 64 bits count. -/
def nextWake (next now period : Nat) : Nat :=
  if now < next then next else now + missedTime next now period % UInt64.size

theorem nextWake_of_lt {next now period : Nat} (h : now < next) :
    nextWake next now period = next := by
  simp [nextWake, h]

theorem lt_missedTime (next now : Nat) {period : Nat} (h : 0 < period) :
    now - next < missedTime next now period := by
  have hfloor := Nat.lt_div_mul_add (a := now - next) h
  rw [missedTime, Nat.max_eq_left h, Nat.add_mul, Nat.one_mul]
  exact hfloor

end HeadsetStream.Tracking
