import HeadsetStream.Latency.Collector
import Mathlib.Algebra.Order.Floor.Div
import Mathlib.Algebra.Order.Group.Abs
import Mathlib.Algebra.Order.Ring.Int
import Mathlib.GroupTheory.GroupAction.Ring

/-!
# How far the server's clock is ahead

The server's answer to a time sync tells when it left, on the server's clock, and when the question
left, on the client's. The client takes it that the answer left halfway between the question and its
own receipt. It need not have: the offset is wrong by as much as the two ways differ from halves of
the round trip, so by half of it at most, rounded up.
-/

namespace HeadsetStream.Latency
open Wire

/-- The numbers that 64 bits with a sign hold. -/
def int64s : Set Int := {i | -0x8000000000000000 ≤ i ∧ i ≤ 0x7FFFFFFFFFFFFFFF}

section

variable {i other : Int}

theorem mem_int64s : i ∈ int64s ↔ -0x8000000000000000 ≤ i ∧ i ≤ 0x7FFFFFFFFFFFFFFF := Iff.rfl

private theorem clampInt64_mem (i : Int) : clampInt64 i ∈ int64s := by
  rw [mem_int64s, clampInt64]
  omega

private theorem clampInt64_of_mem (h : i ∈ int64s) : clampInt64 i = i := by
  rw [mem_int64s] at h
  rw [clampInt64]
  omega

/-- No number of the range is nearer to one than what that is clamped to. -/
private theorem clampInt64_nearest (h : other ∈ int64s) : |clampInt64 i - i| ≤ |other - i| := by
  rw [mem_int64s] at h
  rw [clampInt64]
  rcases abs_cases (other - i) with ⟨heq, _⟩ | ⟨heq, _⟩ <;> rw [heq, abs_le] <;> omega

/-- Clamping brings a number no further away from those of the range. -/
private theorem clampInt64_near (h : other ∈ int64s) : |clampInt64 i - other| ≤ |i - other| := by
  rw [mem_int64s] at h
  rw [clampInt64]
  rcases abs_cases (i - other) with ⟨heq, _⟩ | ⟨heq, _⟩ <;> rw [heq, abs_le] <;> omega

end

/-- No time of a round trip is further from its middle than half of it. -/
private theorem midpoint_near {client sent now : Nat} (hsent : client ≤ sent) (hnow : sent ≤ now) :
    |(sent : Int) - (client + ((now - client) / 2 : Nat))| ≤ ((now - client) ⌈/⌉ 2 : Nat) := by
  rw [Nat.ceilDiv_eq_add_pred_div, abs_le]
  omega

theorem timeSync_result {α : Type} (collector : Collector α) (now : Nat) {sync : TimeSync}
    (hresult : sync.mode = TimeSync.result) :
    let roundTrip := now - sync.clientTime.toNat
    collector.timeSync now sync = (none, { collector with
      stats := { collector.stats with
        roundTrip := some roundTrip
        clockOffset :=
          some (clockOffset sync.serverTime.toNat sync.clientTime.toNat roundTrip) } }) := by
  have hping : sync.mode ≠ TimeSync.ping := by
    rw [hresult]
    decide
  rw [Collector.timeSync, if_neg hping, if_pos hresult]

/-- The figures hold the round trip, which is nothing if the clock went back, and of the numbers
that 64 bits hold the one nearest to the exact offset by the middle of the round trip. If the answer
left at some time of the round trip, when the server's clock was ahead by some amount, they are
wrong about that amount by half of the round trip at most, rounded up. -/
theorem clock_offset_bounded {α : Type} (collector : Collector α) (now : Nat) (sync : TimeSync)
    (hresult : sync.mode = TimeSync.result) :
    let server : Int := sync.serverTime.toNat
    let client : Int := sync.clientTime.toNat
    let roundTrip : Nat := now - sync.clientTime.toNat
    let exact : Int := server - (client + (roundTrip / 2 : Nat))
    (roundTrip : Int) = max 0 (now - client) ∧
      ∃ offset ∈ int64s,
        collector.timeSync now sync = (none, { collector with
          stats := { collector.stats with
            roundTrip := some roundTrip
            clockOffset := some offset } }) ∧
        (∀ other ∈ int64s, |offset - exact| ≤ |other - exact|) ∧
        ∀ (sent : Nat) (ahead : Int), client ≤ sent → sent ≤ now → server = sent + ahead →
          exact ∈ int64s ∨ ahead ∈ int64s → |offset - ahead| ≤ (roundTrip ⌈/⌉ 2 : Nat) := by
  intro server client roundTrip exact
  refine ⟨by omega, clampInt64 exact, clampInt64_mem exact,
    timeSync_result collector now hresult, fun other => clampInt64_nearest, ?_⟩
  intro sent ahead hsent hnow hserver hrange
  have hahead : exact - ahead = sent - (client + (roundTrip / 2 : Nat)) := by omega
  calc |clampInt64 exact - ahead| ≤ |exact - ahead| := by
        rcases hrange with hexact | hahead
        · rw [clampInt64_of_mem hexact]
        · exact clampInt64_near hahead
    _ = |(sent : Int) - (client + (roundTrip / 2 : Nat))| := by rw [hahead]
    _ ≤ (roundTrip ⌈/⌉ 2 : Nat) := midpoint_near (Int.ofNat_le.mp hsent) hnow

/-- The bound is attained if an odd round trip is all the question's. -/
theorem late_answer_offset :
    let sync : TimeSync := ⟨TimeSync.result, 0, 5003, 1000⟩
    let later := ((Collector.empty : Collector Nat).timeSync 1003 sync).2
    sync.mode = TimeSync.result ∧
      ∃ offset, later.stats.clockOffset = some offset ∧ |offset - 4000| ≤ (3 ⌈/⌉ 2 : Nat) ∧
        offset - 4000 = (3 ⌈/⌉ 2 : Nat) := by
  intro sync later
  obtain ⟨-, offset, -, hsync, -, hbound⟩ :=
    clock_offset_bounded (Collector.empty : Collector Nat) 1003 sync rfl
  have hlater : later.stats.clockOffset = some offset :=
    congrArg (fun answer => answer.2.stats.clockOffset) hsync
  have hvalue : later.stats.clockOffset = some 4002 := by decide
  obtain rfl := Option.some.inj (hlater.symm.trans hvalue)
  exact ⟨rfl, 4002, hvalue, hbound 1003 4000 (by decide) (by decide) (by decide)
    (.inr ⟨by decide, by decide⟩), by decide⟩

end HeadsetStream.Latency
