import HeadsetStream.Proofs.FoveationRange
import HeadsetStream.Proofs.FramePeriod
import HeadsetStream.Proofs.PlaybackRun

/-!
# Which accepted settings play to an end

Settings are accepted at any display rate above zero. At most of them a playback is over after as
many frames as begin before its end. But at very low rates there is no time between frames that
could be counted, and at very high ones, of which infinity is one, it is nothing, so that the end is
never reached.
-/

namespace HeadsetStream.Command
open Number Settings Tracking

/-- There is a time between frames, and each playback is over after as many frames as begin before
its end. -/
def EndsOnTime (settings : ClientSettings) : Prop :=
  ∃ period, framePeriod settings.refreshRate = some period ∧ 0 < period ∧
    ∀ args : Arguments,
      let deadline := args.duration * nanosPerSecond
      let frames := deadline ⌈/⌉ period
      (∀ n, (Playback.afterFrames settings args.dropInterval period n).now < deadline ↔
        n < frames) ∧
      Program.play args settings =
        some (Playback.afterFrames settings args.dropInterval period frames)

theorem endsOnTime_iff {settings : ClientSettings} : EndsOnTime settings ↔
    ∃ period, framePeriod settings.refreshRate = some period ∧ 0 < period := by
  constructor
  · rintro ⟨period, hrate, hperiod, -⟩
    exact ⟨period, hrate, hperiod⟩
  · rintro ⟨period, hrate, hperiod⟩
    refine ⟨period, hrate, hperiod, fun args => ⟨fun n => ?_, Playback.play_eq args hrate hperiod⟩⟩
    rw [Playback.afterFrames_now, Playback.lt_ceilDiv_iff hperiod]

theorem refreshRate_pos {settings : ClientSettings} (hcheck : settings.check = .ok ()) :
    0 < settings.refreshRate := by
  unfold ClientSettings.check at hcheck
  split at hcheck
  · exact nomatch hcheck
  · cases hrender : settings.stream.render.check with
    | error error =>
      rw [hrender] at hcheck
      exact nomatch hcheck
    | ok =>
      obtain ⟨-, -, hrate, -⟩ := RenderSettings.check_eq_ok hrender
      exact hrate

/-- Time stands still if it is nothing between two frames. -/
private theorem afterFrames_now_zero (settings : ClientSettings) (dropInterval frames : Nat) :
    (Playback.afterFrames settings dropInterval 0 frames).now = 0 := by
  rw [Playback.afterFrames_now, Nat.mul_zero]

/-- Of the accepted display rates those above `2 ^ -64` and below two thousand million frames a
second are the ones that playbacks come to an end at. -/
theorem playbacks_end_iff {settings : ClientSettings} (hcheck : settings.check = .ok ()) :
    let rate := settings.refreshRate
    (EndsOnTime settings ↔
      rate.isFinite = true ∧ 2 ^ (-64 : ℤ) < Single.value rate ∧ Single.value rate < 2000000000) ∧
    (rate.isFinite = true → Single.value rate ≤ 2 ^ (-64 : ℤ) →
      ∀ args, Program.play args settings = none) ∧
    (rate.isFinite = false ∨ 2000000000 ≤ Single.value rate →
      framePeriod rate = some 0 ∧
        ∀ dropInterval frames, (Playback.afterFrames settings dropInterval 0 frames).now = 0) := by
  intro rate
  have hpos : 0 < rate := refreshRate_pos hcheck
  have hslow (hfinite : rate.isFinite = true) (h : Single.value rate ≤ 2 ^ (-64 : ℤ)) :
      framePeriod rate = none := framePeriod_slow (Single.value_pos hpos hfinite) h
  have hfast (h : rate.isFinite = false ∨ 2000000000 ≤ Single.value rate) :
      framePeriod rate = some 0 :=
    h.elim (fun hinfinite => framePeriod_of_infinity (Single.unpack_of_pos hpos hinfinite))
      framePeriod_fast
  refine ⟨endsOnTime_iff.trans ⟨?_, fun h => framePeriod_positive h.2.1 h.2.2⟩,
    fun hfinite h args => ?_, fun h => ⟨hfast h, afterFrames_now_zero settings⟩⟩
  · rintro ⟨period, hrate, hperiod⟩
    have hnotFast : ¬ (rate.isFinite = false ∨ 2000000000 ≤ Single.value rate) := by
      intro h
      obtain rfl := Option.some.inj (hrate.symm.trans (hfast h))
      exact hperiod.false
    rw [not_or, Bool.not_eq_false, not_le] at hnotFast
    refine ⟨hnotFast.1, ?_, hnotFast.2⟩
    by_contra h
    exact nomatch hrate.symm.trans (hslow hnotFast.1 (not_lt.mp h))
  · rw [Program.play, Playback.run, hslow hfinite h, Option.map_none]

theorem ninetyHertz_ends :
    let settings : ClientSettings := {}
    settings.check = .ok () ∧ EndsOnTime settings := by
  intro settings
  have hcheck : settings.check = .ok () := by decide +kernel
  refine ⟨hcheck, (playbacks_end_iff hcheck).1.mpr ?_⟩
  have hexact : Exact.of settings.refreshRate = .finite false 11796480 (-17) := by decide +kernel
  rw [Single.value_of_exact hexact]
  exact ⟨by decide +kernel, by norm_num, by norm_num⟩

/-- Such settings can be read from a file. -/
theorem fourGigahertz_never_ends :
    let settings : ClientSettings := { refreshRate := 4000000000 }
    let file := "\x7b\"refresh_rate\":4000000000\x7d".toUTF8
    ClientSettings.ofFile (some file) = .ok settings ∧ settings.check = .ok () ∧
      ¬ EndsOnTime settings := by
  intro settings file
  have hcheck : settings.check = .ok () := by decide +kernel
  have hread : ClientSettings.ofFile (some file) = .ok settings := by decide +kernel
  refine ⟨hread, hcheck, ?_⟩
  rw [endsOnTime_iff]
  rintro ⟨period, hrate, hperiod⟩
  have hzero : framePeriod settings.refreshRate = some 0 := by decide +kernel
  obtain rfl := Option.some.inj (hrate.symm.trans hzero)
  exact hperiod.false

end HeadsetStream.Command
