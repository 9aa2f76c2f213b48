import HeadsetStream.Proofs.TrackingHistory

/-!
# What a sampler reads

Whether a sampler runs, is connected and looks ahead can be told from what was done with it, and so
can the samples that it reads: one at each wake at which it runs and is connected, if the headset
has one then. Each of them is in the history once, with what was sent for it, and nothing else is
sent.
-/

namespace HeadsetStream.Tracking
open HeadsetStream.Geometry Signal

namespace SamplerAction

/-- What an action makes of whether the sampler runs. -/
def runningSetting : SamplerAction → Option Bool
  | start _ => some true
  | stop => some false
  | connect _ | predict _ | setRate _ | wake .. => none

/-- What an action makes of whether there is a connection. -/
def connectedSetting : SamplerAction → Option Bool
  | connect connected => some connected
  | start _ | stop => some false
  | predict _ | setRate _ | wake .. => none

/-- What an action makes of whether samples look ahead. -/
def predictionSetting : SamplerAction → Option Bool
  | predict prediction => some prediction
  | connect _ | setRate _ | start _ | stop | wake .. => none

/-- The sample that is read if the action is a wake, with its time. -/
def reading (before : List SamplerAction) : SamplerAction → Option (Nat × TrackingInfo)
  | wake now sensors =>
    if lastSet runningSetting false before && lastSet connectedSetting false before then
      (sensors.tracking (lastSet predictionSetting false before)).map (now, ·)
    else none
  | connect _ | predict _ | setRate _ | start _ | stop => none

end SamplerAction

/-- The samples that are read in the course of further actions. -/
def readings (before : List SamplerAction) : List SamplerAction → List (Nat × TrackingInfo)
  | [] => []
  | action :: rest => (action.reading before).toList ++ readings (before ++ [action]) rest

/-- The samples in a history. -/
def samplesIn (history : List SamplerEvent) : List Sample :=
  history.filterMap fun
    | .sampled sample => some sample
    | _ => none

@[simp] theorem samplesIn_append (first rest : List SamplerEvent) :
    samplesIn (first ++ rest) = samplesIn first ++ samplesIn rest :=
  List.filterMap_append ..

namespace Sampler

/-- What is sent to the server for an action. -/
def sentFor (sampler : Sampler) : SamplerAction → List TrackingInfo
  | .wake now sensors => sentIn (sampler.tick now sensors).notices
  | .connect _ | .predict _ | .setRate _ | .start _ | .stop => []

/-- What is sent to the server in a run. -/
def sentOver (sampler : Sampler) : List SamplerAction → List TrackingInfo
  | [] => []
  | action :: rest => sampler.sentFor action ++ sentOver (sampler.perform action) rest

/-- A sampler as these actions left it. -/
structure SetBy (before : List SamplerAction) (sampler : Sampler) : Prop where
  running : sampler.wake.isSome = lastSet SamplerAction.runningSetting false before
  connected : sampler.connected = lastSet SamplerAction.connectedSetting false before
  prediction : sampler.prediction = lastSet SamplerAction.predictionSetting false before

namespace SetBy

variable {before : List SamplerAction} {sampler : Sampler}

theorem new (params : PoseFilterParams) : SetBy [] (Sampler.new params) := ⟨rfl, rfl, rfl⟩

theorem perform (h : SetBy before sampler) (action : SamplerAction) :
    SetBy (before ++ [action]) (sampler.perform action) := by
  obtain ⟨hrunning, hconnected, hprediction⟩ := h
  cases action with
  | wake now sensors =>
    obtain ⟨-, hcourse, hahead, hrun⟩ := (sampler.tick_samples now sensors).course
    constructor
    · rw [lastSet_append_singleton]
      exact hrun.trans hrunning
    · rw [lastSet_append_singleton]
      exact hcourse.trans hconnected
    · rw [lastSet_append_singleton]
      exact hahead.trans hprediction
  | _ => constructor <;> rw [lastSet_append_singleton] <;> first | assumption | rfl

theorem reading_wake (h : SetBy before sampler) (now : Nat) (sensors : Sensors) :
    (SamplerAction.wake now sensors).reading before =
      (sampler.reads sensors).map (now, ·) := by
  rw [SamplerAction.reading, reads, h.running, h.connected, h.prediction]
  split <;> rfl

/-- An action adds the sample that is read to the history, and what is sent for it. -/
theorem samplesIn_seen (h : SetBy before sampler) (action : SamplerAction) :
    (samplesIn (sampler.seen action)).map (fun sample => (sample.now, sample.read)) =
        (action.reading before).toList ∧
      (samplesIn (sampler.seen action)).map (·.sent) = sampler.sentFor action := by
  cases action with
  | wake now sensors =>
    rw [seen_wake, h.reading_wake, sentFor, (sampler.tick_samples now sensors).sent]
    cases sampler.reads sensors <;> exact ⟨rfl, rfl⟩
  | connect connected => cases connected <;> rw [seen] <;> split <;> exact ⟨rfl, rfl⟩
  | predict prediction => exact ⟨rfl, rfl⟩
  | setRate rate => exact ⟨rfl, rfl⟩
  | start now => rw [seen]; split <;> exact ⟨rfl, rfl⟩
  | stop => rw [seen]; split <;> exact ⟨rfl, rfl⟩

/-- The samples of a run are the readings, and what is sent for them is all that is sent. -/
theorem samplesIn_history (h : SetBy before sampler) (actions : List SamplerAction) :
    (samplesIn (sampler.history actions)).map (fun sample => (sample.now, sample.read)) =
        readings before actions ∧
      (samplesIn (sampler.history actions)).map (·.sent) = sampler.sentOver actions := by
  induction actions generalizing before sampler with
  | nil => exact ⟨rfl, rfl⟩
  | cons action rest ih =>
    obtain ⟨hread, hsent⟩ := h.samplesIn_seen action
    obtain ⟨hreadings, hall⟩ := ih (h.perform action)
    rw [history, samplesIn_append, List.map_append, List.map_append, hread, hsent, hreadings, hall]
    exact ⟨rfl, rfl⟩

end SetBy

end Sampler

end HeadsetStream.Tracking
