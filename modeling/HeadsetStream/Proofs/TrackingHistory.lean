import HeadsetStream.Proofs.LastSetting
import HeadsetStream.Tracking.Sampler

/-!
# The history of a sampler

A sampler is connected and disconnected, started and stopped, and wakes now and then. Its history
lists when a connection began, how it ended, and each sample, as it was read and as it was sent. The
filters are what the samples since the last disconnection make of fresh ones; ending a connection by
a stop, or by starting afresh, leaves them alone.
-/

namespace HeadsetStream.Tracking
open HeadsetStream.Geometry Signal

/-- Something that is done with a sampler, or a time at which it wakes. -/
inductive SamplerAction where
  | connect (connected : Bool)
  | predict (prediction : Bool)
  | setRate (rate : Float32)
  | start (now : Nat)
  | stop
  | wake (now : Nat) (sensors : Sensors)

/-- A tracking sample as the headset gave it and as the server was sent it. -/
structure Sample where
  now : Nat
  read : TrackingInfo
  sent : TrackingInfo
  deriving DecidableEq, Repr

inductive SamplerEvent where
  | connected
  | disconnected
  /-- The connection ended because the sampler was stopped or started afresh. -/
  | stopped
  | sampled (sample : Sample)
  deriving DecidableEq, Repr

/-- The samples that were sent to the server. -/
def sentIn (notices : List Notice) : List TrackingInfo :=
  notices.filterMap fun
    | .tracking info => some info
    | _ => none

private theorem sentIn_append (first rest : List Notice) :
    sentIn (first ++ rest) = sentIn first ++ sentIn rest :=
  List.filterMap_append ..

/-- What an event makes of whether there is a connection. -/
def SamplerEvent.connectedSetting : SamplerEvent → Option Bool
  | connected => some true
  | disconnected | stopped => some false
  | sampled _ => none

/-- The samples to reckon with, once one more event has come: a disconnection does away with all. -/
def retain (samples : List Sample) : SamplerEvent → List Sample
  | .connected | .stopped => samples
  | .disconnected => []
  | .sampled sample => samples ++ [sample]

/-- The samples since the last disconnection. -/
def retained (history : List SamplerEvent) : List Sample := history.foldl retain []

@[simp] theorem retained_append_singleton (history : List SamplerEvent) (event : SamplerEvent) :
    retained (history ++ [event]) = retain (retained history) event :=
  List.foldl_append

/-- The filters after these samples, fresh before the first. -/
def DeviceFilters.after (params : PoseFilterParams) (samples : List Sample) : DeviceFilters :=
  samples.foldl (fun filters sample => (filters.step params sample.now sample.read).2) {}

@[simp] theorem DeviceFilters.after_append_singleton (params : PoseFilterParams)
    (samples : List Sample) (sample : Sample) :
    DeviceFilters.after params (samples ++ [sample]) =
      ((DeviceFilters.after params samples).step params sample.now sample.read).2 :=
  List.foldl_append

/-- Each of the samples was sent as filters leave it that were fresh before the first. -/
inductive Filtered (params : PoseFilterParams) : List Sample → Prop where
  | nil : Filtered params []
  | snoc {samples : List Sample} {sample : Sample} (h : Filtered params samples)
      (hsent : sample.sent =
        ((DeviceFilters.after params samples).step params sample.now sample.read).1) :
      Filtered params (samples ++ [sample])

namespace Sampler

/-- Two samplers that sample and send alike, whatever their filters hold. -/
structure SameCourse (first second : Sampler) : Prop where
  params : first.params = second.params
  connected : first.connected = second.connected
  prediction : first.prediction = second.prediction
  running : first.wake.isSome = second.wake.isSome

def perform (sampler : Sampler) : SamplerAction → Sampler
  | .connect connected => sampler.setConnected connected
  | .predict prediction => { sampler with prediction }
  | .setRate rate => sampler.setRate rate
  | .start now => sampler.start now
  | .stop => sampler.stop
  | .wake now sensors => (sampler.tick now sensors).value.2

/-- What an action adds to the history. -/
def seen (sampler : Sampler) : SamplerAction → List SamplerEvent
  | .connect true => if sampler.connected then [] else [.connected]
  | .connect false => if sampler.connected then [.disconnected] else []
  | .predict _ | .setRate _ => []
  | .start _ | .stop => if sampler.connected then [.stopped] else []
  | .wake now sensors =>
    List.zipWith (fun read sent => .sampled ⟨now, read, sent⟩)
      (sensors.tracking sampler.prediction).toList (sentIn (sampler.tick now sensors).notices)

def run (sampler : Sampler) (actions : List SamplerAction) : Sampler :=
  actions.foldl perform sampler

def history (sampler : Sampler) : List SamplerAction → List SamplerEvent
  | [] => []
  | action :: rest => sampler.seen action ++ history (sampler.perform action) rest

/-- The sample that a sampler reads when it wakes. -/
def reads (sampler : Sampler) (sensors : Sensors) : Option TrackingInfo :=
  if sampler.wake.isSome && sampler.connected then sensors.tracking sampler.prediction else none

/-- A sampler that woke sends what its filters make of the sample it reads, if it reads one. -/
structure Samples (sampler : Sampler) (now : Nat) (sensors : Sensors) (notices : List Notice)
    (later : Sampler) : Prop where
  course : later.SameCourse sampler
  filters : later.filters = ((sampler.reads sensors).map fun read =>
    (sampler.filters.step sampler.params now read).2).getD sampler.filters
  sent : sentIn notices = ((sampler.reads sensors).map fun read =>
    (sampler.filters.step sampler.params now read).1).toList

theorem SameCourse.refl (sampler : Sampler) : sampler.SameCourse sampler := ⟨rfl, rfl, rfl, rfl⟩

theorem SameCourse.trans {first second third : Sampler} (h : first.SameCourse second)
    (h' : second.SameCourse third) : first.SameCourse third where
  params := h.params.trans h'.params
  connected := h.connected.trans h'.connected
  prediction := h.prediction.trans h'.prediction
  running := h.running.trans h'.running

theorem SameCourse.symm {first second : Sampler} (h : first.SameCourse second) :
    second.SameCourse first :=
  ⟨h.params.symm, h.connected.symm, h.prediction.symm, h.running.symm⟩

theorem SameCourse.reads_eq {first second : Sampler} (h : first.SameCourse second)
    (sensors : Sensors) : first.reads sensors = second.reads sensors := by
  simp only [reads, h.connected, h.prediction, h.running]

theorem sendView_spec (sampler : Sampler) (view : Option EyeInfo) :
    (sampler.sendView view).value.SameCourse sampler ∧
      (sampler.sendView view).value.filters = sampler.filters ∧
      sentIn (sampler.sendView view).notices = [] := by
  cases view with
  | none => exact ⟨.refl _, rfl, rfl⟩
  | some view =>
    simp only [sendView]
    split
    · exact ⟨⟨rfl, rfl, rfl, rfl⟩, rfl, rfl⟩
    · exact ⟨.refl _, rfl, rfl⟩

theorem sleep_spec (sampler : Sampler) (now : Nat) :
    (sampler.sleep now).2.SameCourse sampler ∧ (sampler.sleep now).2.filters = sampler.filters := by
  cases hwake : sampler.wake with
  | none =>
    simp only [sleep, hwake]
    exact ⟨.refl _, trivial⟩
  | some due =>
    simp only [sleep, hwake]
    exact ⟨⟨rfl, rfl, rfl, by rw [hwake]; rfl⟩, trivial⟩

/-- What is left to do for a sample once the view is sent. -/
def track (sampler : Sampler) (now : Nat) (sensors : Sensors) : Outcome Sampler := do
  .say .poll
  if sampler.connected then
    .say (.sample sampler.prediction)
    match sensors.tracking sampler.prediction with
    | some info =>
      let (info, filters) := sampler.filters.step sampler.params now info
      .say (.tracking info)
      return { sampler with filters }
    | none => return sampler
  else return sampler

theorem sample_eq (sampler : Sampler) (now : Nat) (sensors : Sensors) :
    sampler.sample now sensors =
      sampler.sendView sensors.view >>= fun viewed => viewed.track now sensors := rfl

theorem track_samples {sampler : Sampler} (hrunning : sampler.wake.isSome = true) (now : Nat)
    (sensors : Sensors) :
    sampler.Samples now sensors (sampler.track now sensors).notices
      (sampler.track now sensors).value := by
  cases hconnected : sampler.connected with
  | false =>
    have hreads : sampler.reads sensors = none := by simp [reads, hconnected]
    have htrack : sampler.track now sensors = ⟨sampler, [.poll]⟩ := by
      simp only [track, hconnected]
      rfl
    rw [htrack]
    exact ⟨.refl _, by rw [hreads]; rfl, by rw [hreads]; rfl⟩
  | true =>
    have hreads : sampler.reads sensors = sensors.tracking sampler.prediction := by
      simp [reads, hconnected, hrunning]
    cases hread : sensors.tracking sampler.prediction with
    | none =>
      have htrack : sampler.track now sensors = ⟨sampler, [.poll, .sample sampler.prediction]⟩ := by
        simp only [track, hconnected, hread]
        rfl
      rw [htrack]
      exact ⟨.refl _, by rw [hreads, hread]; rfl, by rw [hreads, hread]; rfl⟩
    | some read =>
      have htrack : sampler.track now sensors =
          ⟨{ sampler with filters := (sampler.filters.step sampler.params now read).2 },
            [.poll, .sample sampler.prediction,
              .tracking (sampler.filters.step sampler.params now read).1]⟩ := by
        simp only [track, hconnected, hread]
        rfl
      rw [htrack]
      exact ⟨⟨rfl, rfl, rfl, rfl⟩, by rw [hreads, hread]; rfl, by rw [hreads, hread]; rfl⟩

theorem tick_of_stopped {sampler : Sampler} (hstopped : sampler.wake.isSome = false) (now : Nat)
    (sensors : Sensors) : sampler.tick now sensors = pure (none, sampler) := by
  simp [tick, hstopped]

theorem tick_of_running {sampler : Sampler} (hrunning : sampler.wake.isSome = true) (now : Nat)
    (sensors : Sensors) :
    let viewed := sampler.sendView sensors.view
    let tracked := viewed.value.track now sensors
    sampler.tick now sensors =
      ⟨tracked.value.sleep now, viewed.notices ++ tracked.notices⟩ := by
  intro viewed tracked
  rw [tick, if_pos hrunning, ← List.append_nil (viewed.notices ++ tracked.notices)]
  rfl

theorem tick_samples (sampler : Sampler) (now : Nat) (sensors : Sensors) :
    sampler.Samples now sensors (sampler.tick now sensors).notices
      (sampler.tick now sensors).value.2 := by
  cases hrunning : sampler.wake.isSome with
  | false =>
    have hreads : sampler.reads sensors = none := by simp [reads, hrunning]
    rw [tick_of_stopped hrunning]
    exact ⟨.refl _, by rw [hreads]; rfl, by rw [hreads]; rfl⟩
  | true =>
    obtain ⟨hviewed, hunfiltered, hsilent⟩ := sampler.sendView_spec sensors.view
    obtain ⟨hcourse, hfilters, hsent⟩ :=
      track_samples (hviewed.running.trans hrunning) now sensors
    obtain ⟨hslept, hkept⟩ :=
      ((sampler.sendView sensors.view).value.track now sensors).value.sleep_spec now
    rw [hviewed.reads_eq, hviewed.params, hunfiltered] at hfilters hsent
    rw [tick_of_running hrunning]
    refine ⟨hslept.trans (hcourse.trans hviewed), hkept.trans hfilters, ?_⟩
    rw [sentIn_append, hsilent, List.nil_append]
    exact hsent

/-- A sampler that woke saw the sample that it read, and what it sent for it. -/
theorem seen_wake (sampler : Sampler) (now : Nat) (sensors : Sensors) :
    sampler.seen (.wake now sensors) = ((sampler.reads sensors).map fun read =>
      .sampled ⟨now, read, (sampler.filters.step sampler.params now read).1⟩).toList := by
  have hsent := (sampler.tick_samples now sensors).sent
  simp only [seen, hsent]
  cases hreads : sampler.reads sensors with
  | none => simp
  | some read =>
    have hread : sensors.tracking sampler.prediction = some read := by
      unfold reads at hreads
      split at hreads
      · exact hreads
      · exact nomatch hreads
    simp [hread]

/-- The filters are what the samples since the last disconnection make of fresh ones. -/
structure Follows (params : PoseFilterParams) (history : List SamplerEvent) (sampler : Sampler) :
    Prop where
  params_eq : sampler.params = params
  connected_eq : sampler.connected = lastSet SamplerEvent.connectedSetting false history
  filters_eq : sampler.filters = .after params (retained history)
  filtered : Filtered params (retained history)

namespace Follows

variable {params : PoseFilterParams} {history : List SamplerEvent} {sampler : Sampler}

theorem new (params : PoseFilterParams) : (Sampler.new params).Follows params [] :=
  ⟨rfl, rfl, rfl, .nil⟩

theorem connect (h : sampler.Follows params history) (connected : Bool) :
    (sampler.perform (.connect connected)).Follows params
      (history ++ sampler.seen (.connect connected)) := by
  obtain ⟨hparams, hconnected, hfilters, hfiltered⟩ := h
  cases connected with
  | true =>
    cases hbefore : sampler.connected with
    | true =>
      have hseen : sampler.seen (.connect true) = [] := by simp [seen, hbefore]
      rw [hseen, List.append_nil]
      refine ⟨hparams, ?_, ?_, hfiltered⟩
      · rw [← hconnected, hbefore]
        rfl
      · simpa [perform, setConnected] using hfilters
    | false =>
      have hseen : sampler.seen (.connect true) = [.connected] := by simp [seen, hbefore]
      rw [hseen]
      refine ⟨hparams, ?_, ?_, ?_⟩
      · rw [lastSet_append_singleton]
        rfl
      · simpa [perform, setConnected, retain] using hfilters
      · simpa [retain] using hfiltered
  | false =>
    cases hbefore : sampler.connected with
    | true =>
      have hseen : sampler.seen (.connect false) = [.disconnected] := by simp [seen, hbefore]
      rw [hseen]
      refine ⟨hparams, ?_, ?_, ?_⟩
      · rw [lastSet_append_singleton]
        rfl
      · simp [perform, setConnected, retain, hbefore, DeviceFilters.after]
      · simpa [retain] using Filtered.nil
    | false =>
      have hseen : sampler.seen (.connect false) = [] := by simp [seen, hbefore]
      rw [hseen, List.append_nil]
      refine ⟨hparams, ?_, ?_, hfiltered⟩
      · rw [← hconnected, hbefore]
        rfl
      · simpa [perform, setConnected, hbefore] using hfilters

/-- Stopping ends a connection, but the filters keep what they have. -/
theorem stop (h : sampler.Follows params history) {later : Sampler}
    (hparams : later.params = sampler.params) (hfilters : later.filters = sampler.filters)
    (hconnected : later.connected = false) :
    later.Follows params (history ++ if sampler.connected then [.stopped] else []) := by
  cases hbefore : sampler.connected with
  | true =>
    rw [if_pos rfl]
    refine ⟨hparams.trans h.params_eq, ?_, ?_, ?_⟩
    · rw [hconnected, lastSet_append_singleton]
      rfl
    · simpa [retain] using hfilters.trans h.filters_eq
    · simpa [retain] using h.filtered
  | false =>
    simp only [Bool.false_eq_true, if_false, List.append_nil]
    exact ⟨hparams.trans h.params_eq, hconnected.trans (hbefore.symm.trans h.connected_eq),
      hfilters.trans h.filters_eq, h.filtered⟩

theorem wake (h : sampler.Follows params history) (now : Nat) (sensors : Sensors) :
    (sampler.perform (.wake now sensors)).Follows params
      (history ++ sampler.seen (.wake now sensors)) := by
  obtain ⟨hparams, hconnected, hfilters, hfiltered⟩ := h
  obtain ⟨hcourse, hlater, -⟩ := sampler.tick_samples now sensors
  rw [seen_wake]
  cases hreads : sampler.reads sensors with
  | none =>
    rw [hreads] at hlater
    simp only [Option.map_none, Option.toList_none, List.append_nil]
    exact ⟨hcourse.params.trans hparams, hcourse.connected.trans hconnected,
      hlater.trans hfilters, hfiltered⟩
  | some read =>
    rw [hreads] at hlater
    simp only [Option.map_some, Option.toList_some, Option.getD_some] at hlater ⊢
    refine ⟨hcourse.params.trans hparams, ?_, ?_, ?_⟩
    · rw [lastSet_append_singleton]
      exact hcourse.connected.trans hconnected
    · rw [retained_append_singleton, retain, DeviceFilters.after_append_singleton, ← hfilters,
        ← hparams]
      exact hlater
    · rw [retained_append_singleton, retain]
      exact .snoc hfiltered (by rw [← hfilters, ← hparams])

theorem perform (h : sampler.Follows params history) (action : SamplerAction) :
    (sampler.perform action).Follows params (history ++ sampler.seen action) := by
  cases action with
  | connect connected => exact h.connect connected
  | predict prediction =>
    rw [seen, List.append_nil]
    exact ⟨h.params_eq, h.connected_eq, h.filters_eq, h.filtered⟩
  | setRate rate =>
    rw [seen, List.append_nil]
    exact ⟨h.params_eq, h.connected_eq, h.filters_eq, h.filtered⟩
  | start now => exact h.stop rfl rfl rfl
  | stop => exact h.stop rfl rfl rfl
  | wake now sensors => exact h.wake now sensors

theorem run (h : sampler.Follows params history) (actions : List SamplerAction) :
    (sampler.run actions).Follows params (history ++ sampler.history actions) := by
  induction actions generalizing sampler history with
  | nil =>
    rw [Sampler.history, List.append_nil]
    exact h
  | cons action rest ih =>
    rw [Sampler.history, ← List.append_assoc]
    exact ih (h.perform action)

end Follows

end Sampler

end HeadsetStream.Tracking
