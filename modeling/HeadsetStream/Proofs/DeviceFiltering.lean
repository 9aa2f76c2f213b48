import HeadsetStream.Proofs.FirstSample
import HeadsetStream.Proofs.WakeReadings
import Mathlib.Data.List.DropRight

/-!
# Each device is filtered by itself

Head and hands share the clock of the samples and the disconnections that make their filters fresh,
and nothing else. What is sent for a device is what one pose filter makes of its poses, from the
first of the run of samples in which it was tracked without a break.
-/

namespace HeadsetStream.Number.Single
open Float.Model UnpackedFloat

theorem le_of_lt {x y : Float32} (h : x < y) : x ≤ y := by
  change decide (x.toModel.unpack.lt y.toModel.unpack = true) = true at h
  change decide (x.toModel.unpack.le y.toModel.unpack = true) = true
  rw [decide_eq_true_eq, UnpackedFloat.lt, beq_iff_eq] at h
  rw [decide_eq_true_eq, UnpackedFloat.le, h]
  rfl

end HeadsetStream.Number.Single

namespace HeadsetStream.Signal.PoseFilter
open HeadsetStream.Geometry

/-- The filter after these poses, each with the interval before it. -/
def after (params : PoseFilterParams) (filter : PoseFilter) (poses : List (Float32 × Pose)) :
    PoseFilter :=
  poses.foldl (fun filter timed => (filter.step params timed.1 timed.2).2) filter

/-- What a filter makes of these poses, each with the interval before it. -/
def outputs (params : PoseFilterParams) (filter : PoseFilter) : List (Float32 × Pose) → List Pose
  | [] => []
  | (dt, pose) :: rest =>
    (filter.step params dt pose).1 :: outputs params (filter.step params dt pose).2 rest

theorem after_append_singleton (params : PoseFilterParams) (filter : PoseFilter)
    (poses : List (Float32 × Pose)) (dt : Float32) (pose : Pose) :
    after params filter (poses ++ [(dt, pose)]) =
      ((after params filter poses).step params dt pose).2 :=
  List.foldl_append

private theorem outputs_append_singleton (params : PoseFilterParams) (filter : PoseFilter)
    (poses : List (Float32 × Pose)) (dt : Float32) (pose : Pose) :
    outputs params filter (poses ++ [(dt, pose)]) =
      outputs params filter poses ++ [((after params filter poses).step params dt pose).1] := by
  induction poses generalizing filter with
  | nil => rfl
  | cons timed rest ih => exact congrArg _ (ih _)

end HeadsetStream.Signal.PoseFilter

namespace HeadsetStream.Tracking
open HeadsetStream.Geometry Signal Number

inductive Device where
  | head
  | leftHand
  | rightHand
  deriving DecidableEq, Repr

/-- The pose of a device, if it is tracked. -/
def poseOf (device : Device) (info : TrackingInfo) : Option Pose :=
  match device with
  | .head => some info.head
  | .leftHand => info.leftHand
  | .rightHand => info.rightHand

def filterOf (device : Device) (filters : DeviceFilters) : PoseFilter :=
  match device with
  | .head => filters.head
  | .leftHand => filters.leftHand
  | .rightHand => filters.rightHand

theorem step_device (device : Device) (params : PoseFilterParams) (filters : DeviceFilters)
    (now : Nat) (info : TrackingInfo) :
    poseOf device (filters.step params now info).1 =
        (filterHand params (sampleInterval filters.lastSample now) (filterOf device filters)
          (poseOf device info)).1 ∧
      filterOf device (filters.step params now info).2 =
        (filterHand params (sampleInterval filters.lastSample now) (filterOf device filters)
          (poseOf device info)).2 := by
  cases device <;> exact ⟨rfl, rfl⟩

/-- So many nanoseconds in seconds: the whole ones, and the rest as a fraction of one. -/
def seconds (ns : Nat) : Float32 :=
  Float32.ofNat (ns / 1000000000) + Float32.ofNat (ns % 1000000000) / 1e9

/-- The seconds since the last sample, but at least a ten thousandth, which is also what the first
sample is given. -/
def interval (last : Option Nat) (now : Nat) : Float32 :=
  match last with
  | none => 1e-4
  | some last => if 1e-4 < seconds (now - last) then seconds (now - last) else 1e-4

theorem sampleInterval_eq (last : Option Nat) (now : Nat) :
    sampleInterval last now = interval last now := by
  cases last <;> rfl

/-- Samples, each with the interval before it. -/
def timed (samples : List Sample) : List (Float32 × Sample) :=
  go none samples
where
  go (last : Option Nat) : List Sample → List (Float32 × Sample)
    | [] => []
    | sample :: rest => (interval last sample.now, sample) :: go (some sample.now) rest

/-- The samples at the end in which a device was tracked without a break. -/
def runOf (device : Device) (samples : List Sample) : List (Float32 × Sample) :=
  (timed samples).rtakeWhile fun (_, sample) => (poseOf device sample.read).isSome

/-- The poses of a device in its run as they were read, each with its interval. -/
def posesRead (device : Device) (samples : List Sample) : List (Float32 × Pose) :=
  (runOf device samples).filterMap fun (dt, sample) => (poseOf device sample.read).map (dt, ·)

/-- The poses of a device in its run as they were sent. -/
def posesSent (device : Device) (samples : List Sample) : List Pose :=
  (runOf device samples).filterMap fun (_, sample) => poseOf device sample.sent

private theorem lastSample_after (params : PoseFilterParams) (samples : List Sample) :
    (DeviceFilters.after params samples).lastSample =
      samples.foldl (fun _ sample => some sample.now) none := by
  induction samples using List.reverseRecOn with
  | nil => rfl
  | append_singleton samples sample ih =>
    rw [DeviceFilters.after_append_singleton, List.foldl_append]
    rfl

/-- A sample is filtered with the interval before it. -/
theorem timed_append_singleton (params : PoseFilterParams) (samples : List Sample)
    (sample : Sample) :
    timed (samples ++ [sample]) = timed samples ++
      [(sampleInterval (DeviceFilters.after params samples).lastSample sample.now, sample)] := by
  rw [lastSample_after, sampleInterval_eq]
  have hgo (last : Option Nat) : timed.go last (samples ++ [sample]) = timed.go last samples ++
      [(interval (samples.foldl (fun _ sample => some sample.now) last) sample.now, sample)] := by
    induction samples generalizing last with
    | nil => rfl
    | cons first rest ih => exact congrArg _ (ih _)
  exact hgo none

private theorem le_interval (last : Option Nat) (now : Nat) : 1e-4 ≤ interval last now := by
  have hself : (1e-4 : Float32) ≤ 1e-4 := by decide
  cases last with
  | none => exact hself
  | some last =>
    rw [interval]
    split
    · exact Single.le_of_lt ‹_›
    · exact hself

section

variable (device : Device) (params : PoseFilterParams) {samples : List Sample} {sample : Sample}

theorem runOf_append_singleton : runOf device (samples ++ [sample]) =
    if (poseOf device sample.read).isSome then runOf device samples ++
      [(sampleInterval (DeviceFilters.after params samples).lastSample sample.now, sample)]
    else [] := by
  rw [runOf, timed_append_singleton params, List.rtakeWhile_concat]
  rfl

theorem posesRead_tracked {pose : Pose} (h : poseOf device sample.read = some pose) :
    posesRead device (samples ++ [sample]) = posesRead device samples ++
      [(sampleInterval (DeviceFilters.after params samples).lastSample sample.now, pose)] := by
  simp [posesRead, runOf_append_singleton device params, h]

theorem posesRead_untracked (h : poseOf device sample.read = none) :
    posesRead device (samples ++ [sample]) = [] := by
  simp [posesRead, runOf_append_singleton device {}, h]

private theorem posesSent_tracked (h : (poseOf device sample.read).isSome) :
    posesSent device (samples ++ [sample]) =
      posesSent device samples ++ (poseOf device sample.sent).toList := by
  rw [posesSent, runOf_append_singleton device {}, if_pos h]
  cases hsent : poseOf device sample.sent <;> simp [posesSent, hsent]

private theorem posesSent_untracked (h : poseOf device sample.read = none) :
    posesSent device (samples ++ [sample]) = [] := by
  simp [posesSent, runOf_append_singleton device {}, h]

/-- The filter of a device depends on its own poses only. -/
private theorem filterOf_after (samples : List Sample) :
    filterOf device (DeviceFilters.after params samples) =
      PoseFilter.after params .empty (posesRead device samples) := by
  induction samples using List.reverseRecOn with
  | nil => cases device <;> rfl
  | append_singleton samples sample ih =>
    rw [DeviceFilters.after_append_singleton, (step_device ..).2, ih]
    cases hpose : poseOf device sample.read with
    | none =>
      rw [posesRead_untracked device hpose]
      rfl
    | some pose =>
      rw [posesRead_tracked device params hpose, PoseFilter.after_append_singleton]
      rfl

/-- The pose of a device that is sent after some samples. -/
theorem poseOf_sent (hsent : sample.sent =
      ((DeviceFilters.after params samples).step params sample.now sample.read).1) :
    poseOf device sample.sent = (filterHand params
      (sampleInterval (DeviceFilters.after params samples).lastSample sample.now)
      (PoseFilter.after params .empty (posesRead device samples))
      (poseOf device sample.read)).1 := by
  rw [hsent, (step_device ..).1, filterOf_after]

end

section

variable {params : PoseFilterParams} {samples : List Sample}

theorem Filtered.of_append {later : List Sample} (h : Filtered params (samples ++ later)) :
    Filtered params samples := by
  induction later using List.reverseRecOn with
  | nil => rwa [List.append_nil] at h
  | append_singleton later sample ih =>
    rw [← List.append_assoc] at h
    generalize hall : samples ++ later ++ [sample] = all at h
    cases h with
    | nil => simp at hall
    | snoc h _ => exact ih ((List.append_inj' hall rfl).1 ▸ h)

theorem Filtered.sent_eq {sample : Sample} (h : Filtered params (samples ++ [sample])) :
    sample.sent = ((DeviceFilters.after params samples).step params sample.now sample.read).1 := by
  generalize hall : samples ++ [sample] = all at h
  cases h with
  | nil => simp at hall
  | snoc _ hsent =>
    obtain ⟨rfl, hsame⟩ := List.append_inj' hall rfl
    rw [List.singleton_inj.mp hsame]
    exact hsent

/-- What is sent for a device in its run is what a fresh filter makes of what was read. -/
private theorem Filtered.posesSent_eq (h : Filtered params samples) (device : Device) :
    posesSent device samples = PoseFilter.outputs params .empty (posesRead device samples) := by
  induction h with
  | nil => rfl
  | snoc _ hsent ih =>
    next samples sample _ =>
    have hpose := poseOf_sent device params hsent
    cases hread : poseOf device sample.read with
    | none =>
      rw [posesSent_untracked device hread, posesRead_untracked device hread]
      rfl
    | some pose =>
      rw [hread] at hpose
      rw [posesSent_tracked device (by rw [hread]; rfl), hpose,
        posesRead_tracked device params hread, PoseFilter.outputs_append_singleton, ih]
      rfl

end

/-- A device is filtered by itself in these samples. -/
structure FilteredAlone (params : PoseFilterParams) (device : Device) (samples : List Sample) :
    Prop where
  interval : ∀ dt ∈ (timed samples).map Prod.fst, 1e-4 ≤ dt
  /-- The head is always tracked. -/
  whole : device = .head → runOf device samples = timed samples
  sent : posesSent device samples = PoseFilter.outputs params .empty (posesRead device samples)
  tracked : ∀ sample ∈ samples,
    (poseOf device sample.sent).isSome = (poseOf device sample.read).isSome
  /-- A device that was not tracked before is sent as it was read. -/
  first : ∀ earlier sample later, samples = earlier ++ sample :: later →
    (earlier.getLast?.bind fun before => poseOf device before.read) = none →
      poseOf device sample.sent = poseOf device sample.read

private theorem le_of_mem_timed (samples : List Sample) :
    ∀ dt ∈ (timed samples).map Prod.fst, 1e-4 ≤ dt := by
  induction samples using List.reverseRecOn with
  | nil => exact List.forall_mem_nil _
  | append_singleton samples sample ih =>
    rw [timed_append_singleton {}, sampleInterval_eq, List.map_append]
    exact List.forall_mem_append.mpr ⟨ih, List.forall_mem_singleton.mpr (le_interval ..)⟩

private theorem Filtered.alone {params : PoseFilterParams} {samples : List Sample}
    (h : Filtered params samples) (device : Device) : FilteredAlone params device samples where
  interval := le_of_mem_timed samples
  whole := by
    rintro rfl
    exact List.rtakeWhile_eq_self_iff.mpr fun _ _ => rfl
  sent := h.posesSent_eq device
  tracked := by
    intro sample hmem
    obtain ⟨earlier, later, rfl⟩ := List.append_of_mem hmem
    rw [List.append_cons] at h
    rw [poseOf_sent device params h.of_append.sent_eq]
    cases poseOf device sample.read <;> rfl
  first := by
    rintro earlier sample later rfl hbefore
    rw [List.append_cons] at h
    have hnone : posesRead device earlier = [] := by
      rcases List.eq_nil_or_concat' earlier with rfl | ⟨before, last, rfl⟩
      · rfl
      · rw [List.getLast?_concat] at hbefore
        exact posesRead_untracked device hbefore
    rw [poseOf_sent device params h.of_append.sent_eq, hnone]
    cases poseOf device sample.read <;> rfl

/-- Two sensors agree on a device. -/
def SameDevice (device : Device) (first second : TrackingInfo) : Prop :=
  poseOf device first = poseOf device second

/-- Filters with the same clock and the same filter for a device send the same for it. -/
private theorem relates_device (device : Device) :
    DeviceFilters.Relates (SameDevice device) (SameDevice device) fun first second =>
      filterOf device first = filterOf device second ∧ first.lastSample = second.lastSample where
  fresh := ⟨rfl, rfl⟩
  step := by
    intro params now first second read read' ⟨hfilter, hlast⟩ hread
    unfold SameDevice at hread ⊢
    simp only [step_device, hfilter, hlast, hread]
    exact ⟨trivial, trivial, rfl⟩

/-- The history of a run has each sample that is read once, with what is sent for it, and nothing
else is sent. What is sent for a device is what a fresh filter makes of its poses since the last
disconnection and the last sample without it. Two runs that agree on a device send the same for it.
-/
theorem device_filtered_alone (params : PoseFilterParams) (actions : List SamplerAction)
    (device : Device) :
    let samples := samplesIn ((Sampler.new params).history actions)
    (samples.map (fun sample => (sample.now, sample.read)) = readings [] actions ∧
      samples.map (·.sent) = (Sampler.new params).sentOver actions) ∧
      FilteredAlone params device (retained ((Sampler.new params).history actions)) ∧
      ∀ reported, List.Forall₂ (SamplerAction.Alike (SameDevice device)) actions reported →
        List.Forall₂ (SamplerEvent.Alike (SameDevice device) (SameDevice device))
          ((Sampler.new params).history actions) ((Sampler.new params).history reported) := by
  refine ⟨(Sampler.SetBy.new params).samplesIn_history actions, ?_, ?_⟩
  · exact ((Sampler.Follows.new params).run actions).filtered.alone device
  · intro reported hreported
    exact (Sampler.Abreast.run (relates_device device)
      ⟨.refl (Sampler.new params), rfl, rfl⟩ hreported).2

/-- A connection in which the head comes back from far away in ten milliseconds, with or without a
hand. -/
def headBack (hand : Option Pose) : List SamplerAction :=
  [.start 0, .connect true, .wake 0 ⟨none, fun _ => some ⟨0, farAway, hand, none⟩⟩,
    .wake 10000000 ⟨none, fun _ => some ⟨0, .identity, hand, none⟩⟩]

/-- The first pose of the head is sent as it was read. The second one is drawn towards it, so that
the head is still far away. A hand makes no difference. -/
theorem headBack_filtered :
    let history := (Sampler.new {}).history (headBack none)
    (Sampler.new {}).sentOver (headBack none) = (samplesIn history).map (·.sent) ∧
      posesRead .head (retained history) = [(1e-4, farAway), (0.01, .identity)] ∧
      (∃ sent, posesSent .head (retained history) = [farAway, sent] ∧ Astray sent.position) ∧
      List.Forall₂ (SamplerEvent.Alike (SameDevice .head) (SameDevice .head)) history
        ((Sampler.new {}).history (headBack (some .identity))) := by
  intro history
  obtain ⟨⟨-, hsent⟩, halone, halike⟩ := device_filtered_alone {} (headBack none) .head
  have hread : posesRead .head (retained history) = [(1e-4, farAway), (0.01, .identity)] := by
    decide +kernel
  refine ⟨hsent.symm, hread, ⟨_, halone.sent.trans (congrArg _ hread), ?_⟩, halike _ ?_⟩
  · exact astray_step (.inl ⟨farAway.position, rfl, astray_farAway⟩)
  · exact .cons (.start 0) <| .cons (.connect true) <|
      .cons (.wake 0 fun _ => .some rfl) <| .cons (.wake 10000000 fun _ => .some rfl) .nil

end HeadsetStream.Tracking
