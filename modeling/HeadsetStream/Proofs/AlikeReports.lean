import HeadsetStream.Proofs.TrackingHistory
import Mathlib.Data.List.Forall2

/-!
# Samplers with alike reports

Two samplers are told to do the same, and wake at the same times, but the samples that their
headsets report differ. As long as a relation between what is read goes along with one between what
the filters hold, the two histories have the same events, with samples that are related too.
-/

namespace HeadsetStream.Tracking
open HeadsetStream.Geometry

section

variable (Read Sent : TrackingInfo → TrackingInfo → Prop)

/-- Both headsets report a sample or neither does. -/
def Sensors.Alike (first second : Sensors) : Prop :=
  ∀ prediction, Option.Rel Read (first.tracking prediction) (second.tracking prediction)

inductive SamplerAction.Alike : SamplerAction → SamplerAction → Prop where
  | connect (connected : Bool) : Alike (.connect connected) (.connect connected)
  | predict (prediction : Bool) : Alike (.predict prediction) (.predict prediction)
  | setRate (rate : Float32) : Alike (.setRate rate) (.setRate rate)
  | start (now : Nat) : Alike (.start now) (.start now)
  | stop : Alike .stop .stop
  | wake (now : Nat) {first second : Sensors} (h : first.Alike Read second) :
    Alike (.wake now first) (.wake now second)

structure Sample.Alike (first second : Sample) : Prop where
  now : first.now = second.now
  read : Read first.read second.read
  sent : Sent first.sent second.sent

inductive SamplerEvent.Alike : SamplerEvent → SamplerEvent → Prop where
  | connected : Alike .connected .connected
  | disconnected : Alike .disconnected .disconnected
  | stopped : Alike .stopped .stopped
  | sampled {first second : Sample} (h : first.Alike Read Sent second) :
    Alike (.sampled first) (.sampled second)

/-- What `Held` relates stays related when related samples come, and related samples are sent. -/
structure DeviceFilters.Relates (Held : DeviceFilters → DeviceFilters → Prop) : Prop where
  fresh : Held {} {}
  step : ∀ (params : Signal.PoseFilterParams) (now : Nat) {first second : DeviceFilters}
    {read read' : TrackingInfo}, Held first second → Read read read' →
      Sent (first.step params now read).1 (second.step params now read').1 ∧
        Held (first.step params now read).2 (second.step params now read').2

end

variable {Read Sent : TrackingInfo → TrackingInfo → Prop}

private theorem alike_retain {samples samples' : List Sample} {event event' : SamplerEvent}
    (hsamples : List.Forall₂ (Sample.Alike Read Sent) samples samples')
    (hevent : event.Alike Read Sent event') :
    List.Forall₂ (Sample.Alike Read Sent) (retain samples event) (retain samples' event') := by
  cases hevent with
  | connected => exact hsamples
  | disconnected => exact .nil
  | stopped => exact hsamples
  | sampled hsample => exact List.rel_append hsamples (.cons hsample .nil)

/-- Alike histories retain alike samples. -/
theorem alike_retained {first second : List SamplerEvent}
    (h : List.Forall₂ (SamplerEvent.Alike Read Sent) first second) :
    List.Forall₂ (Sample.Alike Read Sent) (retained first) (retained second) :=
  List.rel_foldl (R := SamplerEvent.Alike Read Sent)
    (fun _ _ hsamples _ _ hevent => alike_retain hsamples hevent) .nil h

namespace Sampler

/-- Two samplers on the same course, with related filters. -/
structure Abreast (Held : DeviceFilters → DeviceFilters → Prop) (first second : Sampler) : Prop
    extends first.SameCourse second where
  held : Held first.filters second.filters

private theorem alike_reads {first second : Sampler} (h : first.SameCourse second)
    {sensors sensors' : Sensors} (hsensors : sensors.Alike Read sensors') :
    Option.Rel Read (first.reads sensors) (second.reads sensors') := by
  rw [h.reads_eq]
  unfold reads
  split
  · exact hsensors second.prediction
  · exact .none

namespace Abreast

variable {Held : DeviceFilters → DeviceFilters → Prop} {first second : Sampler}

theorem wake (hrelates : DeviceFilters.Relates Read Sent Held) (h : first.Abreast Held second)
    (now : Nat) {sensors sensors' : Sensors} (hsensors : sensors.Alike Read sensors') :
    (first.perform (.wake now sensors)).Abreast Held (second.perform (.wake now sensors')) ∧
      List.Forall₂ (SamplerEvent.Alike Read Sent) (first.seen (.wake now sensors))
        (second.seen (.wake now sensors')) := by
  obtain ⟨hcourse, hfilters, -⟩ := first.tick_samples now sensors
  obtain ⟨hcourse', hfilters', -⟩ := second.tick_samples now sensors'
  have hafter : (first.perform (.wake now sensors)).SameCourse
      (second.perform (.wake now sensors')) :=
    hcourse.trans (h.toSameCourse.trans hcourse'.symm)
  have hreads := alike_reads h.toSameCourse hsensors
  rw [seen_wake, seen_wake]
  generalize first.reads sensors = read at hreads hfilters ⊢
  generalize second.reads sensors' = read' at hreads hfilters' ⊢
  cases hreads with
  | none => exact ⟨⟨hafter, by rw [perform, perform, hfilters, hfilters']; exact h.held⟩, .nil⟩
  | some hread =>
    obtain ⟨hsent, hheld⟩ := hrelates.step first.params now h.held hread
    rw [← h.params] at hfilters' ⊢
    exact ⟨⟨hafter, by rw [perform, perform, hfilters, hfilters']; exact hheld⟩,
      .cons (.sampled ⟨rfl, hread, hsent⟩) .nil⟩

theorem perform (hrelates : DeviceFilters.Relates Read Sent Held) (h : first.Abreast Held second)
    {action action' : SamplerAction} (haction : action.Alike Read action') :
    (first.perform action).Abreast Held (second.perform action') ∧
      List.Forall₂ (SamplerEvent.Alike Read Sent) (first.seen action) (second.seen action') := by
  have hended : List.Forall₂ (SamplerEvent.Alike Read Sent)
      (if first.connected then [.stopped] else []) (if second.connected then [.stopped] else []) := by
    rw [h.connected]
    split
    · exact .cons .stopped .nil
    · exact .nil
  cases haction with
  | connect connected =>
    refine ⟨⟨⟨h.params, rfl, h.prediction, h.running⟩, ?_⟩, ?_⟩
    · simp only [Sampler.perform, setConnected, h.connected]
      split
      · exact hrelates.fresh
      · exact h.held
    · cases connected with
      | true =>
        simp only [seen, h.connected]
        split
        · exact .nil
        · exact .cons .connected .nil
      | false =>
        simp only [seen, h.connected]
        split
        · exact .cons .disconnected .nil
        · exact .nil
  | predict prediction => exact ⟨⟨⟨h.params, h.connected, rfl, h.running⟩, h.held⟩, .nil⟩
  | setRate rate => exact ⟨⟨⟨h.params, h.connected, h.prediction, h.running⟩, h.held⟩, .nil⟩
  | start now => exact ⟨⟨⟨h.params, rfl, h.prediction, rfl⟩, h.held⟩, hended⟩
  | stop => exact ⟨⟨⟨h.params, rfl, h.prediction, rfl⟩, h.held⟩, hended⟩
  | wake now hsensors => exact h.wake hrelates now hsensors

theorem run (hrelates : DeviceFilters.Relates Read Sent Held) (h : first.Abreast Held second)
    {actions actions' : List SamplerAction}
    (hactions : List.Forall₂ (SamplerAction.Alike Read) actions actions') :
    (first.run actions).Abreast Held (second.run actions') ∧
      List.Forall₂ (SamplerEvent.Alike Read Sent) (first.history actions)
        (second.history actions') := by
  induction hactions generalizing first second with
  | nil => exact ⟨h, .nil⟩
  | cons haction _ ih =>
    obtain ⟨hnext, hseen⟩ := h.perform hrelates haction
    obtain ⟨hend, hrest⟩ := ih hnext
    exact ⟨hend, List.rel_append hseen hrest⟩

end Abreast

end Sampler

end HeadsetStream.Tracking
