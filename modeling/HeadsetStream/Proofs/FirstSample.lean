import HeadsetStream.Proofs.AlikeReports
import HeadsetStream.Proofs.SinglePrecision

/-!
# The first sample of a connection

The first sample of a connection is sent as it was read, provided none was sent since the last
disconnection. A sampler that is stopped, or started afresh, ends its connection without
disconnecting: its filters keep what they had, and the first sample of the next connection is drawn
towards it. How far depends on the samples; from a position that is not finite it never gets away.
-/

namespace HeadsetStream.Number.Single
open Float.Model UnpackedFloat

theorem isFinite_pack {u : UnpackedFloat} (h : u.isFinite = false) :
    (Float32.Model.pack u).isFinite = false := by
  cases u with
  | notANumber => rfl
  | infinity sign => cases sign <;> rfl
  | zero sign => exact nomatch h
  | finite sign m e hm => exact nomatch h

private theorem unpacked_add {u v : UnpackedFloat} (h : u.isFinite = false ∨ v.isFinite = false) :
    (u.add .binary32 v).isFinite = false := by
  cases u with
  | notANumber => rfl
  | infinity sign =>
    cases v with
    | infinity sign' => cases sign <;> cases sign' <;> rfl
    | _ => rfl
  | _ =>
    cases v with
    | notANumber => rfl
    | infinity sign => rfl
    | _ => exact h.elim nofun nofun

private theorem unpacked_mul {u v : UnpackedFloat} (h : u.isFinite = false ∨ v.isFinite = false) :
    (u.mul .binary32 v).isFinite = false := by
  cases u with
  | notANumber => rfl
  | infinity sign => cases v <;> rfl
  | _ =>
    cases v with
    | notANumber => rfl
    | infinity sign => rfl
    | _ => exact h.elim nofun nofun

/-- A sum is not finite if one of its terms is not. -/
private theorem isFinite_add {x y : Float32} (h : x.isFinite = false ∨ y.isFinite = false) :
    (x + y).isFinite = false :=
  isFinite_pack (unpacked_add h)

/-- A product is not finite if one of its factors is not. -/
theorem isFinite_mul {x y : Float32} (h : x.isFinite = false ∨ y.isFinite = false) :
    (x * y).isFinite = false :=
  isFinite_pack (unpacked_mul h)

end HeadsetStream.Number.Single

namespace HeadsetStream.Tracking
open HeadsetStream.Geometry Signal Number

/-- A position that is not finite. -/
def Astray (position : Vec3 Float32) : Prop := position.x.isFinite = false

/-- A headset that only tracks a head. -/
def Sensors.ofHead (head : Pose) : Sensors := ⟨none, fun _ => some ⟨0, head, none, none⟩⟩

private theorem astray_blend {prev x : Vec3 Float32} (h : Astray prev ∨ Astray x) (s : Float32) :
    Astray (Blend.blend prev x s) := by
  apply Single.isFinite_add
  rcases h with hprev | hx
  · exact .inr (Single.isFinite_mul (.inl hprev))
  · exact .inl (Single.isFinite_mul (.inl hx))

/-- A pose that is filtered goes astray with what is read, or with what was sent before. -/
theorem astray_step {params : PoseFilterParams} {filter : PoseFilter} {dt : Float32} {pose : Pose}
    (h : (∃ prev, filter.position.value.last = some prev ∧ Astray prev) ∨ Astray pose.position) :
    Astray (filter.step params dt pose).1.position := by
  obtain ⟨s, hs⟩ : ∃ s, (filter.step params dt pose).1.position =
      (filter.position.value.step pose.position s).1 := ⟨_, rfl⟩
  rw [hs, LowPass.step]
  cases hlast : filter.position.value.last with
  | none =>
    rw [hlast] at h
    exact h.resolve_left fun ⟨prev, hprev, _⟩ => nomatch hprev
  | some prev =>
    rw [hlast] at h
    apply astray_blend
    apply h.imp_left
    rintro ⟨_, ⟨⟩, hastray⟩
    exact hastray

theorem last_step (params : PoseFilterParams) (filter : PoseFilter) (dt : Float32) (pose : Pose) :
    (filter.step params dt pose).2.position.value.last =
      some (filter.step params dt pose).1.position := rfl

theorem DeviceFilters.step_head (filters : DeviceFilters) (params : PoseFilterParams) (now : Nat)
    (info : TrackingInfo) :
    (filters.step params now info).1.head =
        (filters.head.step params (sampleInterval filters.lastSample now) info.head).1 ∧
      (filters.step params now info).2.head =
        (filters.head.step params (sampleInterval filters.lastSample now) info.head).2 :=
  ⟨rfl, rfl⟩

private theorem step_fresh (params : PoseFilterParams) (now : Nat) (info : TrackingInfo) :
    (DeviceFilters.step params {} now info).1 = info := by
  obtain ⟨time, head, left, right⟩ := info
  cases left <;> cases right <;> rfl

namespace Sampler

variable {params : PoseFilterParams} {history : List SamplerEvent} {sampler : Sampler}

theorem sentIn_tick (hrunning : sampler.wake.isSome = true) (hconnected : sampler.connected = true)
    (now : Nat) (sensors : Sensors) :
    sentIn (sampler.tick now sensors).notices = ((sensors.tracking sampler.prediction).map fun read =>
      (sampler.filters.step sampler.params now read).1).toList := by
  have hreads : sampler.reads sensors = sensors.tracking sampler.prediction := by
    simp [reads, hrunning, hconnected]
  rw [(sampler.tick_samples now sensors).sent, hreads]

namespace Follows

private theorem connected_of_getLast (h : sampler.Follows params history)
    (hlast : history.getLast? = some .connected) : sampler.connected = true := by
  obtain ⟨before, rfl⟩ := List.getLast?_eq_some_iff.mp hlast
  rw [h.connected_eq, lastSet_append_singleton]
  rfl

/-- The sample after a disconnection is sent as it was read. -/
private theorem sent_unfiltered (h : sampler.Follows params history) (hnone : retained history = [])
    (hrunning : sampler.wake.isSome = true) (hconnected : sampler.connected = true) (now : Nat)
    (sensors : Sensors) :
    sentIn (sampler.tick now sensors).notices = (sensors.tracking sampler.prediction).toList := by
  have hfilters := h.filters_eq
  rw [hnone] at hfilters
  rw [sentIn_tick hrunning hconnected, hfilters]
  cases sensors.tracking sampler.prediction with
  | none => rfl
  | some read => exact congrArg (fun info => [info]) (step_fresh sampler.params now read)

/-- A head that went astray with the last sample is still astray in the next one. -/
theorem sent_astray (h : sampler.Follows params history) {sample : Sample}
    (hlast : (retained history).getLast? = some sample)
    (hastray : Astray sample.read.head.position) (hrunning : sampler.wake.isSome = true)
    (hconnected : sampler.connected = true) (now : Nat) (head : Pose) :
    ∃ sent, sentIn (sampler.tick now (.ofHead head)).notices = [sent] ∧
      Astray sent.head.position := by
  obtain ⟨earlier, hsamples⟩ := List.getLast?_eq_some_iff.mp hlast
  have hfilters := h.filters_eq
  rw [hsamples, DeviceFilters.after_append_singleton] at hfilters
  obtain ⟨-, hheld⟩ := (DeviceFilters.after params earlier).step_head params sample.now sample.read
  rw [← hfilters] at hheld
  refine ⟨_, sentIn_tick hrunning hconnected now _, ?_⟩
  rw [(sampler.filters.step_head ..).1, hheld]
  exact astray_step (.inl ⟨_, last_step .., astray_step (.inr hastray)⟩)

end Follows

end Sampler

/-- The same, but that the head is always reported at one place. -/
def SamplerAction.withHead (head : Pose) : SamplerAction → SamplerAction
  | .wake now sensors =>
    .wake now { sensors with
      tracking := fun prediction => (sensors.tracking prediction).map ({ · with head }) }
  | action => action

theorem alike_withHead (Read : TrackingInfo → TrackingInfo → Prop) (head : Pose)
    (hread : ∀ info : TrackingInfo, Read info { info with head }) (actions : List SamplerAction) :
    List.Forall₂ (SamplerAction.Alike Read) actions (actions.map (.withHead head)) := by
  rw [List.forall₂_map_right_iff, List.forall₂_same]
  intro action _
  cases action with
  | connect connected => exact .connect connected
  | predict prediction => exact .predict prediction
  | setRate rate => exact .setRate rate
  | start now => exact .start now
  | stop => exact .stop
  | wake now sensors =>
    refine .wake now fun prediction => ?_
    show Option.Rel Read _ ((sensors.tracking prediction).map _)
    cases sensors.tracking prediction with
    | none => exact .none
    | some info => exact .some (hread info)

/-- Reports of any samples, at the same times. -/
abbrev SameTimes : List SamplerAction → List SamplerAction → Prop :=
  List.Forall₂ (SamplerAction.Alike fun _ _ => True)

private theorem getLast_of_alike {Read Sent : TrackingInfo → TrackingInfo → Prop}
    {samples samples' : List Sample} (h : List.Forall₂ (Sample.Alike Read Sent) samples samples')
    (hsome : samples ≠ []) :
    ∃ sample sample', samples'.getLast? = some sample' ∧
      Sample.Alike Read Sent sample sample' := by
  rcases List.eq_nil_or_concat' samples' with rfl | ⟨earlier, sample', rfl⟩
  · exact absurd (List.forall₂_nil_right_iff.mp h) hsome
  · rw [← List.forall₂_reverse_iff, List.reverse_append, List.reverse_singleton, List.singleton_append,
      List.forall₂_cons_right_iff] at h
    obtain ⟨sample, _, hsample, -⟩ := h
    exact ⟨sample, sample', List.getLast?_concat, hsample⟩

/-- A head at an infinite distance. -/
def farAway : Pose := ⟨⟨Float32.ofBits 0x7f800000, 0, 0⟩, .identity⟩

theorem astray_farAway : Astray farAway.position := rfl

theorem not_astray_identity : ¬ Astray Pose.identity.position := nofun

/-- Any filters whatever are related, so any reports at the same times give alike histories. -/
private theorem relates_any (Read : TrackingInfo → TrackingInfo → Prop) :
    DeviceFilters.Relates Read (fun _ _ => True) fun _ _ => True :=
  ⟨trivial, fun _ _ _ _ _ _ _ _ => ⟨trivial, trivial⟩⟩

/-- The first sample of a connection is sent as it was read, whatever was reported before, exactly
if none was sent since the last disconnection. -/
theorem first_sample_unfiltered_iff {params : PoseFilterParams} {actions : List SamplerAction}
    (hfresh : ((Sampler.new params).history actions).getLast? = some .connected)
    (hrunning : ((Sampler.new params).run actions).wake.isSome = true) :
    (∀ reported, SameTimes actions reported → ∀ now sensors,
      sentIn (((Sampler.new params).run reported).tick now sensors).notices =
        (sensors.tracking ((Sampler.new params).run reported).prediction).toList) ↔
      retained ((Sampler.new params).history actions) = [] := by
  have hconnected := ((Sampler.Follows.new params).run actions).connected_of_getLast hfresh
  have habreast {Read : TrackingInfo → TrackingInfo → Prop} {reported : List SamplerAction}
      (hreported : List.Forall₂ (SamplerAction.Alike Read) actions reported) :=
    Sampler.Abreast.run (relates_any Read) ⟨.refl (Sampler.new params), trivial⟩ hreported
  constructor
  · intro hunfiltered
    by_contra hsome
    have hfar := alike_withHead (fun _ read => read.head = farAway) farAway (fun _ => rfl) actions
    have hany : SameTimes actions _ := alike_withHead _ farAway (fun _ => trivial) actions
    obtain ⟨hend, hhistory⟩ := habreast hfar
    obtain ⟨_, sample, hlast, -, hread, -⟩ := getLast_of_alike (alike_retained hhistory) hsome
    obtain ⟨sent, hsent, hastray⟩ := ((Sampler.Follows.new params).run _).sent_astray hlast
      (hread ▸ astray_farAway) (hend.running ▸ hrunning) (hend.connected ▸ hconnected) 0 .identity
    have hequal := hunfiltered _ hany 0 (.ofHead .identity)
    rw [hsent] at hequal
    obtain rfl := List.singleton_inj.mp hequal
    exact not_astray_identity hastray
  · intro hnone reported hreported now sensors
    obtain ⟨hend, hhistory⟩ := habreast hreported
    have hempty := alike_retained hhistory
    rw [hnone, List.forall₂_nil_left_iff] at hempty
    exact ((Sampler.Follows.new params).run reported).sent_unfiltered hempty
      (hend.running ▸ hrunning) (hend.connected ▸ hconnected) now sensors

/-- A sampler that was disconnected after a sample, and connected again. -/
theorem first_sample_unfiltered_after_disconnection :
    let actions := [.start 0, .connect true, .wake 4000 (.ofHead farAway), .connect false,
      .connect true]
    ((Sampler.new {}).history actions).getLast? = some .connected ∧
      ((Sampler.new {}).run actions).wake.isSome = true ∧
      ∀ reported, SameTimes actions reported → ∀ now sensors,
        sentIn (((Sampler.new {}).run reported).tick now sensors).notices =
          (sensors.tracking ((Sampler.new {}).run reported).prediction).toList :=
  ⟨rfl, rfl, (first_sample_unfiltered_iff rfl rfl).mpr rfl⟩

/-- A stop and a start between two connections do not keep the first sample of the second one from
being filtered with the last of the first. -/
theorem first_sample_filtered_after_stop :
    ¬ ∀ (params : PoseFilterParams) (actions : List SamplerAction),
      ((Sampler.new params).history actions).getLast? = some .connected →
      ((Sampler.new params).run actions).wake.isSome = true → ∀ now sensors,
        sentIn (((Sampler.new params).run actions).tick now sensors).notices =
          (sensors.tracking ((Sampler.new params).run actions).prediction).toList := by
  intro h
  let actions : List SamplerAction := [.start 0, .connect true, .wake 4000 (.ofHead farAway), .stop,
    .start 8000, .connect true]
  obtain ⟨sent, hsent, hastray⟩ := ((Sampler.Follows.new {}).run actions).sent_astray rfl
    astray_farAway rfl rfl 8000 .identity
  have hequal := h {} actions rfl rfl 8000 (.ofHead .identity)
  rw [hsent] at hequal
  obtain rfl := List.singleton_inj.mp hequal
  exact not_astray_identity hastray

end HeadsetStream.Tracking
