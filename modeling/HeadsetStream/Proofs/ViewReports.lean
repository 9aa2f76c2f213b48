import HeadsetStream.Proofs.SinglePrecision
import HeadsetStream.Proofs.TrackingHistory

/-!
# When views are sent

A sampler compares the view that it reads with the one it sent last, not with the one it read last.
However slowly the view drifts, it is sent once it is too far from what the server knows, and never
before. When a connection is set up or given up, the view sent last is forgotten: the next one is
compared with a view of nothing but zeros.
-/

namespace HeadsetStream.Number.Single
open Float.Model UnpackedFloat

private theorem unpacked_sub_self (u : UnpackedFloat) :
    u.sub .binary32 u = .notANumber ∨ u.sub .binary32 u = .zero .positive := by
  cases u with
  | notANumber => exact .inl rfl
  | infinity sign => cases sign <;> exact .inl rfl
  | zero sign => cases sign <;> exact .inr rfl
  | finite sign m e hm =>
    right
    show UnpackedFloat.normalize .binary32 (_ - _) _ _ = _
    rw [Int.sub_self]
    rfl

private theorem unpack_abs_sub_self (x : Float32) :
    (x - x).abs.toModel.unpack = .notANumber ∨
      (x - x).abs.toModel.unpack = (0 : Float32).toModel.unpack := by
  have habs : (x - x).abs.toModel = .pack (Float32.Model.unpack (.pack
    (x.toModel.unpack.sub .binary32 x.toModel.unpack))).abs := rfl
  rw [habs]
  rcases unpacked_sub_self x.toModel.unpack with h | h <;> rw [h]
  · exact .inl rfl
  · exact .inr rfl

private theorem lt_notANumber (u : UnpackedFloat) : u.lt .notANumber = false := by
  cases u with
  | infinity sign => cases sign <;> rfl
  | _ => rfl

/-- A number is no distance away from itself, nor is what is not a number. -/
private theorem not_lt_abs_sub_self {threshold : Float32} (h : ¬ threshold < 0) (x : Float32) :
    ¬ threshold < (x - x).abs := by
  intro hlt
  have hunpacked : UnpackedFloat.lt threshold.toModel.unpack (x - x).abs.toModel.unpack = true :=
    of_decide_eq_true hlt
  rcases unpack_abs_sub_self x with hx | hx <;> rw [hx] at hunpacked
  · exact Bool.false_ne_true ((lt_notANumber _).symm.trans hunpacked)
  · exact h (decide_eq_true hunpacked)

end HeadsetStream.Number.Single

namespace HeadsetStream.Tracking
open HeadsetStream.Geometry Number Signal

private theorem differsFrom_self (view : EyeInfo) :
    view.differsFrom view viewThreshold = false := by
  have hthreshold : ¬ viewThreshold < 0 := by decide +kernel
  simp [EyeInfo.differsFrom, Single.not_lt_abs_sub_self hthreshold]

/-- The views that were sent to the server. -/
def viewsIn (notices : List Notice) : List EyeInfo :=
  notices.filterMap fun
    | .view view => some view
    | _ => none

private theorem viewsIn_append (first rest : List Notice) :
    viewsIn (first ++ rest) = viewsIn first ++ viewsIn rest :=
  List.filterMap_append ..

/-- Something that bears on which view was sent last. -/
inductive ViewEvent where
  /-- The sampler was told that there is a connection, or that there is none. -/
  | forgotten
  | sent (view : EyeInfo)
  deriving DecidableEq, Repr

/-- The view sent last, if it was not forgotten since, and zeros if it was, or none was sent. -/
def lastViewIn (history : List ViewEvent) : EyeInfo :=
  match history.getLast? with
  | some (.sent view) => view
  | some .forgotten | none => .zero

@[simp] theorem lastViewIn_sent (history : List ViewEvent) (view : EyeInfo) :
    lastViewIn (history ++ [.sent view]) = view := by
  simp [lastViewIn]

@[simp] theorem lastViewIn_forgotten (history : List ViewEvent) :
    lastViewIn (history ++ [.forgotten]) = .zero := by
  simp [lastViewIn]

/-- Each view that was sent differed from the one sent last. -/
inductive Drifted : List ViewEvent → Prop where
  | nil : Drifted []
  | forgotten {history : List ViewEvent} (h : Drifted history) : Drifted (history ++ [.forgotten])
  | sent {history : List ViewEvent} {view : EyeInfo} (h : Drifted history)
      (hdiffers : view.differsFrom (lastViewIn history) viewThreshold = true) :
      Drifted (history ++ [.sent view])

private theorem Drifted.differs {history before after : List ViewEvent} {view : EyeInfo}
    (h : Drifted history) (hhistory : history = before ++ .sent view :: after) :
    view.differsFrom (lastViewIn before) viewThreshold = true := by
  induction h generalizing after with
  | nil => simp at hhistory
  | forgotten h ih =>
    obtain ⟨-, hsent, -⟩ | ⟨rest, -, hearlier⟩ := split_of_append_singleton hhistory
    · exact nomatch hsent
    · exact ih hearlier
  | sent h hdiffers ih =>
    obtain ⟨rfl, hsent, -⟩ | ⟨rest, -, hearlier⟩ := split_of_append_singleton hhistory
    · obtain rfl := ViewEvent.sent.inj hsent
      exact hdiffers
    · exact ih hearlier

namespace Sampler

variable {params : PoseFilterParams} {history : List ViewEvent} {sampler : Sampler}

/-- The view that a sampler reads when it wakes. -/
def shows (sampler : Sampler) (sensors : Sensors) : Option EyeInfo :=
  if sampler.wake.isSome && sampler.connected then sensors.view else none

/-- What an action adds to the history of views. -/
def viewEvents (sampler : Sampler) : SamplerAction → List ViewEvent
  | .connect _ => [.forgotten]
  | .predict _ | .setRate _ | .start _ | .stop => []
  | .wake now sensors => (viewsIn (sampler.tick now sensors).notices).map .sent

def viewHistory (sampler : Sampler) : List SamplerAction → List ViewEvent
  | [] => []
  | action :: rest => sampler.viewEvents action ++ viewHistory (sampler.perform action) rest

private theorem SameCourse.shows_eq {first second : Sampler} (h : first.SameCourse second)
    (sensors : Sensors) : first.shows sensors = second.shows sensors := by
  simp only [shows, h.connected, h.running]

/-- The view that a sampler sends when it wakes. -/
def sends (sampler : Sampler) (sensors : Sensors) : Option EyeInfo :=
  (sampler.shows sensors).filter (·.differsFrom sampler.lastView viewThreshold)

private theorem sendView_views (hrunning : sampler.wake.isSome = true) (sensors : Sensors) :
    viewsIn (sampler.sendView sensors.view).notices = (sampler.sends sensors).toList ∧
      (sampler.sendView sensors.view).value.lastView =
        (sampler.sends sensors).getD sampler.lastView := by
  cases hview : sensors.view with
  | none =>
    have hsends : sampler.sends sensors = none := by simp [sends, shows, hview]
    rw [hsends]
    exact ⟨rfl, rfl⟩
  | some view =>
    cases hconnected : sampler.connected with
    | false => simp [sendView, sends, shows, hconnected, viewsIn]
    | true =>
      cases hdiffers : view.differsFrom sampler.lastView viewThreshold <;>
        simp [sendView, sends, shows, hrunning, hconnected, hview, hdiffers, viewsIn, Option.filter]

/-- Nothing tells of a view once it has been reported. -/
private theorem track_views (sampler : Sampler) (now : Nat) (sensors : Sensors) :
    viewsIn (sampler.track now sensors).notices = [] ∧
      (sampler.track now sensors).value.lastView = sampler.lastView := by
  cases hconnected : sampler.connected with
  | false => simp [track, hconnected, viewsIn]
  | true =>
    cases hread : sensors.tracking sampler.prediction <;>
      simp [track, hconnected, hread, viewsIn]

private theorem sleep_views (sampler : Sampler) (now : Nat) :
    (sampler.sleep now).2.lastView = sampler.lastView := by
  cases hwake : sampler.wake <;> simp [sleep, hwake]

/-- What a sampler sends when it wakes it has sent last, from then on. -/
theorem tick_views (sampler : Sampler) (now : Nat) (sensors : Sensors) :
    viewsIn (sampler.tick now sensors).notices = (sampler.sends sensors).toList ∧
      (sampler.tick now sensors).value.2.lastView =
        (sampler.sends sensors).getD sampler.lastView := by
  cases hrunning : sampler.wake.isSome with
  | false =>
    have hsends : sampler.sends sensors = none := by simp [sends, shows, hrunning]
    rw [tick_of_stopped hrunning, hsends]
    exact ⟨rfl, rfl⟩
  | true =>
    let viewed := sampler.sendView sensors.view
    obtain ⟨hsent, hlast⟩ := sendView_views hrunning sensors
    obtain ⟨hsilent, hkept⟩ := viewed.value.track_views now sensors
    rw [tick_of_running hrunning, viewsIn_append, hsilent, List.append_nil]
    exact ⟨hsent, (sleep_views _ now).trans (hkept.trans hlast)⟩

/-- The sampler knows which view it sent last, and has sent none that was near it. -/
structure Reports (history : List ViewEvent) (sampler : Sampler) : Prop where
  lastView_eq : sampler.lastView = lastViewIn history
  drifted : Drifted history

theorem Reports.perform (h : sampler.Reports history) (action : SamplerAction) :
    (sampler.perform action).Reports (history ++ sampler.viewEvents action) := by
  obtain ⟨hlast, hdrifted⟩ := h
  cases action with
  | connect connected => exact ⟨(lastViewIn_forgotten history).symm, .forgotten hdrifted⟩
  | wake now sensors =>
    obtain ⟨hsent, hlater⟩ := sampler.tick_views now sensors
    rw [viewEvents, hsent]
    cases hsends : sampler.sends sensors with
    | none =>
      rw [hsends] at hlater
      rw [Option.toList_none, List.map_nil, List.append_nil]
      exact ⟨hlater.trans hlast, hdrifted⟩
    | some view =>
      rw [hsends] at hlater
      have hdiffers : view.differsFrom (lastViewIn history) viewThreshold = true := by
        rw [← hlast]
        exact (Option.filter_eq_some_iff.mp hsends).2
      exact ⟨hlater.trans (lastViewIn_sent history view).symm, .sent hdrifted hdiffers⟩
  | _ =>
    rw [viewEvents, List.append_nil]
    exact ⟨hlast, hdrifted⟩

theorem Reports.run (h : sampler.Reports history) (actions : List SamplerAction) :
    (sampler.run actions).Reports (history ++ sampler.viewHistory actions) := by
  induction actions generalizing sampler history with
  | nil =>
    rw [viewHistory, List.append_nil]
    exact h
  | cons action rest ih =>
    rw [viewHistory, ← List.append_assoc]
    exact ih (h.perform action)

private theorem reports_new (params : PoseFilterParams) (actions : List SamplerAction) :
    ((new params).run actions).Reports ((new params).viewHistory actions) := by
  have hfresh : (new params).Reports [] := ⟨rfl, .nil⟩
  exact hfresh.run actions

/-- A sampler that wakes at these times, and that nothing else is done with. -/
def wakes (times : List (Nat × Sensors)) : List SamplerAction :=
  times.map fun (now, sensors) => .wake now sensors

private theorem wakes_sameCourse (sampler : Sampler) (times : List (Nat × Sensors)) :
    (sampler.run (wakes times)).SameCourse sampler := by
  induction times generalizing sampler with
  | nil => exact .refl sampler
  | cons time rest ih =>
    have hstep := (sampler.tick_samples time.1 time.2).course
    exact (ih (sampler.perform (.wake time.1 time.2))).trans hstep

theorem Reports.sends_eq (h : sampler.Reports history) (sensors : Sensors) :
    sampler.sends sensors = (sampler.shows sensors).filter
      (·.differsFrom (lastViewIn history) viewThreshold) := by
  rw [sends, h.lastView_eq]

/-- Once a sampler has woken, what it was shown is near the view that it sent last. -/
theorem Reports.near (h : sampler.Reports history) (now : Nat) {sensors : Sensors} {view : EyeInfo}
    (hshown : sampler.shows sensors = some view) :
    view.differsFrom (lastViewIn (history ++ sampler.viewEvents (.wake now sensors)))
      viewThreshold = false := by
  rw [viewEvents, (sampler.tick_views now sensors).1, h.sends_eq, hshown]
  cases hdiffers : view.differsFrom (lastViewIn history) viewThreshold with
  | false => simp [Option.filter, hdiffers]
  | true => simp [Option.filter, hdiffers, differsFrom_self]

end Sampler

/-- A sampler that wakes sends the view that it is shown exactly if that differs from the one sent
last; so it is never left with one that does. Two views sent one after the other differ, and a drift
during which nothing was sent is reported once it adds up to a difference. -/
theorem views_sent_on_drift (params : PoseFilterParams) (actions : List SamplerAction) :
    let sampler := (Sampler.new params).run actions
    let history := (Sampler.new params).viewHistory actions
    (∀ now sensors, viewsIn (sampler.tick now sensors).notices =
        ((sampler.shows sensors).filter
          (·.differsFrom (lastViewIn history) 0.01)).toList) ∧
      (∀ now sensors view, sampler.shows sensors = some view →
        view.differsFrom (lastViewIn (history ++ sampler.viewEvents (.wake now sensors))) 0.01 =
          false) ∧
      (∀ before first second after, history = before ++ .sent first :: .sent second :: after →
        second.differsFrom first 0.01 = true) ∧
      ∀ drift now sensors view, sampler.viewHistory (Sampler.wakes drift) = [] →
        sampler.shows sensors = some view →
        view.differsFrom (lastViewIn history) 0.01 = true →
        viewsIn ((sampler.run (Sampler.wakes drift)).tick now sensors).notices = [view] := by
  intro sampler history
  have hthreshold : (0.01 : Float32) = viewThreshold := rfl
  simp only [hthreshold]
  have hreports : sampler.Reports history := Sampler.reports_new params actions
  refine ⟨fun now sensors => ?_, fun now sensors view => hreports.near now, ?_, ?_⟩
  · rw [(sampler.tick_views now sensors).1, hreports.sends_eq]
  · intro before first second after hhistory
    rw [List.append_cons] at hhistory
    have hdiffers := hreports.drifted.differs hhistory
    rwa [lastViewIn_sent] at hdiffers
  · intro drift now sensors view hquiet hshown hdiffers
    have hlater := hreports.run (Sampler.wakes drift)
    rw [hquiet, List.append_nil] at hlater
    rw [(Sampler.tick_views _ now sensors).1, hlater.sends_eq,
      (sampler.wakes_sameCourse drift).shows_eq, hshown]
    simp [Option.filter, hdiffers]

/-- Eyes that move apart by four millimeters at a time are reported the third time. -/
theorem slow_drift_reported :
    let eyes (ipd : Float32) : EyeInfo := { EyeInfo.zero with ipd }
    let seen (ipd : Float32) : Sensors := ⟨some (eyes ipd), fun _ => none⟩
    let actions : List SamplerAction := [.start 0, .connect true, .wake 0 (seen 0.064)]
    let sampler := (Sampler.new {}).run actions
    let drift := [(4000, seen 0.068), (8000, seen 0.072)]
    sampler.viewHistory (Sampler.wakes drift) = [] ∧
      viewsIn ((sampler.run (Sampler.wakes drift)).tick 12000 (seen 0.076)).notices =
        [eyes 0.076] := by
  intro eyes seen actions sampler drift
  have hquiet : sampler.viewHistory (Sampler.wakes drift) = [] := by decide +kernel
  have hshown : sampler.shows (seen 0.076) = some (eyes 0.076) := by decide +kernel
  have hdiffers : (eyes 0.076).differsFrom
      (lastViewIn ((Sampler.new {}).viewHistory actions)) 0.01 = true := by decide +kernel
  exact ⟨hquiet, (views_sent_on_drift {} actions).2.2.2 drift 12000 _ _ hquiet hshown hdiffers⟩

end HeadsetStream.Tracking
