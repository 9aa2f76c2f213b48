import HeadsetStream.Proofs.LastSetting
import HeadsetStream.Video.FrameMap

/-!
# What a frame map answers, read off its history

Timestamps that share a slot share its fate, and no others matter to them. A slot holds the index
of the last set, unless that names no frame or the slot was emptied since: this is what each
question is answered from. Emptying a slot answers too, so of the questions that empty it between
two sets one at most finds a frame.
-/

namespace HeadsetStream.Video

/-- What is done to a frame map. -/
inductive MapStep where
  | set (pts : Nat) (index : FrameIndex)
  | get (pts : Nat)
  | take (pts : Nat)
  deriving DecidableEq, Repr

namespace MapStep

def pts : MapStep → Nat
  | .set pts _ | .get pts | .take pts => pts

/-- Whether a step is a question, with an answer to it. -/
def asks : MapStep → Bool
  | .get _ | .take _ => true
  | .set .. => false

/-- Sets a slot. -/
def Sets (capacity slot : Nat) : MapStep → Prop
  | .set pts _ => pts % capacity = slot
  | .get _ | .take _ => False

/-- Sets a slot or empties it. -/
def Changes (capacity slot : Nat) : MapStep → Prop
  | .set pts _ | .take pts => pts % capacity = slot
  | .get _ => False

instance (capacity slot : Nat) : DecidablePred (Sets capacity slot)
  | .set .. => inferInstanceAs (Decidable (_ = _))
  | .get _ | .take _ => inferInstanceAs (Decidable False)

/-- What a slot holds after a step that changes it. -/
def setting (capacity slot : Nat) : MapStep → Option (Option FrameIndex)
  | .set pts index => if pts % capacity = slot then some index.named? else none
  | .take pts => if pts % capacity = slot then some none else none
  | .get _ => none

variable {capacity slot : Nat} {step : MapStep}

theorem setting_eq_none_iff :
    step.setting capacity slot = none ↔ ¬ step.Changes capacity slot := by
  cases step <;> simp [setting, Changes]

private theorem setting_of_ne (h : step.pts % capacity ≠ slot) :
    step.setting capacity slot = none := by
  cases step with
  | set pts index => exact if_neg h
  | get pts => rfl
  | take pts => exact if_neg h

theorem setting_eq_some_iff {index : FrameIndex} :
    step.setting capacity slot = some (some index) ↔
      ∃ pts, step = .set pts index ∧ pts % capacity = slot ∧ index ≠ .null := by
  cases step with
  | set pts given =>
    have hset : (set pts given).setting capacity slot = some (some index) ↔
        pts % capacity = slot ∧ given = index ∧ index ≠ .null := by
      rw [← FrameIndex.named?_eq_some_iff]
      simp [setting]
    rw [hset]
    constructor
    · rintro ⟨hslot, rfl, hnull⟩
      exact ⟨pts, rfl, hslot, hnull⟩
    · rintro ⟨_, ⟨⟩, hslot, hnull⟩
      exact ⟨hslot, rfl, hnull⟩
  | get pts => simp [setting]
  | take pts => simp [setting]

end MapStep

namespace FrameMap

/-- The answer to a step, and the map after it. There is none to a set. -/
def perform (map : FrameMap) : MapStep → Option FrameIndex × FrameMap
  | .set pts index => (none, map.set pts index)
  | .get pts => (map.get? pts, map)
  | .take pts => map.take pts

def run (map : FrameMap) (steps : List MapStep) : FrameMap :=
  steps.foldl (fun map step => (map.perform step).2) map

/-- The steps with their answers. -/
def history (map : FrameMap) : List MapStep → List (MapStep × Option FrameIndex)
  | [] => []
  | step :: rest => (step, (map.perform step).1) :: (map.perform step).2.history rest

variable {map other : FrameMap} {step : MapStep} {steps : List MapStep} {pts : Nat}

@[simp] theorem capacity_perform (map : FrameMap) (step : MapStep) :
    (map.perform step).2.capacity = map.capacity := by
  cases step <;> rfl

@[simp] theorem capacity_run (map : FrameMap) (steps : List MapStep) :
    (map.run steps).capacity = map.capacity := by
  induction steps generalizing map with
  | nil => rfl
  | cons step rest ih => exact (ih _).trans (capacity_perform map step)

private theorem perform_of_asks (h : step.asks = true) :
    (map.perform step).1 = map.get? step.pts := by
  cases step with
  | set pts index => exact nomatch h
  | get pts => rfl
  | take pts => rfl

/-- The answer to a step hangs on the slot of its timestamp alone. -/
private theorem perform_congr (h : map.get? step.pts = other.get? step.pts) :
    (map.perform step).1 = (other.perform step).1 := by
  cases step with
  | set pts index => rfl
  | get pts => exact h
  | take pts => exact h

theorem get?_perform (map : FrameMap) (step : MapStep) (pts : Nat) :
    (map.perform step).2.get? pts =
      (step.setting map.capacity (pts % map.capacity)).getD (map.get? pts) := by
  cases step with
  | set pts' index =>
    rw [perform, get?_set, MapStep.setting]
    split <;> rfl
  | get pts' => rfl
  | take pts' =>
    rw [perform, get?_take, MapStep.setting]
    split <;> rfl

/-- A slot holds what the last step left in it that changed it. -/
theorem get?_run (map : FrameMap) (steps : List MapStep) (pts : Nat) :
    (map.run steps).get? pts =
      lastSet (MapStep.setting map.capacity (pts % map.capacity)) (map.get? pts) steps := by
  induction steps using List.reverseRecOn with
  | nil => rfl
  | append_singleton steps step ih =>
    have hrun : map.run (steps ++ [step]) = ((map.run steps).perform step).2 := List.foldl_append
    rw [hrun, get?_perform, capacity_run, ih, lastSet_append_singleton]

theorem get?_run_empty_eq_some_iff {capacity : Nat} {index : FrameIndex} :
    ((empty capacity).run steps).get? pts = some index ↔
      ∃ first pts' rest, steps = first ++ .set pts' index :: rest ∧
        pts' % (empty capacity).capacity = pts % (empty capacity).capacity ∧ index ≠ .null ∧
        ∀ later ∈ rest,
          ¬ later.Changes (empty capacity).capacity (pts % (empty capacity).capacity) := by
  rw [get?_run, get?_empty, lastSet_eq_iff (Option.some_ne_none index)]
  simp only [MapStep.setting_eq_some_iff, MapStep.setting_eq_none_iff]
  constructor
  · rintro ⟨first, _, rest, hsteps, ⟨pts', rfl, hslot, hnull⟩, hrest⟩
    exact ⟨first, pts', rest, hsteps, hslot, hnull, hrest⟩
  · rintro ⟨first, pts', rest, hsteps, hslot, hnull, hrest⟩
    exact ⟨first, _, rest, hsteps, ⟨pts', rfl, hslot, hnull⟩, hrest⟩

private theorem map_fst_history (map : FrameMap) (steps : List MapStep) :
    (map.history steps).map Prod.fst = steps := by
  induction steps generalizing map with
  | nil => rfl
  | cons step rest ih => exact congrArg (step :: ·) (ih _)

/-- Each step is answered by the map that the steps before it left. -/
theorem history_split {before after : List (MapStep × Option FrameIndex)}
    {answer : Option FrameIndex} (h : map.history steps = before ++ (step, answer) :: after) :
    ((map.run (before.map Prod.fst)).perform step).1 = answer ∧
      ∃ rest, after = ((map.run (before.map Prod.fst)).perform step).2.history rest := by
  induction before generalizing map steps with
  | nil =>
    cases steps with
    | nil => exact nomatch h
    | cons first rest =>
      obtain ⟨hfirst, hrest⟩ := List.cons.inj h
      cases hfirst
      exact ⟨rfl, rest, hrest.symm⟩
  | cons earlier before ih =>
    cases steps with
    | nil => exact nomatch h
    | cons first rest =>
      obtain ⟨rfl, hrest⟩ := List.cons.inj h
      exact ih hrest

/-- What is asked of a slot is answered alike by two maps that hold the same there, and the steps of
other slots change nothing about that. -/
private theorem history_filter_eq {slot : Nat} (hcapacity : map.capacity = other.capacity)
    (hslot : ∀ pts, pts % map.capacity = slot → map.get? pts = other.get? pts)
    (steps : List MapStep) :
    (map.history steps).filter (·.1.pts % map.capacity = slot) =
      other.history (steps.filter (·.pts % map.capacity = slot)) := by
  induction steps generalizing map other with
  | nil => rfl
  | cons step rest ih =>
    have hkept := capacity_perform map step
    by_cases hstep : step.pts % map.capacity = slot
    · have hboth : (map.perform step).2.capacity = (other.perform step).2.capacity := by
        rw [hkept, hcapacity, capacity_perform]
      have hrest := ih hboth fun pts hpts => by
        rw [hkept] at hpts
        rw [get?_perform, get?_perform, ← hcapacity, hslot pts hpts]
      rw [hkept] at hrest
      rw [List.filter_cons_of_pos (by simpa using hstep), history, history,
        List.filter_cons_of_pos (by simpa using hstep), hrest, perform_congr (hslot _ hstep)]
    · have hrest := ih (hkept.trans hcapacity) fun pts hpts => by
        rw [hkept] at hpts
        rw [get?_perform, hpts, MapStep.setting_of_ne hstep, Option.getD_none, hslot pts hpts]
      rw [hkept] at hrest
      rw [List.filter_cons_of_neg (by simpa using hstep), history,
        List.filter_cons_of_neg (by simpa using hstep), hrest]

/-- A step that empties a slot and finds a frame in it. -/
def takesFrame (capacity slot : Nat) : MapStep × Option FrameIndex → Bool
  | (.take pts, answer) => pts % capacity = slot && answer.isSome
  | _ => false

/-- Until a slot is set, a frame is taken from it only if it holds one, and only once. -/
private theorem countP_takesFrame_le (map : FrameMap) (steps : List MapStep) (pts : Nat) :
    (((map.history steps).takeWhile
        (¬ ·.1.Sets map.capacity (pts % map.capacity))).countP
      (takesFrame map.capacity (pts % map.capacity))) ≤ (map.get? pts).toList.length := by
  induction steps generalizing map with
  | nil => exact Nat.zero_le _
  | cons step rest ih =>
    have hrest := ih (map.perform step).2
    rw [capacity_perform, get?_perform] at hrest
    by_cases hsets : step.Sets map.capacity (pts % map.capacity)
    · rw [history, List.takeWhile_cons_of_neg (by simpa using hsets)]
      exact Nat.zero_le _
    rw [history, List.takeWhile_cons_of_pos (by simpa using hsets), List.countP_cons]
    cases step with
    | set pts' index =>
      have hslot : pts' % map.capacity ≠ pts % map.capacity := hsets
      simpa [takesFrame, MapStep.setting, hslot] using hrest
    | get pts' => simpa [takesFrame, MapStep.setting] using hrest
    | take pts' =>
      by_cases hslot : pts' % map.capacity = pts % map.capacity
      · -- The slot is empty from here on, so this is the only step that can find the frame.
        rw [MapStep.setting, if_pos hslot, Option.getD_some] at hrest
        have hfound : (map.perform (.take pts')).1 = map.get? pts := map.get?_congr hslot
        rw [hfound]
        cases hheld : map.get? pts with
        | none => simpa [takesFrame] using hrest
        | some frame => simpa [takesFrame, hslot] using hrest
      · simpa [takesFrame, MapStep.setting, hslot] using hrest

/-- What can be relied on when these steps are taken on a map. -/
structure Remembers (map : FrameMap) (steps : List MapStep) : Prop where
  /-- Every step is taken. -/
  all : (map.history steps).map Prod.fst = steps
  /-- A question is answered with the index of a set, if that is the last change of the slot and
  names a frame, and else with none. -/
  asked : ∀ before step answer after, map.history steps = before ++ (step, answer) :: after →
    step.asks = true → ∀ index, answer = some index ↔
      ∃ first pts rest, before.map Prod.fst = first ++ .set pts index :: rest ∧
        pts % map.capacity = step.pts % map.capacity ∧ index ≠ .null ∧
        ∀ later ∈ rest, ¬ later.Changes map.capacity (step.pts % map.capacity)
  /-- The steps of other slots could be left out. -/
  apart : ∀ slot, (map.history steps).filter (·.1.pts % map.capacity = slot) =
    map.history (steps.filter (·.pts % map.capacity = slot))
  /-- Between a set of a slot and the next one a frame is taken from it only once, so what was set
  is not taken twice. -/
  once : ∀ before pts index answer after,
    map.history steps = before ++ (.set pts index, answer) :: after →
    (after.takeWhile (¬ ·.1.Sets map.capacity (pts % map.capacity))).countP
      (takesFrame map.capacity (pts % map.capacity)) ≤ 1

/-- A map that was empty answers from its history. It has a slot even if none was asked for. -/
theorem empty_remembers (capacity : Nat) (steps : List MapStep) :
    (empty capacity).capacity = max capacity 1 ∧ (empty capacity).Remembers steps := by
  refine ⟨rfl, map_fst_history _ steps, ?_, ?_, ?_⟩
  · intro before step answer after hhistory hasks index
    obtain ⟨hanswer, -⟩ := history_split hhistory
    rw [← hanswer, perform_of_asks hasks]
    exact get?_run_empty_eq_some_iff
  · intro slot
    exact history_filter_eq rfl (fun _ _ => rfl) steps
  · intro before pts index answer after hhistory
    obtain ⟨-, rest, rfl⟩ := history_split hhistory
    have hcount := countP_takesFrame_le
      (((empty capacity).run (before.map Prod.fst)).perform (.set pts index)).2 rest pts
    rw [capacity_perform, capacity_run] at hcount
    exact Nat.le_trans hcount Option.length_toList_le

/-- The null index empties a slot, and so does a question that takes its frame. -/
example : (empty 0).history [.set 5 7, .get 9, .take 2, .get 5, .set 1 8, .set 3 .null, .take 1] =
    [(.set 5 7, none), (.get 9, some 7), (.take 2, some 7), (.get 5, none), (.set 1 8, none),
      (.set 3 .null, none), (.take 1, none)] := rfl

end FrameMap

end HeadsetStream.Video
