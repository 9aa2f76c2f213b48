import HeadsetStream.Proofs.ExactFilters
import Mathlib.Analysis.Convex.Basic
import Mathlib.Data.Sign.Basic

/-!
# Filtered positions stay among the samples

Along each axis the output is a weighted mean of the last output and the sample. So it never leaves
the range of the samples since the last reset. While the samples stay at one place, it approaches
that place from the side where it is, by at least the share that a filter with the cutoff at rest
would take.
-/

namespace HeadsetStream.Geometry

inductive Axis where
  | x
  | y
  | z
  deriving DecidableEq, Repr

namespace Vec3

variable {v w x : Vec3 ℝ}

def along (v : Vec3 ℝ) : Axis → ℝ
  | .x => v.x
  | .y => v.y
  | .z => v.z

private theorem eq_of_along (h : ∀ axis, v.along axis = w.along axis) : v = w := by
  obtain ⟨a, b, c⟩ := v
  obtain ⟨a', b', c'⟩ := w
  obtain rfl : a = a' := h .x
  obtain rfl : b = b' := h .y
  obtain rfl : c = c' := h .z
  rfl

/-- Along every axis `v` is not below all of the samples, and not above all of them. -/
def Among (samples : List (Vec3 ℝ)) (v : Vec3 ℝ) : Prop :=
  ∀ axis, (∃ low ∈ samples, low.along axis ≤ v.along axis) ∧
    ∃ high ∈ samples, v.along axis ≤ high.along axis

/-- Along every axis `w` is on the same side of `x` as `v`, and no further away. -/
def Closer (x v w : Vec3 ℝ) : Prop :=
  ∀ axis, SignType.sign (w.along axis - x.along axis) = SignType.sign (v.along axis - x.along axis) ∧
    |w.along axis - x.along axis| ≤ |v.along axis - x.along axis|

instance (x : Vec3 ℝ) : Trans (Closer x) (Closer x) (Closer x) where
  trans h h' axis := ⟨(h' axis).1.trans (h axis).1, (h' axis).2.trans (h axis).2⟩

private theorem Closer.eq (h : Closer x x w) : w = x := by
  apply eq_of_along
  intro axis
  have hsign := (h axis).1
  rwa [sub_self, sign_zero, sign_eq_zero_iff, sub_eq_zero] at hsign

end Vec3

end HeadsetStream.Geometry

namespace HeadsetStream.Signal
open Number HeadsetStream.Geometry

/-- The samples since the last reset. -/
def recent {σ : Type} (inputs : List (Feed σ)) : List σ :=
  inputs.foldl (fun samples input =>
    match input with
    | .sample _ x => samples ++ [x]
    | .reset => []) []

theorem recent_append_singleton {σ : Type} (inputs : List (Feed σ)) (input : Feed σ) :
    recent (inputs ++ [input]) =
      match input with
      | .sample _ x => recent inputs ++ [x]
      | .reset => [] := by
  rw [recent, List.foldl_append]
  cases input <;> rfl

/-- A signal that stays at `x` for these intervals. -/
def held {σ : Type} (x : σ) (intervals : List ℝ) : List (Feed σ) := intervals.map (.sample · x)

namespace ExactFilter

/-- A filter for positions, which may measure the length of a vector in any way. -/
noncomputable def ofPositions (params : OneEuroParams ℝ) (pi : ℝ) (length : Vec3 ℝ → ℝ) :
    ExactFilter (Vec3 ℝ) (Vec3 ℝ) where
  moving := { @Vec3.instMoving ℝ Angular.real.toRooted with speed := length }
  params := params
  pi := pi

/-- With the length of vectors as the speed, this is the filter that positions go through. -/
theorem ofPositions_length (params : OneEuroParams ℝ) (pi : ℝ) :
    ofPositions params pi (@Vec3.length ℝ Angular.real.toRooted) =
      ⟨@Vec3.instMoving ℝ Angular.real.toRooted, params, pi⟩ := rfl

/-- Along each axis an output is the weighted mean of the last output and the sample. -/
def Averages {δ : Type} (filter : ExactFilter (Vec3 ℝ) δ) : Prop :=
  ∀ prev x s axis, (filter.moving.blend prev x s).along axis =
    x.along axis * s + prev.along axis * (1 - s)

theorem averages_ofPositions (params : OneEuroParams ℝ) (pi : ℝ) (length : Vec3 ℝ → ℝ) :
    (ofPositions params pi length).Averages := by
  intro prev x s axis
  have hone : @OfNat.ofNat ℝ 1 (@Scalar.instOfNat ℝ (.ofField ℝ) 1) = 1 := Nat.cast_one
  rw [← hone]
  cases axis <;> rfl

section

variable {σ δ : Type} (filter : ExactFilter σ δ)

/-- The share of a distance that is left after these intervals if the cutoff stays as it is at
rest. -/
noncomputable def leftAtRest (intervals : List ℝ) : ℝ :=
  (intervals.map fun dt => 1 - filter.smoothing dt filter.params.minCutoff).prod

private theorem leftAtRest_cons (dt : ℝ) (rest : List ℝ) : filter.leftAtRest (dt :: rest) =
    (1 - filter.smoothing dt filter.params.minCutoff) * filter.leftAtRest rest := by
  rw [leftAtRest, List.map_cons, List.prod_cons]
  rfl

private theorem length_outputs_held (state : OneEuro σ δ) (x : σ) (intervals : List ℝ) :
    (filter.outputs state (held x intervals)).length = intervals.length := by
  induction intervals generalizing state with
  | nil => rfl
  | cons dt rest ih => exact congrArg (· + 1) (ih _)

variable {filter}

private theorem Proper.leftAtRest_nonneg (h : filter.Proper) {intervals : List ℝ}
    (hpos : ∀ dt ∈ intervals, 0 < dt) : 0 ≤ filter.leftAtRest intervals := by
  apply List.prod_nonneg
  intro share hshare
  obtain ⟨dt, hdt, rfl⟩ := List.mem_map.mp hshare
  exact sub_nonneg.mpr (h.smoothing_mem (hpos dt hdt) h.minCutoff_pos).2.le

end

section

variable {δ : Type} {filter : ExactFilter (Vec3 ℝ) δ} (havg : filter.Averages)
  (hproper : filter.Proper) {state : OneEuro (Vec3 ℝ) δ} {prev : Vec3 ℝ} {dt : ℝ}
include havg hproper

/-- An output lies between the last output and the sample. -/
private theorem along_step_mem (hlast : state.value.last = some prev) (hdt : 0 < dt) (x : Vec3 ℝ)
    (axis : Axis) :
    (filter.step state dt x).1.along axis ∈ Set.uIcc (prev.along axis) (x.along axis) := by
  obtain ⟨hpos, hlt⟩ := hproper.factor_mem state hdt x
  rw [filter.step_of_some hlast, havg]
  have hmean := (convex_uIcc (prev.along axis) (x.along axis)) Set.right_mem_uIcc Set.left_mem_uIcc
    hpos.le (sub_nonneg.mpr hlt.le) (add_sub_cancel _ _)
  rwa [smul_eq_mul, smul_eq_mul, mul_comm, mul_comm (1 - _)] at hmean

theorem among_step {samples : List (Vec3 ℝ)}
    (hamong : ∀ last, state.value.last = some last → last.Among samples) (hdt : 0 < dt)
    (x : Vec3 ℝ) : (filter.step state dt x).1.Among (samples ++ [x]) := by
  have hx : x ∈ samples ++ [x] := List.mem_append_right _ (List.mem_singleton_self x)
  intro axis
  cases hlast : state.value.last with
  | none =>
    rw [filter.step_of_none hlast]
    exact ⟨⟨x, hx, le_rfl⟩, x, hx, le_rfl⟩
  | some prev =>
    obtain ⟨⟨low, hlow, hle⟩, high, hhigh, hge⟩ := hamong prev hlast axis
    rcases Set.mem_uIcc.mp (along_step_mem havg hproper hlast hdt x axis) with hrise | hfall
    · exact ⟨⟨low, List.mem_append_left _ hlow, hle.trans hrise.1⟩, x, hx, hrise.2⟩
    · exact ⟨⟨x, hx, hfall.1⟩, high, List.mem_append_left _ hhigh, hfall.2.trans hge⟩

private theorem among_recent {inputs : List (Feed (Vec3 ℝ))}
    (htimed : ∀ dt x, Feed.sample dt x ∈ inputs → 0 < dt) :
    ∀ last, (filter.after .empty inputs).value.last = some last → last.Among (recent inputs) := by
  induction inputs using List.reverseRecOn with
  | nil => exact fun _ h => nomatch h
  | append_singleton inputs input ih =>
    intro last hlast
    rw [after_append_singleton] at hlast
    rw [recent_append_singleton]
    cases input with
    | sample dt x =>
      obtain rfl := Option.some.inj hlast
      exact among_step havg hproper
        (ih fun dt' x' hmem => htimed dt' x' (List.mem_append_left _ hmem))
        (htimed dt x (List.mem_append_right _ (List.mem_singleton_self _))) x
    | reset => exact nomatch hlast

omit hproper in
/-- What is left of the distance to a sample. -/
theorem along_step_sub (hlast : state.value.last = some prev) (dt : ℝ) (x : Vec3 ℝ) (axis : Axis) :
    (filter.step state dt x).1.along axis - x.along axis =
      (1 - filter.factor state dt x) * (prev.along axis - x.along axis) := by
  rw [filter.step_of_some hlast, havg]
  ring

theorem closer_step (hlast : state.value.last = some prev) (hdt : 0 < dt) (x : Vec3 ℝ) :
    x.Closer prev (filter.step state dt x).1 := by
  obtain ⟨hpos, hlt⟩ := hproper.factor_mem state hdt x
  have hleft := sub_pos.mpr hlt
  intro axis
  rw [along_step_sub havg hlast, sign_mul, sign_pos hleft, one_mul, abs_mul, abs_of_pos hleft]
  exact ⟨rfl, mul_le_of_le_one_left (abs_nonneg _) (by linarith)⟩

/-- One step leaves at most what it would leave at rest. -/
private theorem abs_step_le (hlast : state.value.last = some prev) (hdt : 0 < dt) (x : Vec3 ℝ)
    (axis : Axis) :
    |(filter.step state dt x).1.along axis - x.along axis| ≤
      (1 - filter.smoothing dt filter.params.minCutoff) * |prev.along axis - x.along axis| := by
  obtain ⟨-, hlt⟩ := hproper.factor_mem state hdt x
  have hleast := hproper.smoothing_le_factor state hdt x
  rw [along_step_sub havg hlast, abs_mul, abs_of_pos (sub_pos.mpr hlt)]
  exact mul_le_mul_of_nonneg_right (by linarith) (abs_nonneg _)

private theorem isChain_closer (hlast : state.value.last = some prev) (x : Vec3 ℝ)
    {intervals : List ℝ} (hpos : ∀ dt ∈ intervals, 0 < dt) :
    (prev :: filter.outputs state (held x intervals)).IsChain x.Closer := by
  induction intervals generalizing state prev with
  | nil => exact .singleton prev
  | cons dt rest ih =>
    obtain ⟨hdt, hrest⟩ := List.forall_mem_cons.mp hpos
    exact .cons_cons (closer_step havg hproper hlast hdt x)
      (ih (filter.last_step state dt x) hrest)

/-- After any number of steps there is left at most what would be left at rest. -/
private theorem abs_last_le (hlast : state.value.last = some prev) (x : Vec3 ℝ) {intervals : List ℝ}
    (hpos : ∀ dt ∈ intervals, 0 < dt) (axis : Axis) :
    |((filter.outputs state (held x intervals)).getLastD prev).along axis - x.along axis| ≤
      filter.leftAtRest intervals * |prev.along axis - x.along axis| := by
  induction intervals generalizing state prev with
  | nil => exact (one_mul _).ge
  | cons dt rest ih =>
    obtain ⟨hdt, hrest⟩ := List.forall_mem_cons.mp hpos
    have hstep := abs_step_le havg hproper hlast hdt x axis
    have hlater := ih (filter.last_step state dt x) hrest
    have hshare := hproper.leftAtRest_nonneg hrest
    calc |((filter.outputs state (held x (dt :: rest))).getLastD prev).along axis - x.along axis|
        ≤ filter.leftAtRest rest * |(filter.step state dt x).1.along axis - x.along axis| := by
          rwa [held, List.map_cons, outputs, List.getLastD_cons]
      _ ≤ filter.leftAtRest rest * ((1 - filter.smoothing dt filter.params.minCutoff) *
            |prev.along axis - x.along axis|) := mul_le_mul_of_nonneg_left hstep hshare
      _ = filter.leftAtRest (dt :: rest) * |prev.along axis - x.along axis| := by
          rw [leftAtRest_cons]
          ring

end

/-- The filter for positions when no parameters are given. -/
noncomputable def standardPositions : ExactFilter (Vec3 ℝ) (Vec3 ℝ) :=
  ofPositions .exact Real.pi (@Vec3.length ℝ Angular.real.toRooted)

theorem standardPositions_proper : standardPositions.Proper where
  pi_pos := Real.pi_pos
  minCutoff_pos := one_pos
  beta_nonneg := by norm_num [standardPositions, ofPositions, OneEuroParams.exact]
  rateCutoff_pos := one_pos
  speed_nonneg _ := Real.sqrt_nonneg _

/-- The output for a sample lies, along each axis, between the least and the largest sample since
the last reset. Both smoothing factors are strictly between 0 and 1. -/
theorem positions_among_samples {params : OneEuroParams ℝ} {pi : ℝ} {length : Vec3 ℝ → ℝ}
    (hproper : (ofPositions params pi length).Proper) {inputs : List (Feed (Vec3 ℝ))}
    (htimed : ∀ dt x, Feed.sample dt x ∈ inputs → 0 < dt) {dt : ℝ} (hdt : 0 < dt) (x : Vec3 ℝ) :
    let filter := ofPositions params pi length
    let state := filter.after .empty inputs
    filter.smoothing dt params.rateCutoff ∈ Set.Ioo 0 1 ∧
      filter.factor state dt x ∈ Set.Ioo 0 1 ∧
      (filter.step state dt x).1.Among (recent (inputs ++ [.sample dt x])) := by
  intro filter state
  have havg := averages_ofPositions params pi length
  refine ⟨hproper.smoothing_mem hdt hproper.rateCutoff_pos, hproper.factor_mem state hdt x, ?_⟩
  rw [recent_append_singleton]
  exact among_step havg hproper (among_recent havg hproper htimed) hdt x

/-- What was sampled before a reset does not count. -/
theorem positions_among_samples_after_reset :
    let inputs : List (Feed (Vec3 ℝ)) :=
      [.sample (1 / 90) ⟨5, 5, 5⟩, .reset, .sample (1 / 90) ⟨0, 0, 1⟩]
    (∀ dt x, Feed.sample dt x ∈ inputs → 0 < dt) ∧
      (standardPositions.step (standardPositions.after .empty inputs) (1 / 90) ⟨1, -1, 2⟩).1.Among
        [⟨0, 0, 1⟩, ⟨1, -1, 2⟩] := by
  intro inputs
  have htimed : ∀ dt x, Feed.sample dt x ∈ inputs → 0 < dt := by
    intro dt x hmem
    simp only [inputs, List.mem_cons, Feed.sample.injEq, reduceCtorEq, List.not_mem_nil, or_false,
      false_or] at hmem
    rcases hmem with ⟨rfl, -⟩ | ⟨rfl, -⟩ <;> norm_num
  exact ⟨htimed, (positions_among_samples standardPositions_proper htimed (by norm_num) _).2.2⟩

/-- While the samples stay at `x`, each output is on the side of `x` where the outputs before it
were, and no further away. What is left of the distance in the end is at most what would be left by
the factors at rest. An output that is at `x` stays there. -/
theorem positions_settle {params : OneEuroParams ℝ} {pi : ℝ} {length : Vec3 ℝ → ℝ}
    (hproper : (ofPositions params pi length).Proper) {state : OneEuro (Vec3 ℝ) (Vec3 ℝ)}
    {prev : Vec3 ℝ} (hlast : state.value.last = some prev) (x : Vec3 ℝ) {intervals : List ℝ}
    (hpos : ∀ dt ∈ intervals, 0 < dt) :
    let filter := ofPositions params pi length
    let outputs := filter.outputs state (held x intervals)
    (prev :: outputs).Pairwise x.Closer ∧
      (∀ axis, |(outputs.getLastD prev).along axis - x.along axis| ≤
        (intervals.map fun dt => 1 - filter.smoothing dt params.minCutoff).prod *
          |prev.along axis - x.along axis|) ∧
      (prev = x → outputs = List.replicate intervals.length x) := by
  intro filter outputs
  have havg := averages_ofPositions params pi length
  have hcloser := (isChain_closer havg hproper hlast x hpos).pairwise
  refine ⟨hcloser, abs_last_le havg hproper hlast x hpos, ?_⟩
  rintro rfl
  refine List.eq_replicate_iff.mpr ⟨filter.length_outputs_held state prev intervals, ?_⟩
  intro out hout
  exact (List.rel_of_pairwise_cons hcloser hout).eq

/-- A step of one meter along an axis, three samples later. -/
theorem positions_settle_after_step :
    let state := standardPositions.after .empty [.sample (1 / 90) ⟨0, 0, 0⟩]
    let outputs := standardPositions.outputs state (held ⟨1, 0, 0⟩ [1 / 90, 1 / 90, 1 / 90])
    state.value.last = some ⟨0, 0, 0⟩ ∧
      (⟨0, 0, 0⟩ :: outputs).Pairwise (Vec3.Closer ⟨1, 0, 0⟩) ∧
      |(outputs.getLastD ⟨0, 0, 0⟩).x - 1| ≤ (1 - standardPositions.smoothing (1 / 90) 1) ^ 3 := by
  intro state outputs
  have hlast : state.value.last = some ⟨0, 0, 0⟩ := rfl
  have hpos : ∀ dt ∈ [1 / 90, 1 / 90, 1 / 90], (0 : ℝ) < dt := by norm_num
  obtain ⟨hcloser, hleft, -⟩ := positions_settle standardPositions_proper hlast ⟨1, 0, 0⟩ hpos
  have hx := hleft .x
  simp only [Vec3.along, zero_sub, abs_neg, abs_one, mul_one, List.map_cons, List.map_nil,
    List.prod_cons, List.prod_nil, ← pow_three] at hx
  exact ⟨hlast, hcloser, hx⟩

end ExactFilter

end HeadsetStream.Signal
