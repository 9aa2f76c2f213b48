import HeadsetStream.Proofs.FoveationRange

/-!
# Alignment of the edges

A layout rounds three lengths up: the edges to whole steps of the squeezed picture, the center's
shift, as a share of the rounded edges, to whole steps again, and the squeezed picture to whole
blocks of the encoder. In exact rational arithmetic each comes out as the least multiple that is not
below what was asked for.
-/

namespace HeadsetStream.Foveation
open Number

/-- A whole number of steps not below `x`, and less than one step above it. -/
structure AlignsUp (step x aligned : ℚ) : Prop where
  whole : ∃ k : ℤ, aligned = k * step
  not_below : x ≤ aligned
  near : aligned < x + step

theorem alignsUp_ceil {step : ℚ} (hstep : 0 < step) (x : ℚ) :
    AlignsUp step x (⌈x / step⌉ * step) where
  whole := ⟨⌈x / step⌉, rfl⟩
  not_below := (div_le_iff₀ hstep).mp (Int.le_ceil _)
  near := by
    have hceil := mul_lt_mul_of_pos_right (Int.ceil_lt_add_one (x / step)) hstep
    rwa [add_mul, one_mul, div_mul_cancel₀ _ hstep.ne'] at hceil

/-- No smaller number of steps would do. -/
private theorem AlignsUp.le_mul {step x aligned : ℚ} (hstep : 0 < step)
    (h : AlignsUp step x aligned) {k : ℤ} (hk : x ≤ k * step) : aligned ≤ k * step := by
  obtain ⟨⟨j, rfl⟩, -, hnear⟩ := h
  have hlt : (j : ℚ) * step < (k + 1) * step := by linarith
  have hle : j ≤ k := Int.lt_add_one_iff.mp (by exact_mod_cast lt_of_mul_lt_mul_right hlt hstep.le)
  exact mul_le_mul_of_nonneg_right (by exact_mod_cast hle) hstep.le

namespace AxisRequest

variable {request : AxisRequest}

namespace Proper

variable (h : request.Proper)
include h

theorem edges_eq : request.target * (1 - request.center) = request.edgeSteps * request.step := by
  rw [← h.edge_eq]
  ring

theorem edges_align : AlignsUp request.step (request.target * (1 - request.centerSize))
    (request.target * (1 - request.center)) := by
  have hasked : request.target * (1 - request.centerSize) =
      request.target - request.centerSize * request.target := by ring
  rw [h.edges_eq, hasked]
  exact alignsUp_ceil h.step_pos _

/-- A shift of so many steps of the edges is as many steps long. -/
private theorem shift_eq :
    request.shift * (request.target * (1 - request.center)) = request.shiftSteps * request.step := by
  have hsteps : (request.edgeSteps : ℚ) ≠ 0 := by exact_mod_cast h.edgeSteps_pos.ne'
  rw [h.edges_eq, shift, ← mul_assoc, div_mul_cancel₀ _ hsteps]

theorem shift_aligns : AlignsUp request.step
    (request.centerShift * (request.target * (1 - request.center)))
    (request.shift * (request.target * (1 - request.center))) := by
  have hsteps : request.shiftSteps =
      ⌈request.centerShift * (request.target * (1 - request.center)) / request.step⌉ := by
    rw [h.edges_eq, ← mul_assoc, mul_div_cancel_right₀ _ h.step_pos.ne']
    rfl
  rw [h.shift_eq, hsteps]
  exact alignsUp_ceil h.step_pos _

end Proper

theorem encoded_aligns (hpos : 0 < request.squeezed) :
    AlignsUp blockSize request.squeezed request.encoded := by
  have hblock : (0 : ℚ) < blockSize := by norm_num [blockSize]
  have hceil : (request.encoded : ℚ) = ⌈request.squeezed / blockSize⌉ * blockSize := by
    rw [encoded, Nat.cast_mul, natCast_ceil_eq_intCast_ceil (div_pos hpos hblock).le]
  rw [hceil]
  exact alignsUp_ceil hblock _

/-- The encoded size is the least whole number of blocks that the squeezed picture fits into. -/
theorem encoded_isLeast (hpos : 0 < request.squeezed) (hle : request.squeezed ≤ 2 ^ 31) :
    IsLeast {n : Nat | 32 ∣ n ∧ request.squeezed ≤ n} request.encoded := by
  obtain ⟨-, hdvd, -, hroom⟩ := encoded_spec hpos hle
  refine ⟨⟨hdvd, hroom⟩, ?_⟩
  rintro n ⟨⟨k, rfl⟩, hfits⟩
  have hblocks : ((32 * k : Nat) : ℚ) = (k : ℤ) * (blockSize : ℚ) := by
    push_cast [blockSize]
    ring
  rw [hblocks] at hfits
  have hleast := (encoded_aligns hpos).le_mul (by norm_num [blockSize]) hfits
  rw [← hblocks] at hleast
  exact_mod_cast hleast

end AxisRequest

/-- The edges and the center's shift are rounded up to the least whole number of steps, and the
squeezed picture to the least whole number of blocks, of which it keeps its share. -/
theorem alignment_is_least (request : AxisRequest) (h : request.Proper) :
    ∃ center shift : ℚ,
      request.layout.centerSize = .of center ∧ request.layout.centerShift = .of shift ∧
        let step := 2 * request.edgeRatio
        let edges := request.target * (1 - center)
        let squeezed := (center + (1 - center) / request.edgeRatio) * request.target
        (∃ k : Nat, 0 < k ∧ edges = k * step) ∧
          AlignsUp step (request.target * (1 - request.centerSize)) edges ∧
          AlignsUp step (request.centerShift * edges) (shift * edges) ∧
          (0 < squeezed → squeezed ≤ 2 ^ 31 →
            IsLeast {n : Nat | 32 ∣ n ∧ squeezed ≤ n} request.layout.encodedSize ∧
              request.layout.encodedSize ≤ 2 ^ 31 ∧
              request.layout.sizeRatio = .of (squeezed / request.layout.encodedSize)) := by
  have hlayout := h.layout_eq
  have hstep : request.step = 2 * request.edgeRatio := mul_comm ..
  have hedges := h.edges_eq
  have haligned := h.edges_align
  have hshifted := h.shift_aligns
  rw [hstep] at hedges haligned hshifted
  refine ⟨request.center, request.shift, by rw [hlayout], by rw [hlayout],
    ⟨request.edgeSteps.toNat, Int.pos_iff_toNat_pos.mp h.edgeSteps_pos, ?_⟩,
    haligned, hshifted, fun hpos hle => ?_⟩
  · have hsteps : ((request.edgeSteps.toNat : ℤ) : ℚ) = request.edgeSteps :=
      congrArg _ (Int.toNat_of_nonneg h.edgeSteps_pos.le)
    rw [Int.cast_natCast] at hsteps
    rw [hsteps]
    exact hedges
  · obtain ⟨hencoded, -, hmost, -⟩ := AxisRequest.encoded_spec hpos hle
    have hencoded' : (request.encoded : ℚ) ≠ 0 := by exact_mod_cast hencoded.ne'
    rw [hlayout]
    exact ⟨AxisRequest.encoded_isLeast hpos hle, hmost, Ratio.of_div hencoded'⟩

/-- None of the three lengths is aligned beforehand. -/
theorem thousand_pixels_aligned :
    let request : AxisRequest := ⟨1000, 1 / 3, 1 / 5, 5 / 2⟩
    request.Proper ∧
      request.layout = ⟨.of (598 / 608), .of (33 / 100), .of (135 / 670), 608⟩ ∧
      AlignsUp 5 (2000 / 3) 670 ∧ AlignsUp 5 134 135 ∧
      IsLeast {n : Nat | 32 ∣ n ∧ (598 : ℚ) ≤ n} 608 := by
  intro request
  have hproper : request.Proper := by constructor <;> norm_num [request]
  have hlayout : request.layout =
      ⟨.of (598 / 608), .of (33 / 100), .of (135 / 670), 608⟩ := by decide +kernel
  obtain ⟨center, shift, hcenter, hshift, -, hedges, hshifted, hblocks⟩ :=
    alignment_is_least request hproper
  rw [hlayout] at hcenter hshift hblocks
  obtain rfl := Ratio.of_injective hcenter
  obtain rfl := Ratio.of_injective hshift
  have hleast := (hblocks (by norm_num [request]) (by norm_num [request])).1
  have hsqueezed : (33 / 100 + (1 - 33 / 100) / request.edgeRatio) * request.target = (598 : ℚ) := by
    norm_num [request]
  rw [hsqueezed] at hleast
  norm_num [request] at hedges hshifted
  exact ⟨hproper, hlayout, hedges, hshifted, hleast⟩

end HeadsetStream.Foveation
