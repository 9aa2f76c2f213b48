import HeadsetStream.Proofs.TimestampCorrelation

/-!
# Pictures that share a slot

Slots hold frames without their timestamps: the last frame that is written to a slot is the one it
holds. So an image shows the frame of another picture exactly when its slot still holds that one,
and the image of a picture that was overwritten is discarded once the slot was emptied.
-/

namespace HeadsetStream.Decoder
open Video Settings Bitstream

/-- A picture of this timestamp was submitted, and after it another one to its slot. -/
def Overwritten (capacity session pts : Nat) (history : List Occurrence) : Prop :=
  ∃ first frame rest newer index,
    history = first ++ .submitted session pts frame :: rest ∧
      .submitted session newer index ∈ rest ∧ newer % capacity = pts % capacity

/-- What is published for an image of this timestamp carries the frame that was submitted with it,
and is nothing once the slot was overwritten. -/
structure KeepsIdentity (capacity session pts : Nat) (history : List Occurrence)
    (images : List DecodedImage) : Prop where
  own : ∀ image ∈ images, .submitted session pts image.frame ∈ history
  discarded : Overwritten capacity session pts history → images = []

/-- The slot of this timestamp still holds this frame of a picture with another timestamp. -/
def HoldsAnother (capacity session pts : Nat) (history : List Occurrence) (frame : FrameIndex) :
    Prop :=
  .ended session ∉ history ∧ ∃ first other rest,
    history = first ++ .submitted session other frame :: rest ∧ other ≠ pts ∧
      other % capacity = pts % capacity ∧ frame ≠ .null ∧
      ∀ occurrence ∈ rest, ¬ occurrence.Touches capacity session (pts % capacity)

section

variable {capacity session pts newer : Nat} {frame index : FrameIndex}
  {history first rest : List Occurrence}

theorem submittedTimes_append_cons (session pts : Nat) (frame : FrameIndex)
    (first rest : List Occurrence) :
    submittedTimes (first ++ .submitted session pts frame :: rest) =
      submittedTimes first ++ pts :: submittedTimes rest := by
  simp [submittedTimes]

private theorem lt_of_submitted_after
    (h : (submittedTimes (first ++ .submitted session pts frame :: rest)).Pairwise (· < ·))
    (hmem : .submitted session newer index ∈ rest) : pts < newer := by
  rw [submittedTimes_append_cons, List.pairwise_append] at h
  have hnewer : newer ∈ submittedTimes rest := mem_submittedTimes.mpr ⟨session, index, hmem⟩
  exact List.rel_of_pairwise_cons h.2.1 hnewer

private theorem lt_of_submitted_before {older : Nat}
    (h : (submittedTimes (first ++ .submitted session pts frame :: rest)).Pairwise (· < ·))
    (hmem : .submitted session older index ∈ first) : older < pts := by
  rw [submittedTimes_append_cons, List.pairwise_append] at h
  have holder : older ∈ submittedTimes first := mem_submittedTimes.mpr ⟨session, index, hmem⟩
  exact h.2.2 older holder pts List.mem_cons_self

theorem HoldsAnother.heldAfter_eq (h : HoldsAnother capacity session pts history frame) :
    heldAfter capacity session (pts % capacity) history = some frame := by
  obtain ⟨-, first, other, rest, hsplit, -, hslot, hnull, huntouched⟩ := h
  exact heldAfter_eq_some_iff.mpr ⟨first, other, rest, hsplit, hslot, hnull, huntouched⟩

/-- If the last picture of a slot is this one, nothing overwrote it. -/
private theorem not_overwritten
    (h : (submittedTimes (first ++ .submitted session pts frame :: rest)).Pairwise (· < ·))
    (huntouched : ∀ occurrence ∈ rest,
      ¬ occurrence.Touches capacity session (pts % capacity)) :
    ¬ Overwritten capacity session pts (first ++ .submitted session pts frame :: rest) := by
  rintro ⟨first', frame', rest', newer, index, hsplit, hmem, hslot⟩
  have hlater : pts < newer := by
    rw [hsplit] at h
    exact lt_of_submitted_after h hmem
  have hnewer : .submitted session newer index ∈
      first ++ .submitted session pts frame :: rest := by
    rw [hsplit]
    simp [hmem]
  rcases List.mem_append.mp hnewer with hfirst | hrest
  · have hearlier := lt_of_submitted_before h hfirst
    omega
  · rcases List.mem_cons.mp hrest with heq | hrest
    · cases heq
      omega
    · exact huntouched _ hrest ⟨rfl, hslot⟩

/-- If another picture is the last one of a slot and this one was submitted, it was overwritten. -/
private theorem overwritten_of_mem {other : Nat}
    (hmem : .submitted session pts index ∈ first ++ .submitted session other frame :: rest)
    (hother : other ≠ pts) (hslot : other % capacity = pts % capacity)
    (huntouched : ∀ occurrence ∈ rest,
      ¬ occurrence.Touches capacity session (pts % capacity)) :
    Overwritten capacity session pts (first ++ .submitted session other frame :: rest) := by
  rcases List.mem_append.mp hmem with hfirst | hrest
  · obtain ⟨before, between, rfl⟩ := List.append_of_mem hfirst
    refine ⟨before, index, between ++ .submitted session other frame :: rest, other, frame, ?_, ?_,
      hslot⟩
    · rw [List.append_assoc, List.cons_append]
    · simp
  · rcases List.mem_cons.mp hrest with heq | hrest
    · cases heq
      exact absurd rfl hother
    · exact absurd ⟨rfl, rfl⟩ (huntouched _ hrest)

end

/-- An image that is presented in a run is published under no identity but its own, and not at all
if its frame was overwritten, exactly if its slot does not hold the frame of another picture. If it
does, the image is published with that frame. -/
theorem keepsIdentity_iff (settings : DecoderSettings) (links : Links) (inputBuffers : Nat)
    (operations : List Operation) {before after : List Occurrence} {session : Nat}
    {image : SurfaceImage} {images : List DecodedImage}
    (hsplit : (TrialPipeline.manual settings links inputBuffers).history operations =
      before ++ .presented session image images :: after) :
    (KeepsIdentity (mapCapacity settings) session image.pts before images ↔
      ∀ frame, ¬ HoldsAnother (mapCapacity settings) session image.pts before frame) ∧
    ∀ frame, HoldsAnother (mapCapacity settings) session image.pts before frame →
      images = [⟨image, frame⟩] := by
  have hexplained : Throughout (Explains links.latency (mapCapacity settings)) []
      (before ++ .presented session image images :: after) := by
    rw [← hsplit]
    exact (TrialPipeline.Follows.manual settings links inputBuffers).throughout_history operations
  have hpairwise : (submittedTimes before).Pairwise (· < ·) := by
    have hall := hexplained.submittedTimes_pairwise.1
    rw [submittedTimes, List.filterMap_append] at hall
    exact (List.pairwise_append.mp hall).1
  have himages : images = _ := hexplained.at_split
  rw [List.nil_append] at himages
  have hforeign (frame : FrameIndex)
      (hanother : HoldsAnother (mapCapacity settings) session image.pts before frame) :
      images = [⟨image, frame⟩] := by
    rw [himages, if_neg hanother.1, hanother.heldAfter_eq]
    rfl
  refine ⟨⟨?_, ?_⟩, hforeign⟩
  · intro hkeeps frame hanother
    obtain rfl := hforeign frame hanother
    obtain ⟨-, first, other, rest, rfl, hother, hslot, -, huntouched⟩ := hanother
    -- The image carries the other picture's frame. Had the same frame been submitted with this
    -- timestamp too, then before the other picture, and the image should have been discarded.
    have hown := hkeeps.own ⟨image, frame⟩ (by simp)
    exact absurd (hkeeps.discarded (overwritten_of_mem hown hother hslot huntouched)) (by simp)
  · intro hnone
    by_cases hopen : .ended session ∈ before
    · rw [if_pos hopen] at himages
      subst himages
      exact ⟨by simp, fun _ => rfl⟩
    rw [if_neg hopen] at himages
    cases hheld :
        heldAfter (mapCapacity settings) session (image.pts % mapCapacity settings) before with
    | none =>
      rw [hheld] at himages
      subst himages
      exact ⟨by simp, fun _ => rfl⟩
    | some frame =>
      obtain ⟨first, other, rest, rfl, hslot, hnull, huntouched⟩ := heldAfter_eq_some_iff.mp hheld
      have hsame : other = image.pts := by
        by_contra hother
        exact hnone frame ⟨hopen, first, other, rest, rfl, hother, hslot, hnull, huntouched⟩
      subst hsame
      rw [hheld] at himages
      subst himages
      refine ⟨by simp, fun hoverwritten => ?_⟩
      exact absurd hoverwritten (not_overwritten hpairwise huntouched)

/-- Two pictures in the only slot there is. -/
def sharedSlot : List Operation :=
  [.queue 0 (TestPattern.parameterSets .h264) 0, .queue 0 (TestPattern.keyframeSlice .h264) 1,
    .queue 0 (TestPattern.deltaSlice .h264) 2]

/-- Once the newer picture had its image, the older one's is discarded. -/
theorem keepsIdentity_after_newer :
    let older := SimulatedSession.imageByHand 1
    let newer := SimulatedSession.imageByHand 2
    let before := [.submitted 0 1 1, .submitted 0 2 2, .presented 0 newer [⟨newer, 2⟩]]
    (TrialPipeline.manual { frameIndexCapacity := 1 } {} 4).history
        (sharedSlot ++ [.prompt 0 (.present 2), .prompt 0 (.present 1)]) =
      before ++ [.presented 0 older []] ∧ KeepsIdentity 1 0 older.pts before [] := by
  refine ⟨rfl, ?_⟩
  apply (keepsIdentity_iff { frameIndexCapacity := 1 } {} 4
    (sharedSlot ++ [.prompt 0 (.present 2), .prompt 0 (.present 1)]) rfl).1.mpr
  intro frame hanother
  exact nomatch hanother.heldAfter_eq

/-- Before that, the older picture's image is published with the newer one's frame. -/
theorem foreign_frame_published :
    ¬ ∀ (settings : DecoderSettings) (links : Links) (inputBuffers : Nat)
      (operations : List Operation) (before after : List Occurrence) (session : Nat)
      (image : SurfaceImage) (images : List DecodedImage),
      (TrialPipeline.manual settings links inputBuffers).history operations =
        before ++ .presented session image images :: after →
      KeepsIdentity (mapCapacity settings) session image.pts before images := by
  intro hall
  let image := SimulatedSession.imageByHand 1
  have hkeeps := hall { frameIndexCapacity := 1 } {} 4 (sharedSlot ++ [.prompt 0 (.present 1)])
    [.submitted 0 1 1, .submitted 0 2 2] [] 0 image [⟨image, 2⟩] rfl
  have hpts : image.pts = 1 := SimulatedSession.imageByHand_pts (by decide)
  have hown := hkeeps.own ⟨image, 2⟩ (by simp)
  simp [hpts] at hown

end HeadsetStream.Decoder
