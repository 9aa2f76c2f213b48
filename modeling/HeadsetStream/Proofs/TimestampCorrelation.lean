import HeadsetStream.Bitstream.TestPattern
import HeadsetStream.Proofs.HandRuns

/-!
# Timestamps tell frames apart

In any run by hand timestamps increase, through all sessions. A picture whose slot is not touched
before its image is presented is published with its own frame, exactly once, and its output events
report that frame; a slot whose pictures have all been presented publishes nothing.
-/

namespace HeadsetStream.Decoder
open Video Settings Bitstream

/-- The timestamps of the pictures that were submitted, in order. -/
def submittedTimes (history : List Occurrence) : List Nat :=
  history.filterMap fun
    | .submitted _ pts _ => some pts
    | _ => none

/-- After each picture that was submitted to a slot of a session an image of the slot was
presented. -/
def SlotConsumed (capacity session slot : Nat) (history : List Occurrence) : Prop :=
  ∀ first pts frame rest, history = first ++ .submitted session pts frame :: rest →
    pts % capacity = slot →
    ∃ image images, .presented session image images ∈ rest ∧ image.pts % capacity = slot

theorem mem_submittedTimes {history : List Occurrence} {pts : Nat} :
    pts ∈ submittedTimes history ↔ ∃ session frame, .submitted session pts frame ∈ history := by
  unfold submittedTimes
  rw [List.mem_filterMap]
  constructor
  · rintro ⟨occurrence, hmem, hpts⟩
    cases occurrence with
    | submitted session pts' frame =>
      cases hpts
      exact ⟨session, frame, hmem⟩
    | presented session image images => exact nomatch hpts
    | handled session pts' frames => exact nomatch hpts
    | ended session => exact nomatch hpts
  · rintro ⟨session, frame, hmem⟩
    exact ⟨_, hmem, rfl⟩

private theorem SlotConsumed.heldAfter_eq_none {capacity session slot : Nat}
    {history : List Occurrence} (h : SlotConsumed capacity session slot history) :
    heldAfter capacity session slot history = none := by
  rw [Option.eq_none_iff_forall_ne_some]
  intro frame hheld
  obtain ⟨first, pts, rest, rfl, hslot, -, huntouched⟩ := heldAfter_eq_some_iff.mp hheld
  obtain ⟨image, images, hmem, hslot'⟩ := h first pts frame rest rfl hslot
  exact huntouched _ hmem ⟨rfl, hslot'⟩

section

variable {latency : Bool} {capacity : Nat} {before history : List Occurrence}

/-- Timestamps increase, and are later than those before. -/
theorem Throughout.submittedTimes_pairwise
    (h : Throughout (Explains latency capacity) before history) :
    (submittedTimes history).Pairwise (· < ·) ∧
      ∀ pts ∈ submittedTimes history,
        0 < pts ∧ ∀ earlier ∈ submittedTimes before, earlier < pts := by
  induction history generalizing before with
  | nil => exact ⟨List.Pairwise.nil, by simp [submittedTimes]⟩
  | cons occurrence rest ih =>
    obtain ⟨hpairwise, hlater⟩ := ih h.2
    have hbefore : ∀ pts ∈ submittedTimes rest,
        0 < pts ∧ ∀ earlier ∈ submittedTimes before, earlier < pts := by
      intro pts hpts
      obtain ⟨hpos, hafter⟩ := hlater pts hpts
      refine ⟨hpos, fun earlier hearlier => hafter earlier ?_⟩
      rw [submittedTimes, List.filterMap_append]
      exact List.mem_append_left _ hearlier
    cases occurrence with
    | submitted session pts frame =>
      obtain ⟨-, hpos, hafter⟩ := h.1
      refine ⟨List.pairwise_cons.mpr ⟨?_, hpairwise⟩, ?_⟩
      · intro later hmem
        refine (hlater later hmem).2 pts ?_
        simp [submittedTimes]
      · intro pts' hmem
        rcases List.mem_cons.mp hmem with rfl | hmem
        · refine ⟨hpos, fun earlier hearlier => ?_⟩
          obtain ⟨session', frame', hsubmitted⟩ := mem_submittedTimes.mp hearlier
          exact hafter session' earlier frame' hsubmitted
        · exact hbefore pts' hmem
    | presented session image images => exact ⟨hpairwise, hbefore⟩
    | handled session pts frames => exact ⟨hpairwise, hbefore⟩
    | ended session => exact ⟨hpairwise, hbefore⟩

/-- A picture is still in its slot while the slot is not touched. -/
theorem heldAfter_of_submitted {session pts : Nat} {frame : FrameIndex}
    {between : List Occurrence} (hnull : frame ≠ .null)
    (huntouched : ∀ occurrence ∈ between,
      ¬ occurrence.Touches capacity session (pts % capacity)) :
    heldAfter capacity session (pts % capacity)
      (before ++ .submitted session pts frame :: between) = some frame :=
  heldAfter_eq_some_iff.mpr ⟨before, pts, between, rfl, rfl, hnull, huntouched⟩

/-- Where a slot is empty, nothing is published for its images. -/
theorem Explains.images_eq_nil {session : Nat} {image : SurfaceImage}
    {images : List DecodedImage}
    (h : Explains latency capacity before (.presented session image images))
    (hheld : heldAfter capacity session (image.pts % capacity) before = none) : images = [] := by
  have hexplained : images = _ := h
  rw [hexplained, hheld]
  split <;> rfl

end

section

variable {latency : Bool} {capacity session pts : Nat} {frame : FrameIndex}
  {image image' : SurfaceImage} {images images' : List DecodedImage}
  {before between middle after : List Occurrence}

theorem Throughout.published
    (h : Throughout (Explains latency capacity) [] (before ++
      .submitted session pts frame :: (between ++ .presented session image images :: after)))
    (hpts : image.pts = pts) (hnull : frame ≠ .null) (hended : .ended session ∉ between)
    (huntouched : ∀ occurrence ∈ between,
      ¬ occurrence.Touches capacity session (pts % capacity)) :
    images = [⟨image, frame⟩] := by
  have hopen : .ended session ∉ before := h.at_split.1
  rw [← List.cons_append, ← List.append_assoc] at h
  have himages : images = _ := h.at_split
  have hnot : .ended session ∉ before ++ .submitted session pts frame :: between := by
    simp [hopen, hended]
  rw [himages, List.nil_append, if_neg hnot, hpts, heldAfter_of_submitted hnull huntouched]
  rfl

theorem Throughout.reported {frames : List FrameIndex}
    (h : Throughout (Explains latency capacity) [] (before ++
      .submitted session pts frame :: (between ++ .handled session pts frames :: after)))
    (hnull : frame ≠ .null)
    (huntouched : ∀ occurrence ∈ between,
      ¬ occurrence.Touches capacity session (pts % capacity)) :
    frames = if latency then [frame] else [] := by
  rw [← List.cons_append, ← List.append_assoc] at h
  have hframes : frames = _ := h.at_split
  rw [hframes, List.nil_append, heldAfter_of_submitted hnull huntouched]
  rfl

private theorem Throughout.nothing_more
    (h : Throughout (Explains latency capacity) [] (before ++
      .presented session image images :: (middle ++ .presented session image' images' :: after)))
    (hslot : image'.pts % capacity = image.pts % capacity)
    (hnewer : ∀ newer index, .submitted session newer index ∈ middle →
      newer % capacity ≠ image.pts % capacity) :
    images' = [] := by
  rw [← List.cons_append, ← List.append_assoc] at h
  apply h.at_split.images_eq_nil
  rw [List.nil_append, hslot, List.append_cons]
  apply heldAfter_append_eq_none ?_ hnewer
  rw [heldAfter_append_singleton]
  simp [Occurrence.slotSetting]

end

/-- Whatever is queued, prompted and handled in whatever order: timestamps are positive and
increase; if between a picture and its image nothing touches its slot and its session does not end,
the image is published with the picture's frame, its outputs report that frame, and images of the
slot publish nothing more until a picture is submitted to it again; and an image publishes nothing
if every picture of its slot was followed by an image of the slot. The picture's image is the one
with its timestamp, and the slot of an image goes by the timestamp that it has, whatever it was
presented for. -/
theorem timestamps_correlate (settings : DecoderSettings) (links : Links) (inputBuffers : Nat)
    (operations : List Operation) :
    let capacity := mapCapacity settings
    let history := (TrialPipeline.manual settings links inputBuffers).history operations
    ((submittedTimes history).Pairwise (· < ·) ∧ ∀ pts ∈ submittedTimes history, 0 < pts) ∧
    (∀ before session pts frame between image images after,
      history = before ++
        .submitted session pts frame :: (between ++ .presented session image images :: after) →
      image.pts = pts → frame ≠ .null → .ended session ∉ between →
      (∀ occurrence ∈ between, ¬ occurrence.Touches capacity session (pts % capacity)) →
      images = [⟨image, frame⟩] ∧
      (∀ frames, .handled session pts frames ∈ between →
        frames = if links.latency then [frame] else []) ∧
      ∀ middle image' images' later,
        after = middle ++ .presented session image' images' :: later →
        image'.pts % capacity = pts % capacity →
        (∀ newer index, .submitted session newer index ∈ middle →
          newer % capacity ≠ pts % capacity) →
        images' = []) ∧
    ∀ before session image images after,
      history = before ++ .presented session image images :: after →
      SlotConsumed capacity session (image.pts % capacity) before → images = [] := by
  intro capacity history
  have hexplained : Throughout (Explains links.latency capacity) [] history :=
    (TrialPipeline.Follows.manual settings links inputBuffers).throughout_history operations
  refine ⟨?_, ?_, ?_⟩
  · obtain ⟨hpairwise, hpositive⟩ := hexplained.submittedTimes_pairwise
    exact ⟨hpairwise, fun pts hpts => (hpositive pts hpts).1⟩
  · intro before session pts frame between image images after hsplit hpts hnull hended huntouched
    rw [hsplit] at hexplained
    refine ⟨hexplained.published hpts hnull hended huntouched, ?_, ?_⟩
    · intro frames hmem
      obtain ⟨first, rest, rfl⟩ := List.append_of_mem hmem
      rw [List.append_assoc, List.cons_append] at hexplained
      apply hexplained.reported hnull
      intro occurrence hoccurrence
      exact huntouched occurrence (List.mem_append_left _ hoccurrence)
    · intro middle image' images' later hafter hslot hnewer
      rw [hafter, ← List.cons_append, ← List.append_assoc] at hexplained
      rw [← hpts] at hslot hnewer
      exact hexplained.nothing_more hslot hnewer
  · intro before session image images after hsplit hconsumed
    rw [hsplit] at hexplained
    apply hexplained.at_split.images_eq_nil
    rw [List.nil_append]
    exact hconsumed.heldAfter_eq_none

/-- Two pictures, the images of which come the other way round. -/
def crossedRun : List Operation :=
  [.queue 0 (TestPattern.parameterSets .h264) 0, .queue 0 (TestPattern.keyframeSlice .h264) 1,
    .queue 0 (TestPattern.deltaSlice .h264) 2, .prompt 0 (.complete 1), .handle, .handle,
    .prompt 0 (.present 2), .prompt 0 (.present 1), .prompt 0 (.present 1)]

/-- The first of two pictures has its output and its image, though the second one's comes before. -/
theorem timestamps_correlate_crossed :
    let image := SimulatedSession.imageByHand
    ∃ between images again,
      (TrialPipeline.manual {} {} 4).history crossedRun = .submitted 0 1 1 ::
        (between ++ .presented 0 (image 1) images :: [.presented 0 (image 1) again]) ∧
      .handled 0 1 [1] ∈ between ∧ images = [⟨image 1, 1⟩] ∧ again = [] := by
  intro image
  have hfirst : (image 1).pts = 1 := SimulatedSession.imageByHand_pts (by decide)
  have hsecond : (image 2).pts = 2 := SimulatedSession.imageByHand_pts (by decide)
  let between : List Occurrence :=
    [.submitted 0 2 2, .handled 0 1 [1], .presented 0 (image 2) [⟨image 2, 2⟩]]
  obtain ⟨himages, -, hagain⟩ := (timestamps_correlate {} {} 4 crossedRun).2.1 [] 0 1 1 between
    (image 1) [⟨image 1, 1⟩] [.presented 0 (image 1) []] rfl hfirst (by decide)
    (by simp [between]) (by simp [between, Occurrence.Touches, mapCapacity, hsecond])
  exact ⟨between, _, _, rfl, by simp [between], himages,
    hagain [] (image 1) [] [] rfl (by rw [hfirst]) (by simp)⟩

end HeadsetStream.Decoder
