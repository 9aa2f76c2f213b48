import HeadsetStream.Proofs.LastSetting
import HeadsetStream.Proofs.ManualDecoding

/-!
# What a slot holds, read off the history

For each session and slot the history tells the frame that the slot holds: that of the last picture
submitted to it, unless an image of the slot was presented since. This is the invariant of every run
by hand. From it each occurrence is explained by the ones before: an image is published exactly with
the frame that its slot holds, an output event reports that frame, and timestamps increase.
-/

namespace HeadsetStream.Decoder
open Video Settings Bitstream

/-- A property that every occurrence of a history has with regard to the ones before it. -/
def Throughout (P : List Occurrence → Occurrence → Prop) (before : List Occurrence) :
    List Occurrence → Prop
  | [] => True
  | occurrence :: rest => P before occurrence ∧ Throughout P (before ++ [occurrence]) rest

theorem Throughout.append {P : List Occurrence → Occurrence → Prop}
    {before first rest : List Occurrence} (hfirst : Throughout P before first)
    (hrest : Throughout P (before ++ first) rest) : Throughout P before (first ++ rest) := by
  induction first generalizing before with
  | nil => simpa using hrest
  | cons occurrence first ih =>
    refine ⟨hfirst.1, ih hfirst.2 ?_⟩
    simpa using hrest

theorem Throughout.at_split {P : List Occurrence → Occurrence → Prop}
    {past first : List Occurrence} {occurrence : Occurrence} {rest : List Occurrence}
    (h : Throughout P past (first ++ occurrence :: rest)) : P (past ++ first) occurrence := by
  induction first generalizing past with
  | nil => simpa using h.1
  | cons earlier first ih => simpa using ih h.2

/-- What a slot of a session holds after an occurrence that changes it. -/
def Occurrence.slotSetting (capacity session slot : Nat) :
    Occurrence → Option (Option FrameIndex)
  | .submitted s pts frame =>
    if s = session ∧ pts % capacity = slot then some frame.named? else none
  | .presented s image _ =>
    if s = session ∧ image.pts % capacity = slot then some none else none
  | .handled .. | .ended _ => none

/-- What a slot of a session holds after a history. -/
def heldAfter (capacity session slot : Nat) (history : List Occurrence) : Option FrameIndex :=
  lastSet (Occurrence.slotSetting capacity session slot) none history

/-- Submits a picture to a slot of a session, or presents an image of it. -/
def Occurrence.Touches (capacity session slot : Nat) : Occurrence → Prop
  | .submitted s pts _ => s = session ∧ pts % capacity = slot
  | .presented s image _ => s = session ∧ image.pts % capacity = slot
  | .handled .. | .ended _ => False

instance (capacity session slot : Nat) :
    DecidablePred (Occurrence.Touches capacity session slot)
  | .submitted .. | .presented .. => inferInstanceAs (Decidable (_ ∧ _))
  | .handled .. | .ended _ => inferInstanceAs (Decidable False)

section

variable {capacity session slot : Nat} {history first rest : List Occurrence}

theorem Occurrence.slotSetting_eq_none_iff {occurrence : Occurrence} :
    occurrence.slotSetting capacity session slot = none ↔
      ¬ occurrence.Touches capacity session slot := by
  cases occurrence <;> simp [slotSetting, Touches]

theorem Occurrence.slotSetting_eq_some_iff {occurrence : Occurrence} {frame : FrameIndex} :
    occurrence.slotSetting capacity session slot = some (some frame) ↔
      ∃ pts, occurrence = .submitted session pts frame ∧ pts % capacity = slot ∧
        frame ≠ .null := by
  cases occurrence with
  | submitted s pts index =>
    have hset : (submitted s pts index).slotSetting capacity session slot = some (some frame) ↔
        (s = session ∧ pts % capacity = slot) ∧ index = frame ∧ frame ≠ .null := by
      rw [← FrameIndex.named?_eq_some_iff]
      simp [slotSetting]
    rw [hset]
    constructor
    · rintro ⟨⟨rfl, hslot⟩, rfl, hnull⟩
      exact ⟨pts, rfl, hslot, hnull⟩
    · rintro ⟨pts', heq, hslot, hnull⟩
      cases heq
      exact ⟨⟨rfl, hslot⟩, rfl, hnull⟩
  | presented s image images => simp [slotSetting]
  | handled s pts frames => simp [slotSetting]
  | ended s => simp [slotSetting]

@[simp] theorem heldAfter_append_singleton (occurrence : Occurrence) :
    heldAfter capacity session slot (history ++ [occurrence]) =
      (occurrence.slotSetting capacity session slot).getD
        (heldAfter capacity session slot history) :=
  lastSet_append_singleton

/-- A slot holds the frame of the last picture submitted to it, if no image of the slot was
presented since. -/
theorem heldAfter_eq_some_iff {frame : FrameIndex} :
    heldAfter capacity session slot history = some frame ↔
      ∃ first pts rest, history = first ++ .submitted session pts frame :: rest ∧
        pts % capacity = slot ∧ frame ≠ .null ∧
        ∀ occurrence ∈ rest, ¬ occurrence.Touches capacity session slot := by
  rw [heldAfter, lastSet_eq_iff (by simp)]
  constructor
  · rintro ⟨first, occurrence, rest, rfl, hset, hrest⟩
    obtain ⟨pts, rfl, hslot, hnull⟩ := Occurrence.slotSetting_eq_some_iff.mp hset
    exact ⟨first, pts, rest, rfl, hslot, hnull, fun later hlater =>
      Occurrence.slotSetting_eq_none_iff.mp (hrest later hlater)⟩
  · rintro ⟨first, pts, rest, rfl, hslot, hnull, hrest⟩
    exact ⟨first, _, rest, rfl, Occurrence.slotSetting_eq_some_iff.mpr ⟨pts, rfl, hslot, hnull⟩,
      fun later hlater => Occurrence.slotSetting_eq_none_iff.mpr (hrest later hlater)⟩

/-- An empty slot stays empty until a picture is submitted to it. -/
theorem heldAfter_append_eq_none (hfirst : heldAfter capacity session slot first = none)
    (h : ∀ pts frame, .submitted session pts frame ∈ rest → pts % capacity ≠ slot) :
    heldAfter capacity session slot (first ++ rest) = none := by
  apply lastSet_append_of_kept hfirst
  intro occurrence hmem
  cases occurrence with
  | submitted s pts frame =>
    refine .inl (if_neg ?_)
    rintro ⟨rfl, hslot⟩
    exact h pts frame hmem hslot
  | presented s image images => exact (em _).symm.imp (if_neg ·) (if_pos ·)
  | handled s pts frames => exact .inl rfl
  | ended s => exact .inl rfl

theorem heldAfter_of_not_submitted
    (h : ∀ pts frame, .submitted session pts frame ∉ history) :
    heldAfter capacity session slot history = none :=
  heldAfter_append_eq_none (rfl : heldAfter capacity session slot [] = none)
    fun pts frame hmem => absurd hmem (h pts frame)

end

/-- What the history before an occurrence says of it. -/
def Explains (latency : Bool) (capacity : Nat) (before : List Occurrence) : Occurrence → Prop
  | .submitted session pts _ =>
    .ended session ∉ before ∧ 0 < pts ∧
      ∀ session' pts' frame', .submitted session' pts' frame' ∈ before → pts' < pts
  | .presented session image images =>
    images =
      if .ended session ∈ before then []
      else ((heldAfter capacity session (image.pts % capacity) before).map (⟨image, ·⟩)).toList
  | .handled session pts frames =>
    frames =
      if latency then (heldAfter capacity session (pts % capacity) before).toList else []
  | .ended _ => True

/-- A current session by hand whose frame map holds what the history says. -/
structure Session.Follows (session : Session SimulatedSession) (capacity number : Nat)
    (history : List Occurrence) : Prop where
  byHand : session.engine.mode = .manual
  idle : session.surface.Idle
  capacity_eq : session.surface.frames.capacity = capacity
  slots : ∀ pts,
    session.surface.frames.get? pts = heldAfter capacity number (pts % capacity) history

/-- How many slots the frame maps of a pipeline have. -/
def mapCapacity (settings : DecoderSettings) : Nat := max settings.frameIndexCapacity 1

/-- A pipeline by hand whose sessions are as the history of its run says. -/
structure TrialPipeline.Follows (settings : DecoderSettings) (links : Links)
    (history : List Occurrence) (pipeline : TrialPipeline) : Prop where
  settings_eq : pipeline.settings = settings
  links_eq : pipeline.links = links
  byHand : pipeline.engine.mode = .manual
  free : pipeline.busy = false
  clock : ∀ session pts frame, .submitted session pts frame ∈ history → pts ≤ pipeline.clock.last
  opened : ∀ session pts frame,
    .submitted session pts frame ∈ history → session < pipeline.sessions.length
  ended : ∀ session, .ended session ∈ history ↔ session < pipeline.past.length
  past : ∀ session ∈ pipeline.past, session.surface.Shut
  current : ∀ session, pipeline.current = some session →
    session.Follows (mapCapacity settings) pipeline.past.length history

namespace Session.Follows

variable {session session' : Session SimulatedSession} {capacity number : Nat}
  {history : List Occurrence}

theorem inert (h : session.Follows capacity number history) {occurrence : Occurrence}
    (hinert : ∀ slot, ¬ occurrence.Touches capacity number slot) :
    session.Follows capacity number (history ++ [occurrence]) := by
  refine ⟨h.byHand, h.idle, h.capacity_eq, fun pts => ?_⟩
  rw [heldAfter_append_singleton, Occurrence.slotSetting_eq_none_iff.mpr (hinert _), h.slots]
  rfl

theorem of_surface_eq (h : session.Follows capacity number history)
    (hsurface : session'.surface = session.surface) (hbyHand : session'.engine.mode = .manual) :
    session'.Follows capacity number history := by
  refine ⟨hbyHand, ?_, ?_, ?_⟩ <;> rw [hsurface]
  · exact h.idle
  · exact h.capacity_eq
  · exact h.slots

theorem submit (h : session.Follows capacity number history) (pts : Nat) (frame : FrameIndex) :
    (session.withFrames (session.surface.frames.set pts frame)).Follows capacity number
      (history ++ [.submitted number pts frame]) := by
  refine ⟨h.byHand, h.idle.withFrames _, h.capacity_eq, fun pts' => ?_⟩
  rw [Session.withFrames, FrameMap.get?_set, h.capacity_eq, h.slots, heldAfter_append_singleton]
  simp only [Occurrence.slotSetting, true_and]
  split <;> rfl

theorem present (h : session.Follows capacity number history) (image : SurfaceImage)
    (images : List DecodedImage) :
    (session.withFrames (session.surface.frames.take image.pts).2).Follows capacity number
      (history ++ [.presented number image images]) := by
  refine ⟨h.byHand, h.idle.withFrames _, h.capacity_eq, fun pts' => ?_⟩
  rw [Session.withFrames, FrameMap.get?_take, h.capacity_eq, h.slots, heldAfter_append_singleton]
  simp only [Occurrence.slotSetting, true_and]
  split <;> rfl

end Session.Follows

end HeadsetStream.Decoder
