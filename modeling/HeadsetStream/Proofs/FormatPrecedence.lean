import HeadsetStream.Decoder.Format
import HeadsetStream.Proofs.TableOrder

/-!
# What a stream's format holds

Four kinds of options are laid over the media type and the size of a stream, and what the client
insists on is laid over all of them. So under each key the format holds the value of the last layer
that has the key, and nothing under a key that no layer has. This rests on the order of a table's
keys: no key has two entries, so that it does not matter which of them is laid on last.
-/

namespace HeadsetStream.Decoder.MediaFormat
open Settings

/-- What the client insists on under a key. -/
def fixed? (csd : Bytes) (realtime : Bool) : String → Option FormatValue
  | "operating-rate" => some (.int32 32767)
  | "priority" => some (.int32 (if realtime then 0 else 1))
  | "low-latency" => some (.int32 1)
  | "csd-0" => some (.buffer csd)
  | _ => none

/-- What a format starts from under a key. -/
def initial? (codec : Bitstream.Codec) : String → Option FormatValue
  | "mime" => some (.string codec.mime)
  | "width" => some (.int32 512)
  | "height" => some (.int32 1024)
  | _ => none

/-- The options under a key, the kind that counts most first. -/
def offers (options : DecoderOptions) (key : String) : List FormatValue :=
  ((options.int32.get? key).map .int32).toList ++ ((options.int64.get? key).map .int64).toList ++
    ((options.float.get? key).map .float).toList ++ ((options.string.get? key).map .string).toList

/-- What is to be held under a key: what is fixed, else the first option, else what it starts
from. -/
def winner (settings : DecoderSettings) (csd : Bytes) (key : String) : Option FormatValue :=
  (fixed? csd settings.realtimePriority key).or
    ((offers settings.options key).head?.or (initial? settings.codec key))

/-- All that can be asked of a format about one key. -/
structure Holds (format : MediaFormat) (key : String) (held : Option FormatValue) : Prop where
  entries : ∀ value, (key, value) ∈ format.entries ↔ held = some value
  any : format.get? key = held
  int32 : ∀ i, format.int32? key = some i ↔ held = some (.int32 i)
  string : ∀ text, format.string? key = some text ↔ held = some (.string text)
  buffer : ∀ bytes, format.buffer? key = some bytes ↔ held = some (.buffer bytes)

private theorem holds_get? (format : MediaFormat) (key : String) :
    format.Holds key (format.get? key) := by
  refine ⟨fun value => format.mem_entries_iff, rfl, fun i => ?_, fun text => ?_, fun bytes => ?_⟩
  · unfold int32?
    split <;> simp_all
  · unfold string?
    split <;> simp_all
  · unfold buffer?
    split <;> simp_all

private theorem get?_fixed (csd : Bytes) (realtime : Bool) (key : String) :
    (fixed csd realtime).get? key = fixed? csd realtime key := by
  simp only [fixed, Table.ofList, List.foldl_cons, List.foldl_nil, Table.get?_insert,
    Table.get?_empty, operatingRate]
  symm
  unfold fixed?
  split <;> simp_all

private theorem get?_base (codec : Bitstream.Codec) (key : String) :
    (base codec).get? key = initial? codec key := by
  simp only [base, Table.ofList, List.foldl_cons, List.foldl_nil, Table.get?_insert,
    Table.get?_empty, initialWidth, initialHeight]
  symm
  unfold initial?
  split <;> simp_all

private theorem get?_withOptions (options : DecoderOptions) (format : MediaFormat) (key : String) :
    (format.withOptions options).get? key = (offers options key).head?.or (format.get? key) := by
  rw [withOptions, Table.get?_overlay, Table.get?_overlay, Table.get?_overlay, Table.get?_overlay,
    offers]
  cases options.int32.get? key <;> cases options.int64.get? key <;>
    cases options.float.get? key <;> cases options.string.get? key <;> rfl

theorem get?_video_of_fixed (settings : DecoderSettings) (csd : Bytes) (key : String) :
    (video settings csd).get? key =
      (fixed? csd settings.realtimePriority key).or
        (((base settings.codec).withOptions settings.options).get? key) := by
  rw [video, Table.get?_overlay, get?_fixed, Option.map_id]
  rfl

/-- Whatever the options are, the parameter sets go out with the format. -/
theorem buffer?_video (settings : DecoderSettings) (csd : Bytes) :
    (video settings csd).buffer? "csd-0" = some csd := by
  rw [buffer?, get?_video_of_fixed]
  rfl

/-- A format has no key twice, and holds under each key the winner: what is fixed, else the 32-bit
option, else the 64-bit one, else the number with a fraction, else the text, else what the format
starts from. So an option that nothing is fixed for and that no other kind has is handed on as it
is. -/
theorem video_holds_winner (settings : DecoderSettings) (csd : Bytes) :
    ((video settings csd).entries.Pairwise fun entry later => entry.1 < later.1) ∧ ∀ key,
      (video settings csd).Holds key (winner settings csd key) ∧
      ∀ value, fixed? csd settings.realtimePriority key = none →
        offers settings.options key = [value] → (video settings csd).Holds key (some value) := by
  refine ⟨(video settings csd).ordered, fun key => ?_⟩
  have hwinner : (video settings csd).get? key = winner settings csd key := by
    rw [get?_video_of_fixed, get?_withOptions, get?_base]
    rfl
  have hholds := (video settings csd).holds_get? key
  rw [hwinner] at hholds
  refine ⟨hholds, fun value hfixed hoffers => ?_⟩
  have hvalue : winner settings csd key = some value := by
    rw [winner, hfixed, hoffers]
    rfl
  rwa [hvalue] at hholds

/-- Options of which one is of two kinds, one is fixed and one replaces the media type. -/
def mixedOptions : DecoderOptions where
  string := .ofList [("rate", "fast"), ("mime", "video/x-trial")]
  float := .ofList [("operating-rate", 60)]
  int64 := .ofList [("rate", 5)]

theorem mixedOptions_held :
    let settings : DecoderSettings := { options := mixedOptions }
    (video settings []).Holds "rate" (some (.int64 5)) ∧
      (video settings []).Holds "mime" (some (.string "video/x-trial")) ∧
      (video settings []).Holds "operating-rate" (some (.int32 32767)) ∧
      (video settings []).Holds "height" (some (.int32 1024)) ∧
      (video settings []).Holds "depth" none := by
  intro settings
  obtain ⟨-, hholds⟩ := video_holds_winner settings []
  exact ⟨(hholds "rate").1, (hholds "mime").2 _ rfl rfl, (hholds "operating-rate").1,
    (hholds "height").1, (hholds "depth").1⟩

end HeadsetStream.Decoder.MediaFormat
