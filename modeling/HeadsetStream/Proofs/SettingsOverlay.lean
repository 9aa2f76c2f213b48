import HeadsetStream.Proofs.JsonTexts
import HeadsetStream.Proofs.NumberReading
import HeadsetStream.Proofs.TableOrder
import HeadsetStream.Settings.Reading
import Mathlib.Data.List.Forall2
import Mathlib.Data.List.Nodup

/-!
# A configuration file is laid over the defaults

A file sets what it names and leaves the rest alone, in nested records as well. `ClientChoice` is
what a file sets and `laidOver` lays it over other settings. A text that writes a choice, whatever
the order of its members and whatever else stands among them, is read as the choice over the
defaults.
-/

namespace HeadsetStream.Json

/-- What may be given under a name. -/
structure Field where
  name : String
  Takes : Option Value → Prop

/-- The members of an object with their names as text. -/
def named (members : List (String × Value)) : List (Text × Value) :=
  members.map fun (name, value) => (some name, value)

/-- An object that gives each of the fields once at most, and only what it takes. What other members
there are, and where, is left open. -/
def HasFields (fields : List Field) (value : Value) : Prop :=
  ∃ members : List (String × Value), value = .object (named members) ∧
    ∀ field ∈ fields, ∃ given : Option Value, field.Takes given ∧
      (members.filter (·.1 == field.name)).map (·.2) = given.toList

theorem named?_named (members : List (String × Value)) : named? (named members) = some members := by
  induction members with
  | nil => rfl
  | cons member rest ih =>
    rw [named?, named, List.map_cons, List.mapM_cons, ← named, ← named?, ih]
    rfl

private theorem lookup_eq_head? {β : Type} (entries : List (String × β)) (name : String) :
    entries.lookup name = ((entries.filter (·.1 == name)).map (·.2)).head? := by
  induction entries with
  | nil => rfl
  | cons entry rest ih =>
    obtain ⟨key, value⟩ := entry
    rw [List.lookup_cons, List.filter_cons]
    by_cases hkey : key = name
    · subst hkey
      simp
    · simp [hkey, ih, beq_eq_false_iff_ne.mpr (Ne.symm hkey)]

/-- The fields of an object are found whatever stands between them. -/
theorem HasFields.record {fields : List Field} {value : Value} (h : HasFields fields value) :
    ∃ record, Record.of? (fields.map (·.name)) value = some record ∧
      fields.Forall fun field => field.Takes (record.given.lookup field.name) := by
  obtain ⟨members, rfl, hfields⟩ := h
  let names := fields.map (·.name)
  let known := members.filter (names.contains ·.1)
  have hknown : ∀ field ∈ fields,
      known.filter (·.1 == field.name) = members.filter (·.1 == field.name) := by
    intro field hfield
    rw [List.filter_filter]
    refine List.filter_congr fun member _ => Bool.and_eq_left_iff_imp.mpr fun hname => ?_
    rw [beq_iff_eq.mp hname]
    exact List.contains_iff_mem.mpr (List.mem_map_of_mem hfield)
  have hnodup : (known.map (·.1)).Nodup := by
    rw [List.nodup_iff_count_le_one]
    intro name
    rw [List.count, List.countP_map, List.countP_eq_length_filter]
    by_cases hname : name ∈ names
    · obtain ⟨field, hfield, rfl⟩ := List.mem_map.mp hname
      obtain ⟨given, -, hgiven⟩ := hfields field hfield
      have hlength := congrArg List.length hgiven
      rw [List.length_map, ← hknown field hfield] at hlength
      refine hlength.trans_le ?_
      cases given <;> simp
    · have hnone : known.filter (·.1 == name) = [] := by
        rw [List.filter_eq_nil_iff]
        intro member hmember hsame
        rw [← beq_iff_eq.mp hsame] at hname
        exact hname (List.contains_iff_mem.mp (List.mem_filter.mp hmember).2)
      exact (congrArg List.length hnone).trans_le (Nat.zero_le 1)
  refine ⟨⟨true, known⟩, ?_, List.forall_iff_forall_mem.mpr fun field hfield => ?_⟩
  · simp only [Record.of?, named?_named]
    exact if_pos hnodup
  · obtain ⟨given, htakes, hgiven⟩ := hfields field hfield
    rw [lookup_eq_head?, hknown field hfield, hgiven]
    cases given <;> exact htakes

/-- What writes `a` is read as `f a`. -/
def Reads {α β : Type} (Writes : α → Value → Prop) (read : Value → Option β) (f : α → β) : Prop :=
  ∀ a value, Writes a value → read value = some (f a)

/-- A field is read as it was chosen, or it stands for its default. -/
theorem Reads.getD? {α β : Type} {Writes : α → Value → Prop} {read : Value → Option β} {f : α → β}
    (hreads : Reads Writes read f) {record : Record} {name : String} {choice : Option α}
    (h : Option.Rel Writes choice (record.given.lookup name)) (default : β) :
    record.getD? name read default = some ((choice.map f).getD default) := by
  unfold Record.getD?
  cases hlookup : record.given.lookup name with
  | none =>
    rw [hlookup] at h
    cases h
    rfl
  | some value =>
    rw [hlookup] at h
    cases h with
    | some hwrites => exact hreads _ _ hwrites

theorem Reads.getD?_self {α : Type} {Writes : α → Value → Prop} {read : Value → Option α}
    (hreads : Reads Writes read id) {record : Record} {name : String} {choice : Option α}
    (h : Option.Rel Writes choice (record.given.lookup name)) (default : α) :
    record.getD? name read default = some (choice.getD default) := by
  rw [hreads.getD? h, Option.map_id]
  rfl

end HeadsetStream.Json

namespace HeadsetStream.Settings
open Json Signal

/-! ## What values write -/

def WritesBool (b : Bool) (value : Value) : Prop := value = .bool b

/-- A number that means `x` in single precision. -/
def WritesSingle (x : Float32) (value : Value) : Prop :=
  ∃ n : Json.Number, value = .number n ∧ n.Denotes x

/-- An integer from `lo` to below `hi`. -/
def WritesInt (lo hi i : Int) (value : Value) : Prop :=
  lo ≤ i ∧ i < hi ∧ value = .number ⟨i < 0, i.natAbs, 0, true⟩

def WritesNat (bits n : Nat) (value : Value) : Prop := WritesInt 0 (2 ^ bits) n value

def WritesSigned (bits : Nat) (i : Int) (value : Value) : Prop :=
  WritesInt (-2 ^ (bits - 1)) (2 ^ (bits - 1)) i value

def WritesText (text : String) (value : Value) : Prop := value = .string (some text)

/-- The name of a choice, or an object with that one name and null. -/
def WritesName (name : String) (value : Value) : Prop :=
  value = .string (some name) ∨ value = .object [(some name, .null)]

/-- An object with the entries of a table in any order; of a key given twice the last one holds. -/
def WritesTable {α : Type} (Writes : α → Value → Prop) (table : Table α) (value : Value) : Prop :=
  ∃ (members : List (String × Value)) (entries : List (String × α)),
    value = .object (named members) ∧
    List.Forall₂ (fun entry member => entry.1 = member.1 ∧ Writes entry.2 member.2)
      entries members ∧
    ∀ key, table.get? key = entries.reverse.lookup key

theorem reads_bool : Reads WritesBool Value.bool? id := by
  rintro b _ rfl
  rfl

theorem reads_single : Reads WritesSingle Value.single? id := by
  rintro x _ ⟨n, rfl, hn⟩
  exact Number.toSingle?_eq_some_iff.mpr hn

theorem reads_int (lo hi : Int) : Reads (WritesInt lo hi) (Value.intIn? lo hi) id := by
  rintro i _ ⟨hlo, hhi, rfl⟩
  have hint : Number.toInt? ⟨i < 0, i.natAbs, 0, true⟩ = some i := by
    simp only [Number.toInt?, Bool.not_true, Bool.false_eq_true, if_false, decide_eq_true_eq]
    split
    · rw [if_neg (by omega)]
      exact congrArg some (by omega)
    · exact congrArg some (by omega)
  simp [Value.intIn?, hint, hlo, hhi]

theorem wordCount_eq (bits : Nat) : (wordCount bits : ℤ) = 2 ^ bits := by
  rw [wordCount, Nat.pow_eq, Nat.cast_pow]
  rfl

theorem reads_nat (bits : Nat) : Reads (WritesNat bits) (Value.natBelow? bits) id := by
  intro n value h
  rw [Value.natBelow?, wordCount_eq, reads_int _ _ _ _ h]
  rfl

theorem reads_signed (bits : Nat) : Reads (WritesSigned bits) (Value.signed? bits) id := by
  unfold Value.signed?
  rw [wordCount_eq]
  exact reads_int _ _

private theorem reads_text : Reads WritesText Value.text? id := by
  rintro text _ rfl
  rfl

private theorem reads_codec : Reads (WritesName ·.name) Reading.codec id := by
  rintro codec _ (rfl | rfl) <;> cases codec <;> rfl

private theorem reads_backend : Reads (WritesName ·.name) Reading.backend id := by
  rintro backend _ (rfl | rfl) <;> cases backend <;> rfl

/-- A table is read entry by entry, and of a key given twice the last value is kept. -/
theorem reads_table {α : Type} {Writes : α → Value → Prop} {read : Value → Option α}
    (hreads : Reads Writes read id) : Reads (WritesTable Writes) (Reading.table read) id := by
  rintro table _ ⟨members, entries, rfl, hentries, hget⟩
  have hmembers :
      members.mapM (fun (name, value) => (read value).map (name, ·)) = some entries := by
    clear hget
    induction hentries with
    | nil => rfl
    | cons hentry _ ih =>
      obtain ⟨hname, hwrites⟩ := hentry
      rw [List.mapM_cons, ih]
      simp [hreads _ _ hwrites, ← hname]
  have htable : Table.ofList entries = table :=
    Table.eq_of_get? fun key => by rw [Table.get?_ofList, hget]
  simp [Reading.table, Value.entries?, named?_named, hmembers, htable]

/-! ## What a file sets -/

structure OneEuroChoice where
  minCutoff : Option Float32 := none
  beta : Option Float32 := none
  rateCutoff : Option Float32 := none

structure PoseFilterChoice where
  rotation : Option OneEuroChoice := none
  position : Option OneEuroChoice := none

structure FoveationChoice where
  enabled : Option Bool := none
  centerSizeX : Option Float32 := none
  centerSizeY : Option Float32 := none
  centerShiftX : Option Float32 := none
  centerShiftY : Option Float32 := none
  edgeRatioX : Option Float32 := none
  edgeRatioY : Option Float32 := none

structure OptionsChoice where
  string : Option (Table String) := none
  float : Option (Table Float32) := none
  int64 : Option (Table Int) := none
  int32 : Option (Table Int) := none

/-- The settings that a file sets; of a nested record it may set some fields. -/
structure ClientChoice where
  codec : Option Bitstream.Codec := none
  backend : Option Backend := none
  realtimePriority : Option Bool := none
  foveation : Option FoveationChoice := none
  eyeWidth : Option Nat := none
  eyeHeight : Option Nat := none
  refreshRate : Option Float32 := none
  clientPrediction : Option Bool := none
  decoderOptions : Option OptionsChoice := none
  frameIndexCapacity : Option Nat := none
  poseFilter : Option PoseFilterChoice := none
  verbose : Option Bool := none

namespace OneEuroChoice

/-- The parameters with those replaced that are chosen. -/
def laidOver (choice : OneEuroChoice) (base : OneEuroParams Float32) : OneEuroParams Float32 where
  minCutoff := choice.minCutoff.getD base.minCutoff
  beta := choice.beta.getD base.beta
  rateCutoff := choice.rateCutoff.getD base.rateCutoff

def Written (choice : OneEuroChoice) : Value → Prop :=
  HasFields [⟨"min_cutoff", Option.Rel WritesSingle choice.minCutoff⟩,
    ⟨"beta", Option.Rel WritesSingle choice.beta⟩,
    ⟨"derivative_cutoff", Option.Rel WritesSingle choice.rateCutoff⟩]

theorem reads : Reads Written Reading.oneEuroParams (·.laidOver .standard) := by
  intro choice value h
  obtain ⟨record, hrecord, hmin, hbeta, hrate⟩ := HasFields.record h
  simp only [List.map_cons, List.map_nil] at hrecord
  simp [Reading.oneEuroParams, hrecord, reads_single.getD?_self hmin,
    reads_single.getD?_self hbeta, reads_single.getD?_self hrate, laidOver]

end OneEuroChoice

namespace PoseFilterChoice

def laidOver (choice : PoseFilterChoice) (base : PoseFilterParams) : PoseFilterParams where
  rotation := (choice.rotation.map (·.laidOver base.rotation)).getD base.rotation
  position := (choice.position.map (·.laidOver base.position)).getD base.position

def Written (choice : PoseFilterChoice) : Value → Prop :=
  HasFields [⟨"rotation", Option.Rel OneEuroChoice.Written choice.rotation⟩,
    ⟨"position", Option.Rel OneEuroChoice.Written choice.position⟩]

theorem reads : Reads Written Reading.poseFilterParams (·.laidOver {}) := by
  intro choice value h
  obtain ⟨record, hrecord, hrotation, hposition⟩ := HasFields.record h
  simp only [List.map_cons, List.map_nil] at hrecord
  simp [Reading.poseFilterParams, hrecord, OneEuroChoice.reads.getD? hrotation,
    OneEuroChoice.reads.getD? hposition, laidOver]

end PoseFilterChoice

namespace FoveationChoice

def laidOver (choice : FoveationChoice) (base : FoveationSettings) : FoveationSettings where
  enabled := choice.enabled.getD base.enabled
  centerSizeX := choice.centerSizeX.getD base.centerSizeX
  centerSizeY := choice.centerSizeY.getD base.centerSizeY
  centerShiftX := choice.centerShiftX.getD base.centerShiftX
  centerShiftY := choice.centerShiftY.getD base.centerShiftY
  edgeRatioX := choice.edgeRatioX.getD base.edgeRatioX
  edgeRatioY := choice.edgeRatioY.getD base.edgeRatioY

def Written (choice : FoveationChoice) : Value → Prop :=
  HasFields [⟨"enabled", Option.Rel WritesBool choice.enabled⟩,
    ⟨"center_size_x", Option.Rel WritesSingle choice.centerSizeX⟩,
    ⟨"center_size_y", Option.Rel WritesSingle choice.centerSizeY⟩,
    ⟨"center_shift_x", Option.Rel WritesSingle choice.centerShiftX⟩,
    ⟨"center_shift_y", Option.Rel WritesSingle choice.centerShiftY⟩,
    ⟨"edge_ratio_x", Option.Rel WritesSingle choice.edgeRatioX⟩,
    ⟨"edge_ratio_y", Option.Rel WritesSingle choice.edgeRatioY⟩]

theorem reads : Reads Written Reading.foveationSettings (·.laidOver {}) := by
  intro choice value h
  obtain ⟨record, hrecord, henabled, hsizeX, hsizeY, hshiftX, hshiftY, hratioX, hratioY⟩ :=
    HasFields.record h
  simp only [List.map_cons, List.map_nil] at hrecord
  simp [Reading.foveationSettings, hrecord, reads_bool.getD?_self henabled,
    reads_single.getD?_self hsizeX, reads_single.getD?_self hsizeY,
    reads_single.getD?_self hshiftX, reads_single.getD?_self hshiftY,
    reads_single.getD?_self hratioX, reads_single.getD?_self hratioY, laidOver]

end FoveationChoice

namespace OptionsChoice

def laidOver (choice : OptionsChoice) (base : DecoderOptions) : DecoderOptions where
  string := choice.string.getD base.string
  float := choice.float.getD base.float
  int64 := choice.int64.getD base.int64
  int32 := choice.int32.getD base.int32

def Written (choice : OptionsChoice) : Value → Prop :=
  HasFields [⟨"string", Option.Rel (WritesTable WritesText) choice.string⟩,
    ⟨"float", Option.Rel (WritesTable WritesSingle) choice.float⟩,
    ⟨"int64", Option.Rel (WritesTable (WritesSigned 64)) choice.int64⟩,
    ⟨"int32", Option.Rel (WritesTable (WritesSigned 32)) choice.int32⟩]

theorem reads : Reads Written Reading.decoderOptions (·.laidOver {}) := by
  intro choice value h
  obtain ⟨record, hrecord, hstring, hfloat, hint64, hint32⟩ := HasFields.record h
  simp only [List.map_cons, List.map_nil] at hrecord
  simp [Reading.decoderOptions, hrecord, (reads_table reads_text).getD?_self hstring,
    (reads_table reads_single).getD?_self hfloat,
    (reads_table (reads_signed 64)).getD?_self hint64,
    (reads_table (reads_signed 32)).getD?_self hint32, laidOver]

end OptionsChoice

namespace ClientChoice

/-- The settings with those replaced that are chosen, and of a nested record only the fields that
are. -/
def laidOver (choice : ClientChoice) (base : ClientSettings) : ClientSettings where
  codec := choice.codec.getD base.codec
  backend := choice.backend.getD base.backend
  realtimePriority := choice.realtimePriority.getD base.realtimePriority
  foveation := (choice.foveation.map (·.laidOver base.foveation)).getD base.foveation
  eyeWidth := choice.eyeWidth.getD base.eyeWidth
  eyeHeight := choice.eyeHeight.getD base.eyeHeight
  refreshRate := choice.refreshRate.getD base.refreshRate
  clientPrediction := choice.clientPrediction.getD base.clientPrediction
  decoderOptions :=
    (choice.decoderOptions.map (·.laidOver base.decoderOptions)).getD base.decoderOptions
  frameIndexCapacity := choice.frameIndexCapacity.getD base.frameIndexCapacity
  poseFilter := (choice.poseFilter.map (·.laidOver base.poseFilter)).getD base.poseFilter
  verbose := choice.verbose.getD base.verbose

/-- An object that gives what is chosen, and of the other settings nothing. -/
def Written (choice : ClientChoice) : Value → Prop :=
  HasFields [⟨"codec", Option.Rel (WritesName ·.name) choice.codec⟩,
    ⟨"backend", Option.Rel (WritesName ·.name) choice.backend⟩,
    ⟨"realtime_priority", Option.Rel WritesBool choice.realtimePriority⟩,
    ⟨"foveation", Option.Rel FoveationChoice.Written choice.foveation⟩,
    ⟨"eye_width", Option.Rel (WritesNat 32) choice.eyeWidth⟩,
    ⟨"eye_height", Option.Rel (WritesNat 32) choice.eyeHeight⟩,
    ⟨"refresh_rate", Option.Rel WritesSingle choice.refreshRate⟩,
    ⟨"client_prediction", Option.Rel WritesBool choice.clientPrediction⟩,
    ⟨"decoder_options", Option.Rel OptionsChoice.Written choice.decoderOptions⟩,
    ⟨"frame_index_capacity", Option.Rel (WritesNat 64) choice.frameIndexCapacity⟩,
    ⟨"pose_filter", Option.Rel PoseFilterChoice.Written choice.poseFilter⟩,
    ⟨"verbose", Option.Rel WritesBool choice.verbose⟩]

theorem reads : Reads Written Reading.clientSettings (·.laidOver {}) := by
  intro choice value h
  obtain ⟨record, hrecord, hcodec, hbackend, hrealtime, hfoveation, hwidth, hheight, hrate,
    hprediction, hoptions, hcapacity, hfilter, hverbose⟩ := HasFields.record h
  simp only [List.map_cons, List.map_nil] at hrecord
  rw [Reading.clientSettings, hrecord]
  dsimp only [Option.bind_eq_bind, Option.bind_some]
  -- Rewriting one field after the other is fast; a `simp` would go through all fields for each.
  rw [reads_codec.getD?_self hcodec, reads_backend.getD?_self hbackend,
    reads_bool.getD?_self hrealtime, FoveationChoice.reads.getD? hfoveation,
    (reads_nat 32).getD?_self hwidth, (reads_nat 32).getD?_self hheight,
    reads_single.getD?_self hrate, reads_bool.getD?_self hprediction,
    OptionsChoice.reads.getD? hoptions, (reads_nat 64).getD?_self hcapacity,
    PoseFilterChoice.reads.getD? hfilter, reads_bool.getD?_self hverbose]
  rfl

private theorem ofFile_toUTF8 {text : String} {settings : ClientSettings}
    (h : ClientSettings.ofText? text = some settings) :
    ClientSettings.ofFile (some text.toUTF8) =
      (settings.check.mapError .invalid).map fun _ => settings := by
  have hbytes : String.fromUTF8? text.toUTF8 = some text := dif_pos text.isValidUTF8
  simp only [ClientSettings.ofFile, Option.bind_some, hbytes, h]
  cases settings.check <;> rfl

/-- Whatever text writes a choice, it is read as the choice over the defaults: neither the order of
members nor any other member has a say in it. A file with that text gives these settings, unless
they are refused once they are read. -/
theorem ofText?_eq_laidOver (choice : ClientChoice) {value : Value} {text : String}
    (hvalue : choice.Written value) (htext : value.SpelledBy text) :
    ClientSettings.ofText? text = some (choice.laidOver {}) ∧
      ClientSettings.ofFile (some text.toUTF8) =
        ((choice.laidOver {}).check.mapError .invalid).map fun _ => choice.laidOver {} := by
  have hread : ClientSettings.ofText? text = some (choice.laidOver {}) := by
    rw [ClientSettings.ofText?, Value.ofText_of_spelledBy htext]
    exact reads choice value hvalue
  exact ⟨hread, ofFile_toUTF8 hread⟩

/-- A tenth, as single precision has it. -/
def tenth : Float32 := .ofBits 0x3DCCCCCD

def tenthNumber : Json.Number := ⟨false, 1, -1, false⟩

def tenthNumeral : Numeral where
  whole := ⟨['0'], by decide, by simp⟩
  fraction := some ⟨['1'], by decide, by simp⟩
  lone_zero := fun _ => rfl

private theorem tenthNumber_spelled : Token.SpelledBy (.number tenthNumber) tenthNumeral.chars :=
  .number tenthNumeral

private theorem tenthNumber_denotes : tenthNumber.Denotes tenth :=
  Number.toSingle?_eq_some_iff.mp (by decide +kernel)

def trialChoice : ClientChoice where
  foveation := some { enabled := some true }
  eyeWidth := some 1000
  poseFilter := some { rotation := some { beta := some tenth } }

def trialRotation : Value := .object (named [("beta", .number tenthNumber)])

def trialMembers : List (String × Value) :=
  [("pose_filter", .object (named [("rotation", trialRotation)])),
    ("eye_width", .number ⟨false, 1000, 0, true⟩), ("note", .array [.null]),
    ("foveation", .object (named [("enabled", .bool true)]))]

def trialText : String :=
  "\x7b\"pose_filter\":\x7b\"rotation\":\x7b\"beta\": 0.1\x7d\x7d,\n" ++
    "\"eye_width\":1000, \"note\":[null],\n\"foveation\":\x7b\"enabled\":true\x7d\x7d"

private theorem trialRotation_written :
    OneEuroChoice.Written { beta := some tenth } trialRotation := by
  have hbeta : WritesSingle tenth (.number tenthNumber) := ⟨_, rfl, tenthNumber_denotes⟩
  refine ⟨_, rfl, ?_⟩
  simp only [List.forall_mem_cons]
  exact ⟨⟨_, .none, rfl⟩, ⟨_, .some hbeta, rfl⟩, ⟨_, .none, rfl⟩, nofun⟩

theorem trialChoice_written : trialChoice.Written (.object (named trialMembers)) := by
  have hfoveation : FoveationChoice.Written { enabled := some true }
      (.object (named [("enabled", .bool true)])) := by
    refine ⟨_, rfl, ?_⟩
    simp only [List.forall_mem_cons]
    exact ⟨⟨_, .some rfl, rfl⟩, ⟨_, .none, rfl⟩, ⟨_, .none, rfl⟩, ⟨_, .none, rfl⟩, ⟨_, .none, rfl⟩,
      ⟨_, .none, rfl⟩, ⟨_, .none, rfl⟩, nofun⟩
  have hfilter : PoseFilterChoice.Written { rotation := some { beta := some tenth } }
      (.object (named [("rotation", trialRotation)])) := by
    refine ⟨_, rfl, ?_⟩
    simp only [List.forall_mem_cons]
    exact ⟨⟨_, .some trialRotation_written, rfl⟩, ⟨_, .none, rfl⟩, nofun⟩
  have hwidth : WritesNat 32 1000 (.number ⟨false, 1000, 0, true⟩) := ⟨by decide, by decide, rfl⟩
  refine ⟨trialMembers, rfl, ?_⟩
  simp only [List.forall_mem_cons]
  exact ⟨⟨_, .none, rfl⟩, ⟨_, .none, rfl⟩, ⟨_, .none, rfl⟩, ⟨_, .some hfoveation, rfl⟩,
    ⟨_, .some hwidth, rfl⟩, ⟨_, .none, rfl⟩, ⟨_, .none, rfl⟩, ⟨_, .none, rfl⟩, ⟨_, .none, rfl⟩,
    ⟨_, .none, rfl⟩, ⟨_, .some hfilter, rfl⟩, ⟨_, .none, rfl⟩, nofun⟩

theorem trialText_spelled : Value.SpelledBy (.object (named trialMembers)) trialText := by
  have hnone : Blank [] := by simp [Blank]
  have hspace : Blank [' '] := by simp [Blank]
  have hline : Blank ['\n'] := by simp [Blank]
  exact .cons hnone .openObject <| .cons hnone (spelledBy_text "pose_filter" (by simp)) <|
    .cons hnone .colon <| .cons hnone .openObject <|
    .cons hnone (spelledBy_text "rotation" (by simp)) <| .cons hnone .colon <|
    .cons hnone .openObject <| .cons hnone (spelledBy_text "beta" (by simp)) <|
    .cons hnone .colon <| .cons hspace tenthNumber_spelled <|
    .cons hnone .closeObject <| .cons hnone .closeObject <| .cons hnone .comma <|
    .cons hline (spelledBy_text "eye_width" (by simp)) <| .cons hnone .colon <|
    .cons hnone (spelledBy_integer 1000 (by decide)) <| .cons hnone .comma <|
    .cons hspace (spelledBy_text "note" (by simp)) <| .cons hnone .colon <|
    .cons hnone .openArray <| .cons hnone .null <| .cons hnone .closeArray <|
    .cons hnone .comma <| .cons hline (spelledBy_text "foveation" (by simp)) <|
    .cons hnone .colon <| .cons hnone .openObject <|
    .cons hnone (spelledBy_text "enabled" (by simp)) <| .cons hnone .colon <|
    .cons hnone .true <| .cons hnone .closeObject <| .cons hnone .closeObject <| .nil hnone

/-- Three settings are set at three depths; all else keeps its default, the other cutoffs and the
size of the center for instance. -/
theorem trialText_read :
    trialChoice.Written (.object (named trialMembers)) ∧
      Value.SpelledBy (.object (named trialMembers)) trialText ∧
      ClientSettings.ofText? trialText = some {
        eyeWidth := 1000
        foveation := { enabled := true }
        poseFilter := {
          rotation := { OneEuroParams.standard with beta := .ofBits 0x3DCCCCCD } } } :=
  ⟨trialChoice_written, trialText_spelled,
    (ofText?_eq_laidOver trialChoice trialChoice_written trialText_spelled).1⟩

end ClientChoice

end HeadsetStream.Settings
