import HeadsetStream.Bitstream.AccessUnit
import HeadsetStream.Proofs.StartCodeScan

/-!
# Where the configuration of a packet ends

Cutting a byte string may break a start code, or make one out of two pieces of others. The cut
behind the leading parameter sets does neither: the packet's units are those of its two parts. This
rests on the header bytes of parameter sets, which are not zero, so that the last of them cannot
reach into the start code of the unit behind it.
-/

namespace HeadsetStream.Bitstream

/-- The unit in a byte string that has `n` more bytes in front. -/
def NalUnit.shift (n : Nat) (unit : NalUnit) : NalUnit := { unit with offset := unit.offset + n }

/-- The first unit starts at the first byte, and has the property. -/
def OpensWith (codec : Codec) (data : Bytes) (property : NalUnit → Prop) : Prop :=
  ∃ unit, (units codec data).head? = some unit ∧ unit.offset = 0 ∧ property unit

/-- There are units, from the first byte on, and all of them are parameter sets. -/
def ConfigurationOnly (codec : Codec) (data : Bytes) : Prop :=
  OpensWith codec data (fun _ => True) ∧ ∀ unit ∈ units codec data, unit.isParameterSet codec = true

/-- How a packet falls apart into its leading parameter sets and the rest. -/
structure SplitsInto (codec : Codec) (data head rest : Bytes) : Prop where
  append_eq : head ++ rest = data
  units_eq : units codec data =
    units codec head ++ (units codec rest).map (NalUnit.shift head.length)
  head_ne_nil_iff : head ≠ [] ↔ OpensWith codec data (·.isParameterSet codec = true)
  head_parameterSets : ∀ unit ∈ units codec head, unit.isParameterSet codec = true
  rest_opens : head ≠ [] → rest = [] ∨ OpensWith codec rest (·.isParameterSet codec = false)
  head_head : configurationPrefix codec head = head
  rest_head : head ≠ [] → configurationPrefix codec rest = []

section

variable {codec : Codec} {data : Bytes} {cut p : Nat} {unit : NalUnit}

private theorem codeAt_take (data : Bytes) (cut p : Nat) :
    codeAt (data.take cut) p = true ↔ codeAt data p = true ∧ p + 3 < cut := by
  simp only [codeAt_iff, List.getElem?_take, List.length_take]
  constructor
  · rintro ⟨h₀, h₁, h₂, hlen⟩
    have hcut : p + 3 < cut := by omega
    simp only [show p < cut by omega, show p + 1 < cut by omega, show p + 2 < cut by omega,
      if_true] at h₀ h₁ h₂
    exact ⟨⟨h₀, h₁, h₂, by omega⟩, hcut⟩
  · rintro ⟨⟨h₀, h₁, h₂, hlen⟩, hcut⟩
    simp only [show p < cut by omega, show p + 1 < cut by omega, show p + 2 < cut by omega,
      if_true]
    exact ⟨h₀, h₁, h₂, by omega⟩

theorem codeAt_drop (data : Bytes) (cut p : Nat) :
    codeAt (data.drop cut) p = codeAt data (cut + p) := by
  rw [Bool.eq_iff_iff, codeAt_iff, codeAt_iff]
  simp only [List.getElem?_drop, List.length_drop, Nat.add_assoc]
  have hlen : p + 3 < data.length - cut ↔ cut + (p + 3) < data.length := by omega
  rw [hlen]

private theorem unitAt_take (codec : Codec) (h : p + 3 < cut) :
    unitAt codec (data.take cut) p = unitAt codec data p := by
  have hlong : longCodeAt (data.take cut) p = longCodeAt data p := by
    simp only [longCodeAt, List.getElem?_take, show p - 1 < cut by omega, if_true]
  have hheader : (data.take cut).getD (p + 3) 0 = data.getD (p + 3) 0 := by
    simp only [List.getD_eq_getElem?_getD, List.getElem?_take, h, if_true]
  rw [unitAt, hlong, hheader]
  rfl

private theorem unitAt_drop (codec : Codec) (hcut : CutAt data cut)
    (h : codeAt data (cut + p) = true) :
    unitAt codec data (cut + p) = (unitAt codec (data.drop cut) p).shift cut := by
  have hheader : (data.drop cut).getD (p + 3) 0 = data.getD (cut + p + 3) 0 := by
    simp only [List.getD_eq_getElem?_getD, List.getElem?_drop, Nat.add_assoc]
  have hlong : longCodeAt (data.drop cut) p = longCodeAt data (cut + p) := by
    cases p with
    | zero =>
      have hshort : longCodeAt data cut = false := by
        by_contra hlong
        simp [hcut (by simpa using hlong)] at h
      rw [Nat.add_zero, hshort]
      rfl
    | succ p =>
      have hindex : cut + (p + 1) - 1 = cut + p := by omega
      have hpos : 0 < cut + (p + 1) := by omega
      simp only [longCodeAt, List.getElem?_drop, Nat.add_sub_cancel, hindex, hpos, Nat.succ_pos,
        decide_true]
  rw [unitAt, unitAt, hlong, hheader]
  cases hlong' : longCodeAt data (cut + p) with
  | true =>
    have hpos : 0 < p := by
      rw [← hlong] at hlong'
      simp only [longCodeAt, Bool.and_eq_true, decide_eq_true_eq] at hlong'
      exact hlong'.1
    simp only [NalUnit.shift, if_true, NalUnit.mk.injEq, and_true]
    omega
  | false =>
    simp only [NalUnit.shift, Bool.false_eq_true, if_false, NalUnit.mk.injEq, and_true]
    omega

theorem units_eq_codesFrom (codec : Codec) (data : Bytes) :
    units codec data = (codesFrom data 0 data.length).map (unitAt codec data) :=
  unitsFrom_eq_codesFrom codec data 0 (cutAt_zero data)

/-- No start code or header byte in front of the cut reaches over it. -/
def EndsBefore (data : Bytes) (cut : Nat) : Prop :=
  ∀ p < cut, codeAt data p = true → p + 3 < cut

theorem units_take (codec : Codec) (hends : EndsBefore data cut) (hle : cut ≤ data.length) :
    units codec (data.take cut) = (codesFrom data 0 cut).map (unitAt codec data) := by
  have hlength : (data.take cut).length = cut := by simp [hle]
  have hcodes : codesFrom (data.take cut) 0 cut = codesFrom data 0 cut := by
    apply List.filter_congr
    intro p hp
    have hlt : p < cut := by simpa using hp
    rw [Bool.eq_iff_iff, codeAt_take]
    exact ⟨And.left, fun h => ⟨h, hends p hlt h⟩⟩
  rw [units_eq_codesFrom, hlength, hcodes]
  apply List.map_congr_left
  intro p hp
  obtain ⟨hmem, hcode⟩ := List.mem_filter.mp hp
  have hlt : p < cut := by simpa using hmem
  exact unitAt_take codec (hends p hlt hcode)

theorem units_drop (codec : Codec) (hcut : CutAt data cut) :
    (units codec (data.drop cut)).map (NalUnit.shift cut) =
      (codesFrom data cut (data.length - cut)).map (unitAt codec data) := by
  have hcodes : codesFrom data cut (data.length - cut) =
      (codesFrom (data.drop cut) 0 (data.length - cut)).map (cut + ·) := by
    rw [codesFrom, codesFrom, List.range'_eq_map_range, List.filter_map, ← List.range_eq_range']
    congr 1
    apply List.filter_congr
    intro p _
    rw [codeAt_drop]
    rfl
  rw [units_eq_codesFrom, List.length_drop, hcodes, List.map_map, List.map_map]
  apply List.map_congr_left
  intro p hp
  have hcode : codeAt (data.drop cut) p = true := (List.mem_filter.mp hp).2
  rw [codeAt_drop] at hcode
  exact (unitAt_drop codec hcut hcode).symm

/-- A cut that breaks nothing and makes nothing splits the units into those of the two parts. -/
private theorem units_split (codec : Codec) (hcut : CutAt data cut) (hends : EndsBefore data cut)
    (hle : cut ≤ data.length) :
    units codec data =
      units codec (data.take cut) ++ (units codec (data.drop cut)).map (NalUnit.shift cut) := by
  have hlength : data.length = cut + (data.length - cut) := by omega
  rw [units_take codec hends hle, units_drop codec hcut, ← List.map_append]
  conv_lhs => rw [units_eq_codesFrom, hlength, codesFrom_add, Nat.zero_add]

private theorem find?_units_eq_some {property : NalUnit → Bool}
    (h : (units codec data).find? property = some unit) :
    ∃ q, codeAt data q = true ∧ unitAt codec data q = unit ∧ property unit = true ∧
      ∀ p < q, codeAt data p = true → property (unitAt codec data p) = false := by
  rw [units_eq_codesFrom, codesFrom, ← List.range_eq_range', List.find?_map, List.find?_filter,
    Option.map_eq_some_iff] at h
  obtain ⟨q, hfind, rfl⟩ := h
  rw [List.find?_range_eq_some] at hfind
  obtain ⟨hq, -, hbefore⟩ := hfind
  simp only [Function.comp_apply, decide_eq_true_eq] at hq
  refine ⟨q, hq.1, rfl, hq.2, ?_⟩
  intro p hp hcode
  simpa [hcode] using hbefore p hp

private theorem unitAt_type (codec : Codec) (data : Bytes) (p : Nat) :
    (unitAt codec data p).type = codec.unitType (data.getD (p + 3) 0) := by
  unfold unitAt
  split <;> rfl

/-- Where a unit starts, its first byte is zero; with four bytes of start code that is one before
the last three. -/
theorem unitAt_offset_cases (codec : Codec) (data : Bytes) (p : Nat) :
    ((unitAt codec data p).offset = p ∧ longCodeAt data p = false) ∨
      ((unitAt codec data p).offset + 1 = p ∧ data[(unitAt codec data p).offset]? = some 0) := by
  unfold unitAt
  cases hlong : longCodeAt data p with
  | false => exact .inl ⟨rfl, rfl⟩
  | true =>
    simp only [longCodeAt, Bool.and_eq_true, decide_eq_true_eq, beq_iff_eq] at hlong
    refine .inr ⟨?_, hlong.2⟩
    show p - 1 + 1 = p
    omega

private theorem isParameterSet_unitType_zero (codec : Codec) :
    codec.isParameterSet (codec.unitType 0) = false := by
  cases codec <;> decide

section

variable {q : Nat} (hq : codeAt data q = true)

include hq

theorem cutAt_offset (codec : Codec) : CutAt data (unitAt codec data q).offset := by
  intro hlong
  obtain ⟨-, h₁, -, -⟩ := codeAt_iff.mp hq
  rcases unitAt_offset_cases codec data q with ⟨heq, hshort⟩ | ⟨heq, -⟩
  · rw [heq, hshort] at hlong
    exact absurd hlong Bool.false_ne_true
  · apply codeAt_eq_false
    have hindex : (unitAt codec data q).offset + 2 = q + 1 := by omega
    simp [hindex, h₁]

private theorem getElem?_offset (codec : Codec) : data[(unitAt codec data q).offset]? = some 0 := by
  rcases unitAt_offset_cases codec data q with ⟨heq, -⟩ | ⟨-, hzero⟩
  · rw [heq]
    exact (codeAt_iff.mp hq).1
  · exact hzero

/-- A parameter set in front has its header byte in front too: at the start of a unit that byte
would be zero, which is no parameter set. -/
private theorem endsBefore_offset (hsets : ∀ p < q, codeAt data p = true →
      (unitAt codec data p).isParameterSet codec = true) :
    EndsBefore data (unitAt codec data q).offset := by
  intro p hp hcode
  have hlt : p < q := by
    rcases unitAt_offset_cases codec data q with ⟨heq, -⟩ | ⟨heq, -⟩ <;> omega
  have hheader : p + 3 ≤ (unitAt codec data q).offset := by
    rw [← unitAt_header codec data p]
    exact unitAt_header_le hcode hq hlt
  refine Nat.lt_of_le_of_ne hheader fun heq => ?_
  have hzero : data.getD (p + 3) 0 = 0 := by
    rw [List.getD_eq_getElem?_getD, heq, getElem?_offset hq codec]
    rfl
  have hset := hsets p hlt hcode
  rw [NalUnit.isParameterSet, unitAt_type, hzero, isParameterSet_unitType_zero] at hset
  exact absurd hset Bool.false_ne_true

/-- Cut off at its start, a unit is the first of what is left. -/
private theorem head?_units_drop (codec : Codec) :
    ∃ unit, (units codec (data.drop (unitAt codec data q).offset)).head? = some unit ∧
      unit.offset = 0 ∧ unit.type = (unitAt codec data q).type := by
  set cut := (unitAt codec data q).offset with hcut
  obtain ⟨-, hzero, -, hlen⟩ := codeAt_iff.mp hq
  have hfirst : (codesFrom data cut (data.length - cut)).head? = some q := by
    rw [codesFrom, List.head?_filter, List.find?_range'_eq_some]
    rcases unitAt_offset_cases codec data q with ⟨heq, -⟩ | ⟨heq, -⟩
    · refine ⟨hq, by simp; omega, fun p hp hlt => by omega⟩
    · refine ⟨hq, by simp; omega, fun p hp hlt => ?_⟩
      have hgap : codeAt data p = false := by
        apply codeAt_eq_false
        have hindex : p + 2 = q + 1 := by omega
        simp [hindex, hzero]
      simp [hgap]
  have hunits := congrArg List.head? (units_drop codec (cutAt_offset hq codec))
  rw [List.head?_map, List.head?_map, hfirst, Option.map_some, Option.map_eq_some_iff] at hunits
  obtain ⟨unit, hunit, hshift⟩ := hunits
  refine ⟨unit, hunit, ?_, ?_⟩
  · have hoffset : unit.offset + cut = cut := congrArg NalUnit.offset hshift
    omega
  · rw [← hshift]
    rfl

end

theorem configurationPrefix_of_not_opensWith
    (h : ¬ OpensWith codec data (·.isParameterSet codec = true)) :
    configurationPrefix codec data = [] := by
  have hlength : configurationLength codec data = 0 := by
    unfold configurationLength
    split
    case h_1 => rfl
    case h_2 first others hunits =>
      split
      case isTrue hfirst =>
        simp only [Bool.and_eq_true, beq_iff_eq] at hfirst
        exact absurd ⟨first, by rw [hunits]; rfl, hfirst⟩ h
      case isFalse => rfl
  rw [configurationPrefix, hlength, List.take_zero]

/-- Behind parameter sets in front, the prefix ends at the first unit that is none. -/
theorem configurationLength_of_opensWith
    (h : OpensWith codec data (·.isParameterSet codec = true)) :
    configurationLength codec data =
      ((units codec data).find? (!·.isParameterSet codec)).elim data.length NalUnit.offset := by
  obtain ⟨first, hhead, hoffset, hset⟩ := h
  obtain ⟨others, hunits⟩ : ∃ others, units codec data = first :: others := by
    cases hunits : units codec data with
    | nil => simp [hunits] at hhead
    | cons unit others =>
      rw [hunits, List.head?_cons, Option.some.injEq] at hhead
      exact ⟨others, by rw [hhead]⟩
  have hset' : first.isParameterSet codec = true := hset
  have hskip : (units codec data).find? (!·.isParameterSet codec) =
      others.find? (!·.isParameterSet codec) := by
    rw [hunits, List.find?_cons_of_neg (by simp [hset'])]
  rw [hskip, configurationLength, hunits]
  simp only [hoffset, hset', beq_self_eq_true, Bool.and_self, if_true]
  cases others.find? (!·.isParameterSet codec) <;> rfl

theorem configurationPrefix_of_configurationOnly (h : ConfigurationOnly codec data) :
    configurationPrefix codec data = data := by
  obtain ⟨⟨first, hhead, hoffset, -⟩, hall⟩ := h
  have hopens : OpensWith codec data (·.isParameterSet codec = true) :=
    ⟨first, hhead, hoffset, hall first (List.mem_of_mem_head? hhead)⟩
  have hnone : (units codec data).find? (!·.isParameterSet codec) = none := by
    rw [List.find?_eq_none]
    intro unit hmem
    simp [hall unit hmem]
  rw [configurationPrefix, configurationLength_of_opensWith hopens, hnone, Option.elim_none,
    List.take_length]

theorem ne_nil_of_opensWith {property : NalUnit → Prop} (h : OpensWith codec data property) :
    data ≠ [] := by
  rintro rfl
  obtain ⟨unit, hhead, -⟩ := h
  simp at hhead

/-- What the first unit is, it is in the first part of a split too, unless that part is empty. -/
private theorem OpensWith.of_split {property : NalUnit → Prop} {head rest : Bytes}
    (h : OpensWith codec data property)
    (hsplit : units codec data = units codec head ++ (units codec rest).map (.shift head.length))
    (hhead : head ≠ []) : OpensWith codec head property := by
  obtain ⟨unit, hunit, hoffset, hproperty⟩ := h
  rw [hsplit, List.head?_append] at hunit
  cases hfirst : (units codec head).head? with
  | some first =>
    rw [hfirst, Option.some_or, Option.some.injEq] at hunit
    exact ⟨unit, by rw [hfirst, hunit], hoffset, hproperty⟩
  | none =>
    -- A unit of the second part would start behind the first part.
    rw [hfirst, Option.none_or, List.head?_map, Option.map_eq_some_iff] at hunit
    obtain ⟨later, -, rfl⟩ := hunit
    have hpos : 0 < head.length := List.length_pos_iff.mpr hhead
    have hzero : later.offset + head.length = 0 := hoffset
    omega

/-- The part behind the first unit that is no parameter set. -/
private theorem splitsInto_of_find {unit : NalUnit}
    (hopens : OpensWith codec data (·.isParameterSet codec = true))
    (hfind : (units codec data).find? (!·.isParameterSet codec) = some unit) :
    SplitsInto codec data (data.take unit.offset) (data.drop unit.offset) := by
  obtain ⟨q, hq, rfl, hother, hbefore⟩ := find?_units_eq_some hfind
  have hother' : (unitAt codec data q).isParameterSet codec = false := by simpa using hother
  have hsets : ∀ p < q, codeAt data p = true →
      (unitAt codec data p).isParameterSet codec = true := by simpa using hbefore
  have hle : (unitAt codec data q).offset ≤ q := by
    rcases unitAt_offset_cases codec data q with ⟨heq, -⟩ | ⟨heq, -⟩ <;> omega
  have hlen : q + 3 < data.length := (codeAt_iff.mp hq).2.2.2
  have hends := endsBefore_offset hq hsets
  have hcut := cutAt_offset hq codec
  obtain ⟨next, hnext, hzero, htype⟩ := head?_units_drop hq codec
  have hpos : 0 < (unitAt codec data q).offset := by
    by_contra hnot
    have hfront : (unitAt codec data q).offset = 0 := by omega
    -- The first unit would be the one that is no parameter set.
    rw [hfront, List.drop_zero] at hnext
    obtain ⟨first, hfirst, -, hset⟩ := hopens
    obtain rfl : first = next := Option.some.inj (hfirst.symm.trans hnext)
    rw [NalUnit.isParameterSet, htype] at hset
    exact absurd (hother'.symm.trans hset) Bool.false_ne_true
  generalize hoffset : (unitAt codec data q).offset = cut at *
  have hlength : (data.take cut).length = cut := by
    rw [List.length_take]
    omega
  have hhead : data.take cut ≠ [] := by
    rw [← List.length_pos_iff, hlength]
    exact hpos
  have hunits : units codec data = units codec (data.take cut) ++
      (units codec (data.drop cut)).map (.shift (data.take cut).length) := by
    rw [hlength]
    exact units_split codec hcut hends (by omega)
  have hall : ∀ unit ∈ units codec (data.take cut), unit.isParameterSet codec = true := by
    intro unit hmem
    rw [units_take codec hends (by omega)] at hmem
    obtain ⟨p, hp, rfl⟩ := List.mem_map.mp hmem
    obtain ⟨hrange, hcode⟩ := List.mem_filter.mp hp
    have hlt : p < cut := by simpa using hrange
    exact hsets p (by omega) hcode
  have hrest : OpensWith codec (data.drop cut) (·.isParameterSet codec = false) := by
    refine ⟨next, hnext, hzero, ?_⟩
    show codec.isParameterSet next.type = false
    rw [htype]
    exact hother'
  obtain ⟨first, hfirst, hfront, -⟩ := hopens.of_split hunits hhead
  refine ⟨List.take_append_drop .., hunits, ⟨fun _ => hopens, fun _ => hhead⟩, hall,
    fun _ => .inr hrest, ?_, fun _ => ?_⟩
  · exact configurationPrefix_of_configurationOnly ⟨⟨first, hfirst, hfront, trivial⟩, hall⟩
  · apply configurationPrefix_of_not_opensWith
    rintro ⟨other, hhead', -, hset⟩
    obtain ⟨first', hfirst', -, hset'⟩ := hrest
    rw [hfirst', Option.some.injEq] at hhead'
    subst hhead'
    exact absurd (hset'.symm.trans hset) Bool.false_ne_true

/-- Without parameter sets in front all is rest, and with nothing else nothing is. -/
theorem splitsInto_configurationPrefix (codec : Codec) (data : Bytes) :
    SplitsInto codec data (configurationPrefix codec data) (pictureData codec data) := by
  by_cases hopens : OpensWith codec data (·.isParameterSet codec = true)
  · cases hfind : (units codec data).find? (!·.isParameterSet codec) with
    | some unit =>
      have hlength := configurationLength_of_opensWith hopens
      rw [hfind] at hlength
      rw [configurationPrefix, pictureData, hlength]
      exact splitsInto_of_find hopens hfind
    | none =>
      have hall : ∀ unit ∈ units codec data, unit.isParameterSet codec = true := by
        intro unit hmem
        simpa using List.find?_eq_none.mp hfind unit hmem
      obtain ⟨first, hhead, hoffset, hset⟩ := hopens
      have hlead : configurationPrefix codec data = data :=
        configurationPrefix_of_configurationOnly ⟨⟨first, hhead, hoffset, trivial⟩, hall⟩
      have hrest : pictureData codec data = [] := by
        have happend := configurationPrefix_append codec data
        rw [hlead] at happend
        simpa using happend
      rw [hlead, hrest]
      have hopens : OpensWith codec data (·.isParameterSet codec = true) :=
        ⟨first, hhead, hoffset, hset⟩
      refine ⟨List.append_nil data, by simp, ⟨fun _ => hopens, fun _ => ne_nil_of_opensWith hopens⟩,
        hall, fun _ => .inl rfl, hlead, fun _ => configurationPrefix_nil codec⟩
  · have hlead := configurationPrefix_of_not_opensWith hopens
    have hrest : pictureData codec data = data := by
      have happend := configurationPrefix_append codec data
      rwa [hlead, List.nil_append] at happend
    rw [hlead, hrest]
    refine ⟨rfl, ?_, ⟨fun h => absurd rfl h, fun h => absurd h hopens⟩, by simp,
      fun h => absurd rfl h, configurationPrefix_nil codec, fun h => absurd rfl h⟩
    have hshift : NalUnit.shift 0 = id := rfl
    simp [hshift]

theorem drop_configurationPrefix (codec : Codec) (data : Bytes) :
    data.drop (configurationPrefix codec data).length = pictureData codec data := by
  have hdrop : (configurationPrefix codec data ++ pictureData codec data).drop
      (configurationPrefix codec data).length = pictureData codec data := List.drop_left ..
  rwa [configurationPrefix_append] at hdrop

theorem hasKeyframeSlice_eq (codec : Codec) (data : Bytes) :
    hasKeyframeSlice codec data = hasKeyframeSlice codec (pictureData codec data) := by
  have hsplit := splitsInto_configurationPrefix codec data
  have hhead : (units codec (configurationPrefix codec data)).any (·.isKeyframeSlice codec) =
      false := by
    rw [List.any_eq_false]
    intro unit hmem
    have hset := hsplit.head_parameterSets unit hmem
    rw [NalUnit.isKeyframeSlice, Codec.isKeyframeSlice_eq_false hset]
    exact Bool.false_ne_true
  rw [hasKeyframeSlice, hsplit.units_eq, List.any_append, hhead, Bool.false_or, List.any_map]
  rfl

theorem configurationOnly_iff (codec : Codec) (data : Bytes) :
    ConfigurationOnly codec data ↔
      configurationPrefix codec data ≠ [] ∧
        (configurationPrefix codec data).length = data.length := by
  have hsplit := splitsInto_configurationPrefix codec data
  constructor
  · intro h
    have hlead := configurationPrefix_of_configurationOnly h
    rw [hlead]
    exact ⟨ne_nil_of_opensWith h.1, rfl⟩
  · rintro ⟨hne, hlength⟩
    have hlead : configurationPrefix codec data = data :=
      (List.take_prefix _ data).eq_of_length hlength
    obtain ⟨first, hhead, hoffset, -⟩ := hsplit.head_ne_nil_iff.mp hne
    have hall := hsplit.head_parameterSets
    rw [hlead] at hall
    exact ⟨⟨first, hhead, hoffset, trivial⟩, hall⟩

/-- Whether a packet is a keyframe may be asked of all of it. -/
theorem PacketKind.of_eq (codec : Codec) (data : Bytes) :
    PacketKind.of codec data =
      if configurationPrefix codec data ≠ [] ∧
          (configurationPrefix codec data).length = data.length then .configuration
      else if hasKeyframeSlice codec data then .keyframe
      else .delta := by
  simp only [PacketKind.of, drop_configurationPrefix, ← hasKeyframeSlice_eq]

end

/-- Every packet splits behind its leading parameter sets without a change to its units. It is
configuration if it has units, from its first byte on, and all are parameter sets; otherwise it is a
keyframe if any of its units is a slice of one. -/
theorem packet_splits_and_classifies (codec : Codec) (data : Bytes) :
    SplitsInto codec data (configurationPrefix codec data) (pictureData codec data) ∧
      (PacketKind.of codec data = .configuration ↔ ConfigurationOnly codec data) ∧
      (PacketKind.of codec data = .keyframe ↔ ¬ ConfigurationOnly codec data ∧
        ∃ unit ∈ units codec data, unit.isKeyframeSlice codec = true) ∧
      (PacketKind.of codec data = .delta ↔ ¬ ConfigurationOnly codec data ∧
        ∀ unit ∈ units codec data, unit.isKeyframeSlice codec = false) := by
  refine ⟨splitsInto_configurationPrefix codec data, ?_⟩
  have hslices : (∃ unit ∈ units codec data, unit.isKeyframeSlice codec = true) ↔
      hasKeyframeSlice codec data = true := List.any_eq_true.symm
  have hnone : (∀ unit ∈ units codec data, unit.isKeyframeSlice codec = false) ↔
      hasKeyframeSlice codec data = false := by
    simp [hasKeyframeSlice, List.any_eq_false]
  rw [PacketKind.of_eq, configurationOnly_iff, hslices, hnone]
  by_cases honly : configurationPrefix codec data ≠ [] ∧
      (configurationPrefix codec data).length = data.length
  · simp only [if_pos honly]
    simp [honly]
  · simp only [if_neg honly]
    cases hasKeyframeSlice codec data <;> simp [honly]

/-- Zeros in front of a start code of four bytes belong to the parameter set before it. -/
example : PacketKind.of .h264 [0, 0, 1, 0x67, 0, 0, 0, 0, 1, 0x65] = .keyframe ∧
    configurationPrefix .h264 [0, 0, 1, 0x67, 0, 0, 0, 0, 1, 0x65] = [0, 0, 1, 0x67, 0] := by
  decide

end HeadsetStream.Bitstream
