import HeadsetStream.Bitstream.Unit
import Mathlib.Tactic.Common

/-!
# The scan for start codes, position by position

The scan takes start codes from the left and goes on behind each of them. Here it is compared with a
description that does not scan: a unit stands wherever the three bytes `00 00 01` have a header byte
behind them, and a zero byte in front of the three belongs to its start code. The invariant of the
scan is that the position it stands at is never the middle of a four-byte start code.
-/

namespace HeadsetStream.Bitstream

/-- Whether the bytes `00 00 01` stand at a position, with a header byte behind them. -/
def codeAt (data : Bytes) (p : Nat) : Bool :=
  data[p]? == some 0 && data[p + 1]? == some 0 && data[p + 2]? == some 1 && p + 3 < data.length

/-- Whether the start code whose last three bytes stand at `p` has a fourth one in front. -/
def longCodeAt (data : Bytes) (p : Nat) : Bool := 0 < p && data[p - 1]? == some 0

/-- The unit of the start code whose last three bytes stand at `p`. -/
def unitAt (codec : Codec) (data : Bytes) (p : Nat) : NalUnit :=
  let type := codec.unitType (data.getD (p + 3) 0)
  if longCodeAt data p then ⟨p - 1, 4, type⟩ else ⟨p, 3, type⟩

/-- The positions from `offset` on, `length` of them, that start a unit. -/
def codesFrom (data : Bytes) (offset length : Nat) : List Nat :=
  (List.range' offset length).filter (codeAt data)

theorem codeAt_iff {data : Bytes} {p : Nat} :
    codeAt data p = true ↔
      data[p]? = some 0 ∧ data[p + 1]? = some 0 ∧ data[p + 2]? = some 1 ∧ p + 3 < data.length := by
  simp [codeAt, and_assoc]

theorem codeAt_eq_false {data : Bytes} {p : Nat}
    (h : data[p]? ≠ some 0 ∨ data[p + 1]? ≠ some 0 ∨ data[p + 2]? ≠ some 1) :
    codeAt data p = false := by
  rw [Bool.eq_false_iff, ne_eq, codeAt_iff]
  rintro ⟨h₀, h₁, h₂, -⟩
  simp [h₀, h₁, h₂] at h

theorem codesFrom_add (data : Bytes) (offset m n : Nat) :
    codesFrom data offset (m + n) = codesFrom data offset m ++ codesFrom data (offset + m) n := by
  simp [codesFrom, ← List.filter_append]

theorem startCodeLength_eq_three_iff (data : Bytes) :
    startCodeLength data = 3 ↔ data[0]? = some 0 ∧ data[1]? = some 0 ∧ data[2]? = some 1 := by
  match data with
  | [] | [_] | [_, _] => simp [startCodeLength]
  | [a, b, c] => simp [startCodeLength]; grind
  | a :: b :: c :: d :: rest => simp [startCodeLength]; grind

theorem startCodeLength_eq_four_iff (data : Bytes) :
    startCodeLength data = 4 ↔
      data[0]? = some 0 ∧ data[1]? = some 0 ∧ data[2]? = some 0 ∧ data[3]? = some 1 := by
  match data with
  | [] | [_] | [_, _] => simp [startCodeLength]
  | [a, b, c] => simp [startCodeLength]; grind
  | a :: b :: c :: d :: rest => simp [startCodeLength]; grind

/-- Skipping bytes of a start code is scanning behind them. -/
private theorem unitsFrom_skip (codec : Codec) (offset skip : Nat) (data : Bytes) :
    unitsFrom codec offset skip data = unitsFrom codec (offset + skip) 0 (data.drop skip) := by
  induction skip generalizing offset data with
  | zero => rfl
  | succ skip ih =>
    cases data with
    | nil => simp
    | cons b rest =>
      rw [unitsFrom, ih, List.drop_succ_cons]
      congr 1
      omega

/-- The unit of a start code of `length` bytes at the front of `data`, if it has a header byte. -/
def frontUnit (codec : Codec) (offset length : Nat) (data : Bytes) : List NalUnit :=
  (data[length]?.map fun header => ⟨offset, length, codec.unitType header⟩).toList

theorem unitsFrom_of_code (codec : Codec) (offset : Nat) {data : Bytes} {length : Nat}
    (h : startCodeLength data = length) (hpos : 0 < length) :
    unitsFrom codec offset 0 data =
      frontUnit codec offset length data ++
        unitsFrom codec (offset + length) 0 (data.drop length) := by
  obtain ⟨length, rfl⟩ : ∃ k, length = k + 1 := ⟨length - 1, by omega⟩
  cases data with
  | nil => simp at h
  | cons b rest =>
    have hskip := unitsFrom_skip codec (offset + 1) length rest
    rw [Nat.add_assoc, Nat.add_comm 1] at hskip
    rw [unitsFrom, h]
    cases hheader : rest[length]? with
    | none => simp [frontUnit, hheader, hskip]
    | some header => simp [frontUnit, hheader, hskip]

private theorem unitsFrom_of_no_code (codec : Codec) (offset : Nat) {b : UInt8} {rest : Bytes}
    (h : startCodeLength (b :: rest) = 0) :
    unitsFrom codec offset 0 (b :: rest) = unitsFrom codec (offset + 1) 0 rest := by
  rw [unitsFrom, h]

/-- In front of a position there is no start code that reaches over it. -/
def CutAt (data : Bytes) (p : Nat) : Prop := longCodeAt data p = true → codeAt data p = false

theorem cutAt_zero (data : Bytes) : CutAt data 0 := by
  simp [CutAt, longCodeAt]

/-- Behind the last byte of a start code no other one has begun. -/
theorem cutAt_of_one {data : Bytes} {p : Nat} (h : data[p]? = some 1) : CutAt data (p + 1) := by
  intro hlong
  simp [longCodeAt, h] at hlong

section

variable {data : Bytes} {offset : Nat}

/-- Without a start code at `offset` the next position is no middle of one either. -/
private theorem cutAt_succ (h : startCodeLength (data.drop offset) = 0) :
    CutAt data (offset + 1) := by
  intro hlong
  have hzero : data[offset]? = some 0 := by simpa [longCodeAt] using hlong
  by_contra hcode
  obtain ⟨h₀, h₁, h₂, -⟩ := codeAt_iff.mp (by simpa using hcode)
  have hfour : startCodeLength (data.drop offset) = 4 := by
    rw [startCodeLength_eq_four_iff]
    simpa [List.getElem?_drop, hzero] using ⟨h₀, h₁, h₂⟩
  omega

private theorem codeAt_of_no_code (h : startCodeLength (data.drop offset) = 0) :
    codeAt data offset = false := by
  by_contra hcode
  obtain ⟨h₀, h₁, h₂, -⟩ := codeAt_iff.mp (by simpa using hcode)
  have hthree : startCodeLength (data.drop offset) = 3 := by
    rw [startCodeLength_eq_three_iff]
    simpa [List.getElem?_drop] using ⟨h₀, h₁, h₂⟩
  omega

/-- A start code of three bytes is the only one at its positions. -/
private theorem codesFrom_three (codec : Codec) (hcut : CutAt data offset)
    (h : startCodeLength (data.drop offset) = 3) :
    (codesFrom data offset 3).map (unitAt codec data) =
      frontUnit codec offset 3 (data.drop offset) := by
  obtain ⟨h₀, h₁, h₂⟩ : data[offset]? = some 0 ∧ data[offset + 1]? = some 0 ∧
      data[offset + 2]? = some 1 := by
    simpa [List.getElem?_drop] using (startCodeLength_eq_three_iff _).mp h
  have hnext : codeAt data (offset + 1) = false := codeAt_eq_false (by simp [h₂])
  have hlast : codeAt data (offset + 2) = false := codeAt_eq_false (by simp [h₂])
  by_cases hheader : offset + 3 < data.length
  · have hcode : codeAt data offset = true := codeAt_iff.mpr ⟨h₀, h₁, h₂, hheader⟩
    have hshort : longCodeAt data offset = false := by
      by_contra hlong
      simp [hcut (by simpa using hlong)] at hcode
    simp [codesFrom, List.range', frontUnit, unitAt, List.getElem?_drop, hcode, hshort, hnext,
      hlast, hheader]
  · have hcode : codeAt data offset = false := by
      rw [Bool.eq_false_iff, ne_eq, codeAt_iff]
      tauto
    simp [codesFrom, List.range', frontUnit, List.getElem?_drop, hcode, hnext, hlast, hheader]

/-- A start code of four bytes is the only one at its positions, and found at the second of them. -/
private theorem codesFrom_four (codec : Codec) (h : startCodeLength (data.drop offset) = 4) :
    (codesFrom data offset 4).map (unitAt codec data) =
      frontUnit codec offset 4 (data.drop offset) := by
  obtain ⟨h₀, h₁, h₂, h₃⟩ : data[offset]? = some 0 ∧ data[offset + 1]? = some 0 ∧
      data[offset + 2]? = some 0 ∧ data[offset + 3]? = some 1 := by
    simpa [List.getElem?_drop] using (startCodeLength_eq_four_iff _).mp h
  have hfirst : codeAt data offset = false := codeAt_eq_false (by simp [h₂])
  have hnext : codeAt data (offset + 2) = false := codeAt_eq_false (by simp [h₃])
  have hlast : codeAt data (offset + 3) = false := codeAt_eq_false (by simp [h₃])
  have hlong : longCodeAt data (offset + 1) = true := by simp [longCodeAt, h₀]
  by_cases hheader : offset + 4 < data.length
  · have hcode : codeAt data (offset + 1) = true := codeAt_iff.mpr ⟨h₁, h₂, h₃, hheader⟩
    simp [codesFrom, List.range', frontUnit, unitAt, List.getElem?_drop, hcode, hlong, hfirst,
      hnext, hlast, hheader]
  · have hcode : codeAt data (offset + 1) = false := by
      rw [Bool.eq_false_iff, ne_eq, codeAt_iff]
      tauto
    simp [codesFrom, List.range', frontUnit, List.getElem?_drop, hcode, hfirst, hnext, hlast,
      hheader]

/-- From any position that no start code reaches over, the scan finds what stands at the positions
behind it. The induction is on what is left to scan: each step takes one byte or one start code, and
comes to such a position again. -/
theorem unitsFrom_eq_codesFrom (codec : Codec) (data : Bytes) (offset : Nat)
    (hcut : CutAt data offset) :
    unitsFrom codec offset 0 (data.drop offset) =
      (codesFrom data offset (data.length - offset)).map (unitAt codec data) := by
  induction hleft : data.length - offset using Nat.strongRecOn generalizing offset with
  | ind left ih =>
    -- A step of `n` bytes: their own start codes, and those from a later position.
    have step (n : Nat) (hpos : 0 < n) (hn : n ≤ left) (hcut' : CutAt data (offset + n)) :
        (codesFrom data offset left).map (unitAt codec data) =
          (codesFrom data offset n).map (unitAt codec data) ++
            unitsFrom codec (offset + n) 0 (data.drop (offset + n)) := by
      rw [ih (left - n) (by omega) (offset + n) hcut' (by omega), ← List.map_append,
        ← codesFrom_add, Nat.add_sub_cancel' hn]
    by_cases hend : left = 0
    · have hnil : data.drop offset = [] := List.drop_eq_nil_of_le (by omega)
      simp [hnil, hend, codesFrom]
    have hlt : offset < data.length := by omega
    rcases startCodeLength_cases (data.drop offset) with h | h | h
    · rw [step 1 (by omega) (by omega) (cutAt_succ h)]
      have hcons : data.drop offset = data[offset] :: data.drop (offset + 1) :=
        List.drop_eq_getElem_cons hlt
      rw [hcons] at h ⊢
      rw [unitsFrom_of_no_code codec offset h]
      rw [← hcons] at h
      simp [codesFrom, codeAt_of_no_code h]
    · obtain ⟨-, -, hone⟩ : data[offset]? = some 0 ∧ data[offset + 1]? = some 0 ∧
          data[offset + 2]? = some 1 := by
        simpa [List.getElem?_drop] using (startCodeLength_eq_three_iff _).mp h
      have hlen : offset + 2 < data.length := (List.getElem?_eq_some_iff.mp hone).1
      rw [step 3 (by omega) (by omega) (cutAt_of_one hone), codesFrom_three codec hcut h,
        unitsFrom_of_code codec offset h (by omega), List.drop_drop]
    · obtain ⟨-, -, -, hone⟩ : data[offset]? = some 0 ∧ data[offset + 1]? = some 0 ∧
          data[offset + 2]? = some 0 ∧ data[offset + 3]? = some 1 := by
        simpa [List.getElem?_drop] using (startCodeLength_eq_four_iff _).mp h
      have hlen : offset + 3 < data.length := (List.getElem?_eq_some_iff.mp hone).1
      rw [step 4 (by omega) (by omega) (cutAt_of_one hone), codesFrom_four codec h,
        unitsFrom_of_code codec offset h (by omega), List.drop_drop]

end

/-- The position of the header byte of a unit. -/
def NalUnit.header (unit : NalUnit) : Nat := unit.offset + unit.startCodeLength

theorem unitAt_header (codec : Codec) (data : Bytes) (p : Nat) :
    (unitAt codec data p).header = p + 3 := by
  unfold unitAt NalUnit.header
  split
  case isTrue h =>
    have hpos : 0 < p := by
      simp only [longCodeAt, Bool.and_eq_true, decide_eq_true_eq] at h
      exact h.1
    show p - 1 + 4 = p + 3
    omega
  case isFalse => rfl

/-- Of two start codes the later one begins behind the earlier one. -/
theorem unitAt_header_le {codec : Codec} {data : Bytes} {p q : Nat} (hp : codeAt data p = true)
    (hq : codeAt data q = true) (h : p < q) :
    (unitAt codec data p).header ≤ (unitAt codec data q).offset := by
  obtain ⟨-, -, hone, -⟩ := codeAt_iff.mp hp
  obtain ⟨h₀, h₁, -, -⟩ := codeAt_iff.mp hq
  have hbehind : p + 3 ≤ q := by
    by_contra hnear
    obtain rfl | rfl : q = p + 1 ∨ q = p + 2 := by omega
    · simp [hone] at h₁
    · simp [hone] at h₀
  rw [unitAt_header]
  unfold unitAt
  split
  case isTrue hlong =>
    have hne : q ≠ p + 3 := by
      rintro rfl
      simp [longCodeAt, hone] at hlong
    show p + 3 ≤ q - 1
    omega
  case isFalse => exact hbehind

/-- The scan yields one unit for each position where `00 00 01` has a header byte behind it, in the
order of the positions, and no other; and no start code begins before the header of the one in front
of it. -/
theorem units_eq_codes (codec : Codec) (data : Bytes) :
    units codec data = ((List.range data.length).filter (codeAt data)).map (unitAt codec data) ∧
      (units codec data).Pairwise fun u v => u.offset + u.startCodeLength ≤ v.offset := by
  have heq := unitsFrom_eq_codesFrom codec data 0 (cutAt_zero data)
  simp only [List.drop_zero, Nat.sub_zero, codesFrom, ← List.range_eq_range'] at heq
  refine ⟨heq, ?_⟩
  rw [show units codec data = _ from heq, List.pairwise_map, List.pairwise_filter]
  exact List.pairwise_lt_range.imp fun h hp hq => unitAt_header_le hp hq h

/-- Back-to-back start codes, a run of zeros, and a start code at the very end. -/
example : units .h264 [0, 0, 1, 0, 0, 1, 0x67, 0, 0, 0, 0, 1, 0x65, 0, 0, 1] =
    [⟨0, 3, 0⟩, ⟨3, 3, 7⟩, ⟨8, 4, 5⟩] := by decide

end HeadsetStream.Bitstream
