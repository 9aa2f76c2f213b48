import HeadsetStream.Bitstream.Codec

/-!
# NAL units of a byte string

A unit begins with a start code, `00 00 01` or `00 00 00 01`, followed by its header byte. The scan
looks at one position after the other, takes the first start code it meets and goes on at the header
byte behind it, so start codes never overlap. A start code that ends the string has no header byte
and is no unit.
-/

namespace HeadsetStream.Bitstream

/-- A NAL unit: where its start code begins, how long that is, and the type its header names. -/
structure NalUnit where
  offset : Nat
  startCodeLength : Nat
  type : UInt8
  deriving DecidableEq, Repr, Inhabited

/-- Length of the start code that `data` begins with, zero if it begins with none. -/
def startCodeLength : Bytes → Nat
  | a :: b :: c :: rest =>
    if a == 0 && b == 0 then
      if c == 1 then 3
      else if c == 0 then
        match rest with
        | d :: _ => if d == 1 then 4 else 0
        | [] => 0
      else 0
    else 0
  | _ => 0

@[simp] theorem startCodeLength_nil : startCodeLength [] = 0 := rfl

theorem startCodeLength_cases (data : Bytes) :
    startCodeLength data = 0 ∨ startCodeLength data = 3 ∨ startCodeLength data = 4 := by
  unfold startCodeLength
  repeat' split
  all_goals simp

/-- The units of `data`, which stands `offset` bytes into the whole; the first `skip` bytes belong
to a start code already taken. -/
def unitsFrom (codec : Codec) : (offset skip : Nat) → (data : Bytes) → List NalUnit
  | _, _, [] => []
  | offset, skip + 1, _ :: rest => unitsFrom codec (offset + 1) skip rest
  | offset, 0, b :: rest =>
    match startCodeLength (b :: rest) with
    | 0 => unitsFrom codec (offset + 1) 0 rest
    | length + 1 =>
      match rest[length]? with
      | none => unitsFrom codec (offset + 1) length rest
      | some header =>
        ⟨offset, length + 1, codec.unitType header⟩ :: unitsFrom codec (offset + 1) length rest

/-- The NAL units of a byte string, in order. -/
def units (codec : Codec) (data : Bytes) : List NalUnit :=
  unitsFrom codec 0 0 data

@[simp] theorem unitsFrom_nil (codec : Codec) (offset skip : Nat) :
    unitsFrom codec offset skip [] = [] := by
  cases skip <;> rfl

@[simp] theorem units_nil (codec : Codec) : units codec [] = [] := rfl

namespace NalUnit

/-- Whether the unit is a parameter set. -/
def isParameterSet (codec : Codec) (unit : NalUnit) : Bool :=
  codec.isParameterSet unit.type

/-- Whether the unit is a slice of a keyframe. -/
def isKeyframeSlice (codec : Codec) (unit : NalUnit) : Bool :=
  codec.isKeyframeSlice unit.type

end NalUnit

end HeadsetStream.Bitstream
