import HeadsetStream.Wire.Packet
import Mathlib.Logic.Function.Basic

/-!
# The format of packets from the server

Words that are taken off the front of a byte string, one after the other, are the words that were
written there. A packet can be read that way too, with no value where a word is taken that is not
there: it comes out as `Packet.ofBytes` reads it by offsets, so that no read runs past the end. The
main statement is that video packets and time syncs are read exactly as they are written, and what
every other packet is refused for.
-/

namespace HeadsetStream.Bytes

/-- Takes a number of `width` bytes off the front, if they are there. -/
def next? (width : Nat) (b : Bytes) : Option (Nat × Bytes) :=
  if width ≤ b.length then some (toNat (b.take width), b.drop width) else none

def next32? (b : Bytes) : Option (UInt32 × Bytes) :=
  (next? 4 b).map fun taken => (UInt32.ofNat taken.1, taken.2)

def next64? (b : Bytes) : Option (UInt64 × Bytes) :=
  (next? 8 b).map fun taken => (UInt64.ofNat taken.1, taken.2)

variable {b rest : Bytes} {offset width n : Nat}

/-- The number that is taken is the number that was written. -/
theorem next?_eq_some_iff :
    next? width b = some (n, rest) ↔ n < fieldRange width ∧ b = ofNat width n ++ rest := by
  constructor
  · intro h
    obtain ⟨hlength, hnext⟩ := Option.ite_none_right_eq_some.mp h
    obtain ⟨rfl, rfl⟩ := Prod.mk.inj (Option.some.inj hnext)
    have hwidth : (b.take width).length = width := List.length_take_of_le hlength
    have hlt := toNat_lt (b.take width)
    have hback := ofNat_toNat (b.take width)
    rw [hwidth] at hlt hback
    exact ⟨hlt, by rw [hback, List.take_append_drop]⟩
  · rintro ⟨hlt, rfl⟩
    have hwidth := length_ofNat width n
    rw [next?, if_pos (by simp), List.take_left' hwidth, List.drop_left' hwidth, toNat_ofNat hlt]

theorem next32?_append (word : UInt32) (rest : Bytes) :
    next32? (ofNat 4 word.toNat ++ rest) = some (word, rest) := by
  rw [next32?, next?_eq_some_iff.mpr ⟨word.toNat_lt, rfl⟩, Option.map_some, UInt32.ofNat_toNat]

theorem next64?_append (word : UInt64) (rest : Bytes) :
    next64? (ofNat 8 word.toNat ++ rest) = some (word, rest) := by
  rw [next64?, next?_eq_some_iff.mpr ⟨word.toNat_lt, rfl⟩, Option.map_some, UInt64.ofNat_toNat]

theorem next32?_eq_some_iff {word : UInt32} :
    next32? b = some (word, rest) ↔ b = ofNat 4 word.toNat ++ rest := by
  constructor
  · intro h
    obtain ⟨⟨n, rest⟩, hnext, hword⟩ := Option.map_eq_some_iff.mp h
    obtain ⟨rfl, rfl⟩ := Prod.mk.inj hword
    obtain ⟨hlt, rfl⟩ := next?_eq_some_iff.mp hnext
    rw [UInt32.toNat_ofNat_of_lt' hlt]
  · rintro rfl
    exact next32?_append word rest

theorem next64?_eq_some_iff {word : UInt64} :
    next64? b = some (word, rest) ↔ b = ofNat 8 word.toNat ++ rest := by
  constructor
  · intro h
    obtain ⟨⟨n, rest⟩, hnext, hword⟩ := Option.map_eq_some_iff.mp h
    obtain ⟨rfl, rfl⟩ := Prod.mk.inj hword
    obtain ⟨hlt, rfl⟩ := next?_eq_some_iff.mp hnext
    rw [UInt64.toNat_ofNat_of_lt' hlt]
  · rintro rfl
    exact next64?_append word rest

theorem next?_drop (h : offset + width ≤ b.length) :
    next? width (b.drop offset) = some (toNat (b.field offset width), b.drop (offset + width)) := by
  have hlength : width ≤ (b.drop offset).length := by
    rw [List.length_drop]
    omega
  rw [next?, if_pos hlength, List.drop_drop, field]

/-- Behind `offset` bytes the word at that offset comes next. -/
theorem next32?_drop (h : offset + 4 ≤ b.length) :
    next32? (b.drop offset) = some (b.word32 offset, b.drop (offset + 4)) := by
  rw [next32?, next?_drop h]
  rfl

theorem next64?_drop (h : offset + 8 ≤ b.length) :
    next64? (b.drop offset) = some (b.word64 offset, b.drop (offset + 8)) := by
  rw [next64?, next?_drop h]
  rfl

end HeadsetStream.Bytes

namespace HeadsetStream.Wire

variable {b rest packet payload : Bytes}

namespace VideoHeader

/-- Takes a header off the front of what follows the type of a video packet. -/
def next? (b : Bytes) : Option (VideoHeader × Bytes) := do
  let (counter, b) ← b.next32?
  let (frame, b) ← b.next64?
  let (videoFrame, b) ← b.next64?
  let (sentTime, b) ← b.next64?
  let (frameSize, b) ← b.next32?
  let (flags, b) ← b.next32?
  return ({ counter, frame, videoFrame, sentTime, frameSize, flags }, b)

/-- The header that is taken is the header that was written. -/
theorem next?_eq_some_iff {header : VideoHeader} :
    next? b = some (header, rest) ↔
      Bytes.ofNat 4 Packet.videoType.toNat ++ b = header.toBytes rest := by
  rw [toBytes, List.append_cancel_left_eq]
  constructor
  · intro h
    simp only [next?, Option.bind_eq_bind, Option.bind_eq_some_iff, Prod.exists,
      Bytes.next32?_eq_some_iff, Bytes.next64?_eq_some_iff] at h
    obtain ⟨counter, _, rfl, frame, _, rfl, videoFrame, _, rfl, sentTime, _, rfl, frameSize, _,
      rfl, flags, _, rfl, heq⟩ := h
    obtain ⟨rfl, rfl⟩ := Prod.mk.inj (Option.some.inj heq)
    rfl
  · rintro rfl
    simp only [next?, Bytes.next32?_append, Bytes.next64?_append, Option.bind_eq_bind,
      Option.bind_some]
    rfl

/-- The header behind the type of a packet is the one that is read by offsets. -/
theorem next?_drop (h : Packet.videoHeaderSize ≤ packet.length) :
    next? (packet.drop 4) = some (ofBytes packet, packet.drop Packet.videoHeaderSize) := by
  simp only [Packet.videoHeaderSize] at h
  simp (disch := omega) only [next?, Bytes.next32?_drop, Bytes.next64?_drop, Option.bind_eq_bind,
    Option.bind_some]
  rfl

end VideoHeader

namespace TimeSync

/-- Takes a time sync off the front of what follows the type of its packet. -/
def next? (b : Bytes) : Option (TimeSync × Bytes) := do
  let (mode, b) ← b.next32?
  let (sequence, b) ← b.next64?
  let (serverTime, b) ← b.next64?
  let (clientTime, b) ← b.next64?
  return ({ mode, sequence, serverTime, clientTime }, b)

/-- The time sync that is taken is the time sync that was written. -/
theorem next?_eq_some_iff {sync : TimeSync} :
    next? b = some (sync, rest) ↔
      Bytes.ofNat 4 Packet.timeSyncType.toNat ++ b = sync.toBytes ++ rest := by
  simp only [toBytes, List.append_assoc, List.append_cancel_left_eq]
  constructor
  · intro h
    simp only [next?, Option.bind_eq_bind, Option.bind_eq_some_iff, Prod.exists,
      Bytes.next32?_eq_some_iff, Bytes.next64?_eq_some_iff] at h
    obtain ⟨mode, _, rfl, sequence, _, rfl, serverTime, _, rfl, clientTime, _, rfl, heq⟩ := h
    obtain ⟨rfl, rfl⟩ := Prod.mk.inj (Option.some.inj heq)
    rfl
  · rintro rfl
    simp only [next?, Bytes.next32?_append, Bytes.next64?_append, Option.bind_eq_bind,
      Option.bind_some]
    rfl

/-- The time sync behind the type of a packet is the one that is read by offsets. -/
theorem next?_drop (h : Packet.timeSyncSize ≤ packet.length) :
    next? (packet.drop 4) = some (ofBytes packet, packet.drop Packet.timeSyncSize) := by
  simp only [Packet.timeSyncSize] at h
  simp (disch := omega) only [next?, Bytes.next32?_drop, Bytes.next64?_drop, Option.bind_eq_bind,
    Option.bind_some]
  rfl

end TimeSync

namespace Packet

/-- Reads a packet word by word. There is no value if a word is taken that is not there. -/
def scan? (packet : Bytes) : Option (Except PacketError Packet) :=
  if packet.length < 4 then return .error (.tooShort packet.length 4)
  else do
    let (type, rest) ← packet.next32?
    if type = videoType then
      if packet.length < videoHeaderSize then
        return .error (.tooShort packet.length videoHeaderSize)
      else
        let (header, _) ← VideoHeader.next? rest
        return .ok (.video header (packet.drop videoHeaderSize))
    else if type = timeSyncType then
      if packet.length < timeSyncSize then return .error (.tooShort packet.length timeSyncSize)
      else
        let (sync, _) ← TimeSync.next? rest
        return .ok (.timeSync sync)
    else return .error (.unknownType type)

/-- The packet begins with this type. -/
def HasType (packet : Bytes) (type : UInt32) : Prop :=
  ∃ rest, packet = Bytes.ofNat 4 type.toNat ++ rest

/-- What a packet is refused for. -/
inductive Refused (packet : Bytes) : PacketError → Prop where
  | noType (h : packet.length < 4) : Refused packet (.tooShort packet.length 4)
  | shortVideo (htype : HasType packet videoType) (h : packet.length < videoHeaderSize) :
    Refused packet (.tooShort packet.length videoHeaderSize)
  | shortTimeSync (htype : HasType packet timeSyncType) (h : packet.length < timeSyncSize) :
    Refused packet (.tooShort packet.length timeSyncSize)
  | unknown {type : UInt32} (htype : HasType packet type) (hvideo : type ≠ videoType)
    (hsync : type ≠ timeSyncType) : Refused packet (.unknownType type)

theorem next32?_of_le (h : 4 ≤ packet.length) :
    packet.next32? = some (packet.word32 0, packet.drop 4) :=
  @Bytes.next32?_drop packet 0 h

theorem type_append_drop (h : 4 ≤ packet.length) :
    Bytes.ofNat 4 (packet.word32 0).toNat ++ packet.drop 4 = packet :=
  (Bytes.next32?_eq_some_iff.mp (next32?_of_le h)).symm

theorem hasType_iff {type : UInt32} :
    HasType packet type ↔ 4 ≤ packet.length ∧ packet.word32 0 = type := by
  constructor
  · rintro ⟨rest, rfl⟩
    have hlength : 4 ≤ (Bytes.ofNat 4 type.toNat ++ rest).length := by simp
    have hnext := next32?_of_le hlength
    rw [Bytes.next32?_append] at hnext
    exact ⟨hlength, (Prod.mk.inj (Option.some.inj hnext)).1.symm⟩
  · rintro ⟨hlength, rfl⟩
    exact ⟨packet.drop 4, (type_append_drop hlength).symm⟩

/-- No read runs past the end: each word that is taken is there, and it is the one at the offset
that the packet is read by. -/
private theorem scan?_eq (packet : Bytes) : scan? packet = some (ofBytes packet) := by
  unfold scan? ofBytes
  split
  · rfl
  · next hlength =>
    rw [next32?_of_le (by omega)]
    simp only [Option.bind_eq_bind, Option.bind_some]
    split
    · split
      · rfl
      · next hsize =>
        rw [VideoHeader.next?_drop (by omega)]
        rfl
    · split
      · split
        · rfl
        · next hsize =>
          rw [TimeSync.next?_drop (by omega)]
          rfl
      · rfl

theorem ofBytes_of_video (htype : HasType packet videoType)
    (hsize : videoHeaderSize ≤ packet.length) :
    ofBytes packet = .ok (.video (.ofBytes packet) (packet.drop videoHeaderSize)) := by
  obtain ⟨hlength, hword⟩ := hasType_iff.mp htype
  rw [ofBytes, if_neg (by omega), if_pos hword, if_neg (by omega)]

theorem ofBytes_of_timeSync (htype : HasType packet timeSyncType)
    (hsize : timeSyncSize ≤ packet.length) :
    ofBytes packet = .ok (.timeSync (.ofBytes packet)) := by
  obtain ⟨hlength, hword⟩ := hasType_iff.mp htype
  rw [ofBytes, if_neg (by omega), if_neg (by rw [hword]; decide), if_pos hword,
    if_neg (by omega)]

theorem Refused.ofBytes_eq {error : PacketError} (h : Refused packet error) :
    ofBytes packet = .error error := by
  cases h with
  | noType hlength => exact if_pos hlength
  | shortVideo htype hsize =>
    obtain ⟨hlength, hword⟩ := hasType_iff.mp htype
    rw [ofBytes, if_neg (by omega), if_pos hword, if_pos hsize]
  | shortTimeSync htype hsize =>
    obtain ⟨hlength, hword⟩ := hasType_iff.mp htype
    rw [ofBytes, if_neg (by omega), if_neg (by rw [hword]; decide), if_pos hword, if_pos hsize]
  | unknown htype hvideo hsync =>
    obtain ⟨hlength, rfl⟩ := hasType_iff.mp htype
    rw [ofBytes, if_neg (by omega), if_neg hvideo, if_neg hsync]

/-- A packet is refused, or it is of one of the two types and long enough for it. -/
private theorem refused_or (packet : Bytes) :
    (∃ error, Refused packet error) ∨
      (HasType packet videoType ∧ videoHeaderSize ≤ packet.length) ∨
      HasType packet timeSyncType ∧ timeSyncSize ≤ packet.length := by
  by_cases hlength : packet.length < 4
  · exact .inl ⟨_, .noType hlength⟩
  have htype : HasType packet (packet.word32 0) := hasType_iff.mpr ⟨by omega, rfl⟩
  by_cases hvideo : packet.word32 0 = videoType
  · rw [hvideo] at htype
    by_cases hsize : packet.length < videoHeaderSize
    · exact .inl ⟨_, .shortVideo htype hsize⟩
    · exact .inr (.inl ⟨htype, by omega⟩)
  by_cases hsync : packet.word32 0 = timeSyncType
  · rw [hsync] at htype
    by_cases hsize : packet.length < timeSyncSize
    · exact .inl ⟨_, .shortTimeSync htype hsize⟩
    · exact .inr (.inr ⟨htype, by omega⟩)
  · exact .inl ⟨_, .unknown htype hvideo hsync⟩

theorem ofBytes_toBytes (header : VideoHeader) (payload : Bytes) :
    ofBytes (header.toBytes payload) = .ok (.video header payload) := by
  have hsize : videoHeaderSize ≤ (header.toBytes payload).length := by simp
  have htype : HasType (header.toBytes payload) videoType := ⟨_, rfl⟩
  have hnext : VideoHeader.next? ((header.toBytes payload).drop 4) = some (header, payload) := by
    obtain ⟨hlength, hword⟩ := hasType_iff.mp htype
    rw [VideoHeader.next?_eq_some_iff, ← hword, type_append_drop hlength]
  rw [VideoHeader.next?_drop hsize] at hnext
  obtain ⟨hheader, hpayload⟩ := Prod.mk.inj (Option.some.inj hnext)
  rw [ofBytes_of_video htype hsize, hheader, hpayload]

theorem ofBytes_timeSync_append (sync : TimeSync) (rest : Bytes) :
    ofBytes (sync.toBytes ++ rest) = .ok (.timeSync sync) := by
  have hsize : timeSyncSize ≤ (sync.toBytes ++ rest).length := by simp
  have htype : HasType (sync.toBytes ++ rest) timeSyncType :=
    ⟨_, List.append_assoc ..⟩
  have hnext : TimeSync.next? ((sync.toBytes ++ rest).drop 4) = some (sync, rest) := by
    obtain ⟨hlength, hword⟩ := hasType_iff.mp htype
    rw [TimeSync.next?_eq_some_iff, ← hword, type_append_drop hlength]
  rw [TimeSync.next?_drop hsize] at hnext
  rw [ofBytes_of_timeSync htype hsize, (Prod.mk.inj (Option.some.inj hnext)).1]

private theorem eq_toBytes (htype : HasType packet videoType)
    (hsize : videoHeaderSize ≤ packet.length) :
    packet = (VideoHeader.ofBytes packet).toBytes (packet.drop videoHeaderSize) := by
  obtain ⟨hlength, hword⟩ := hasType_iff.mp htype
  rw [← VideoHeader.next?_eq_some_iff.mp (VideoHeader.next?_drop hsize), ← hword,
    type_append_drop hlength]

private theorem eq_timeSync_append (htype : HasType packet timeSyncType)
    (hsize : timeSyncSize ≤ packet.length) :
    packet = (TimeSync.ofBytes packet).toBytes ++ packet.drop timeSyncSize := by
  obtain ⟨hlength, hword⟩ := hasType_iff.mp htype
  rw [← TimeSync.next?_eq_some_iff.mp (TimeSync.next?_drop hsize), ← hword,
    type_append_drop hlength]

/-- What reading a packet comes to is settled by its form. -/
theorem ofBytes_cases (packet : Bytes) :
    (∃ error, Refused packet error ∧ ofBytes packet = .error error) ∨
      (∃ header payload, packet = VideoHeader.toBytes header payload ∧
        ofBytes packet = .ok (.video header payload)) ∨
      ∃ sync rest, packet = TimeSync.toBytes sync ++ rest ∧
        ofBytes packet = .ok (.timeSync sync) := by
  rcases refused_or packet with ⟨error, hrefused⟩ | ⟨htype, hsize⟩ | ⟨htype, hsize⟩
  · exact .inl ⟨error, hrefused, hrefused.ofBytes_eq⟩
  · exact .inr (.inl ⟨_, _, eq_toBytes htype hsize, ofBytes_of_video htype hsize⟩)
  · exact .inr (.inr ⟨_, _, eq_timeSync_append htype hsize, ofBytes_of_timeSync htype hsize⟩)

theorem ofBytes_eq_video_iff {header : VideoHeader} :
    ofBytes packet = .ok (.video header payload) ↔ packet = header.toBytes payload := by
  constructor
  · intro h
    rcases ofBytes_cases packet with ⟨_, -, hread⟩ | ⟨_, _, hpacket, hread⟩ | ⟨_, _, -, hread⟩
    · exact nomatch hread.symm.trans h
    · obtain ⟨rfl, rfl⟩ := Packet.video.inj (Except.ok.inj (hread.symm.trans h))
      exact hpacket
    · exact nomatch hread.symm.trans h
  · rintro rfl
    exact ofBytes_toBytes header payload

theorem ofBytes_eq_timeSync_iff {sync : TimeSync} :
    ofBytes packet = .ok (.timeSync sync) ↔ ∃ rest, packet = sync.toBytes ++ rest := by
  constructor
  · intro h
    rcases ofBytes_cases packet with ⟨_, -, hread⟩ | ⟨_, _, -, hread⟩ | ⟨_, rest, hpacket, hread⟩
    · exact nomatch hread.symm.trans h
    · exact nomatch hread.symm.trans h
    · obtain rfl := Packet.timeSync.inj (Except.ok.inj (hread.symm.trans h))
      exact ⟨rest, hpacket⟩
  · rintro ⟨rest, rfl⟩
    exact ofBytes_timeSync_append sync rest

theorem ofBytes_eq_error_iff {error : PacketError} :
    ofBytes packet = .error error ↔ Refused packet error := by
  constructor
  · intro h
    rcases ofBytes_cases packet with ⟨_, hrefused, hread⟩ | ⟨_, _, -, hread⟩ | ⟨_, _, -, hread⟩
    · obtain rfl := Except.error.inj (hread.symm.trans h)
      exact hrefused
    · exact nomatch hread.symm.trans h
    · exact nomatch hread.symm.trans h
  · exact Refused.ofBytes_eq

theorem toBytes_injective : Function.Injective2 VideoHeader.toBytes := by
  intro header other payload rest h
  have hread := ofBytes_toBytes header payload
  rw [h, ofBytes_toBytes] at hread
  obtain ⟨hheader, hpayload⟩ := Packet.video.inj (Except.ok.inj hread)
  exact ⟨hheader.symm, hpayload.symm⟩

/-- A packet is read as video or as a time sync exactly if it is one as it is written, it is refused
for exactly one reason otherwise, and no word is read that is not there. -/
theorem read_exactly_as_written :
    (∀ packet header payload,
      ofBytes packet = .ok (.video header payload) ↔ packet = header.toBytes payload) ∧
    (∀ packet sync,
      ofBytes packet = .ok (.timeSync sync) ↔ ∃ rest, packet = sync.toBytes ++ rest) ∧
    (∀ packet error, ofBytes packet = .error error ↔ Refused packet error) ∧
    (∀ header payload, ofBytes (header.toBytes payload) = .ok (.video header payload)) ∧
    (∀ sync, ofBytes sync.toBytes = .ok (.timeSync sync)) ∧
    Function.Injective2 VideoHeader.toBytes ∧
    ∀ packet, scan? packet = some (ofBytes packet) := by
  refine ⟨fun _ _ _ => ofBytes_eq_video_iff, fun _ _ => ofBytes_eq_timeSync_iff,
    fun _ _ => ofBytes_eq_error_iff, ofBytes_toBytes, fun sync => ?_, toBytes_injective, scan?_eq⟩
  exact ofBytes_eq_timeSync_iff.mpr ⟨[], (List.append_nil _).symm⟩

end Packet

end HeadsetStream.Wire
