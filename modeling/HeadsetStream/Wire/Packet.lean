import HeadsetStream.Bytes
import HeadsetStream.Video.FrameIndex

/-!
# Packets from the server

A packet opens with its type as a 32-bit word. A video packet has a header of 40 bytes, and the rest
is bitstream; a time sync has 32 bytes, and what follows them is ignored. All words are
little-endian. `Packet.ofBytes` reads a packet, `VideoHeader.toBytes` and `TimeSync.toBytes` write
the two kinds.
-/

namespace HeadsetStream.Wire
open Video

/-- The header of a video packet. -/
structure VideoHeader where
  /-- One more than in the packet before; a gap means loss. -/
  counter : UInt32
  /-- The pose sample the frame was drawn from. -/
  frame : FrameIndex
  videoFrame : UInt64
  sentTime : UInt64
  frameSize : UInt32
  flags : UInt32
  deriving DecidableEq, Repr, Inhabited

/-- A message of the clock comparison between server and client; times are in microseconds. -/
structure TimeSync where
  mode : UInt32
  sequence : UInt64
  serverTime : UInt64
  clientTime : UInt64
  deriving DecidableEq, Repr, Inhabited

inductive Packet where
  | video (header : VideoHeader) (payload : Bytes)
  | timeSync (sync : TimeSync)
  deriving DecidableEq, Repr

inductive PacketError where
  | tooShort (length minimum : Nat)
  | unknownType (type : UInt32)
  deriving DecidableEq, Repr

def PacketError.message : PacketError → String
  | .tooShort length minimum => s!"packet too short: {length} bytes, minimum {minimum}"
  | .unknownType type => s!"unknown packet type: {type}"

namespace Packet

def timeSyncType : UInt32 := 7

def videoType : UInt32 := 9

def videoHeaderSize : Nat := 40

def timeSyncSize : Nat := 32

end Packet

namespace VideoHeader

/-- A video packet with this header. -/
def toBytes (header : VideoHeader) (payload : Bytes) : Bytes :=
  Bytes.ofNat 4 Packet.videoType.toNat ++
  (Bytes.ofNat 4 header.counter.toNat ++
  (Bytes.ofNat 8 header.frame.toNat ++
  (Bytes.ofNat 8 header.videoFrame.toNat ++
  (Bytes.ofNat 8 header.sentTime.toNat ++
  (Bytes.ofNat 4 header.frameSize.toNat ++
  (Bytes.ofNat 4 header.flags.toNat ++ payload))))))

/-- The header at the front of a video packet. -/
def ofBytes (packet : Bytes) : VideoHeader where
  counter := packet.word32 4
  frame := packet.word64 8
  videoFrame := packet.word64 16
  sentTime := packet.word64 24
  frameSize := packet.word32 32
  flags := packet.word32 36

@[simp] theorem length_toBytes (header : VideoHeader) (payload : Bytes) :
    (header.toBytes payload).length = Packet.videoHeaderSize + payload.length := by
  simp [toBytes, Packet.videoHeaderSize]
  omega

end VideoHeader

namespace TimeSync

/-- A request that the client answers with its own time. -/
def ping : UInt32 := 0

/-- The client's answer. -/
def reply : UInt32 := 1

/-- The server's last word, from which the client knows round trip and offset. -/
def result : UInt32 := 2

/-- A time sync packet. -/
def toBytes (sync : TimeSync) : Bytes :=
  Bytes.ofNat 4 Packet.timeSyncType.toNat ++
  (Bytes.ofNat 4 sync.mode.toNat ++
  (Bytes.ofNat 8 sync.sequence.toNat ++
  (Bytes.ofNat 8 sync.serverTime.toNat ++
  Bytes.ofNat 8 sync.clientTime.toNat)))

/-- The time sync at the front of a packet. -/
def ofBytes (packet : Bytes) : TimeSync where
  mode := packet.word32 4
  sequence := packet.word64 8
  serverTime := packet.word64 16
  clientTime := packet.word64 24

@[simp] theorem length_toBytes (sync : TimeSync) :
    sync.toBytes.length = Packet.timeSyncSize := by
  simp [toBytes, Packet.timeSyncSize]

end TimeSync

namespace Packet

/-- Reads a packet. -/
def ofBytes (packet : Bytes) : Except PacketError Packet :=
  if packet.length < 4 then .error (.tooShort packet.length 4)
  else if packet.word32 0 = videoType then
    if packet.length < videoHeaderSize then .error (.tooShort packet.length videoHeaderSize)
    else .ok (.video (.ofBytes packet) (packet.drop videoHeaderSize))
  else if packet.word32 0 = timeSyncType then
    if packet.length < timeSyncSize then .error (.tooShort packet.length timeSyncSize)
    else .ok (.timeSync (.ofBytes packet))
  else .error (.unknownType (packet.word32 0))

end Packet

end HeadsetStream.Wire
