import StreamRelay.BigEndian
import StreamRelay.Protocol

/-! The header of a packet: its whole length, its type and its stream, the same in the sender
and in both receivers. What a receiver lets through is its own affair. -/
namespace StreamRelay

open BigEndian

structure PacketHeader where
  length : UInt32
  type : UInt8
  streamId : UInt16
  deriving DecidableEq, Repr

def tcpMsgTypeVideoData : UInt8 := 1

def tcpMsgTypeHeartbeat : UInt8 := 2

def tcpMsgTypeStreamStart : UInt8 := 3

def tcpMsgTypeStreamStop : UInt8 := 4

def tcpMaxPacketSize : Nat := 10 * 1024 * 1024

/-- The fields as both receivers read them; the callers have seven bytes. -/
def PacketHeader.read (buf : Bytes) : PacketHeader where
  length := BigEndian.word32 (buf.getD 0 0) (buf.getD 1 0) (buf.getD 2 0) (buf.getD 3 0)
  type := buf.getD 4 0
  streamId := word16 (buf.getD 5 0) (buf.getD 6 0)

/-- The seven bytes that announce a packet of so many bytes, these included. -/
def headerBytes (total : Nat) (type : UInt8) (streamId : UInt16) : Bytes :=
  bytes32 total ++ [type] ++ bytes16 streamId.toNat

@[simp] theorem headerBytes_length (total : Nat) (type : UInt8) (streamId : UInt16) :
    (headerBytes total type streamId).length = tcpHeaderSize := rfl

/-- A header is read back, its length as far as 32 bits hold it. -/
theorem read_headerBytes (total : Nat) (type : UInt8) (streamId : UInt16) (rest : Bytes) :
    PacketHeader.read (headerBytes total type streamId ++ rest) =
      ⟨UInt32.ofNat total, type, streamId⟩ := by
  have length := word32_bytes total
  have stream := word16_bytes streamId.toNat
  rw [UInt16.ofNat_toNat] at stream
  exact congrArg₂ (fun length stream => (⟨length, type, stream⟩ : PacketHeader)) length stream

end StreamRelay
