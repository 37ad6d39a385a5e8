import StreamRelay.Server.Packet
import StreamRelay.Tlv

/-! The headers that stream_server takes and makes. -/
namespace StreamRelay.Server

def protocolParseHeader (buf : Bytes) : Option PacketHeader :=
  let header := PacketHeader.read buf
  if header.length.toNat < tcpHeaderSize || header.length.toNat > tcpMaxPacketSize then none
  else if header.type < tcpMsgTypeVideoData || header.type > tcpMsgTypeStreamStop then none
  else if header.streamId = 0 || header.streamId.toNat > maxStreamsLimit then none
  else some header

def protocolBuildHeader (type : UInt8) (streamId : UInt16) (payloadLen : UInt32) : Bytes :=
  headerBytes (UInt32.ofNat tcpHeaderSize + payloadLen).toNat type streamId

def MessageType.code : MessageType → UInt8
  | .videoData => tcpMsgTypeVideoData
  | .heartbeat => tcpMsgTypeHeartbeat
  | .streamStart => tcpMsgTypeStreamStart
  | .streamStop => tcpMsgTypeStreamStop

/-- The case of handle_packet that a type selects. -/
def MessageType.ofCode (code : UInt8) : Option MessageType :=
  if code = tcpMsgTypeStreamStart then some .streamStart
  else if code = tcpMsgTypeVideoData then some .videoData
  else if code = tcpMsgTypeStreamStop then some .streamStop
  else if code = tcpMsgTypeHeartbeat then some .heartbeat
  else none

@[simp] theorem ofCode_code (type : MessageType) : MessageType.ofCode type.code = some type := by
  cases type <;> rfl

theorem code_known (type : MessageType) :
    tcpMsgTypeVideoData ≤ type.code ∧ type.code ≤ tcpMsgTypeStreamStop := by
  cases type <;> decide

/-- What the header has to say for the server to go on with the packet. -/
structure Acceptable (header : PacketHeader) : Prop where
  least : tcpHeaderSize ≤ header.length.toNat
  most : header.length.toNat ≤ tcpMaxPacketSize
  known : tcpMsgTypeVideoData ≤ header.type ∧ header.type ≤ tcpMsgTypeStreamStop
  named : header.streamId ≠ 0
  stream : header.streamId.toNat ≤ maxStreamsLimit

theorem protocolParseHeader_iff (buf : Bytes) (header : PacketHeader) :
    protocolParseHeader buf = some header ↔
      PacketHeader.read buf = header ∧ Acceptable header := by
  constructor
  · intro parsed
    simp only [protocolParseHeader] at parsed
    split at parsed
    · cases parsed
    · split at parsed
      · cases parsed
      · split at parsed
        · cases parsed
        · rename_i length known stream
          obtain rfl := Option.some.inj parsed
          simp only [gt_iff_lt, Bool.or_eq_true, decide_eq_true_eq, not_or, not_lt,
            UInt8.not_lt] at length known stream
          exact ⟨rfl, length.1, length.2, known, stream.1, stream.2⟩
  · rintro ⟨rfl, least, most, known, named, stream⟩
    simp only [protocolParseHeader]
    rw [if_neg, if_neg, if_neg]
    · simp [named, stream]
    · simp [known]
    · simp [least, most]

end StreamRelay.Server
