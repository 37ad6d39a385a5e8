import StreamRelay.Tlv

/-! The header as strem_agent_server takes it. -/
namespace StreamRelay.Agent

/-- MAX_STREAMS of the agent. -/
def maxStreams : Nat := 20

def tlvParseHeader (buf : Bytes) : Option PacketHeader :=
  let header := PacketHeader.read buf
  if header.length.toNat < tcpHeaderSize then none
  else if header.length.toNat > tcpMaxPacketSize then none
  else if header.streamId < 1 || header.streamId.toNat > maxStreams then none
  else some header

theorem tlvParseHeader_iff (buf : Bytes) (header : PacketHeader) :
    tlvParseHeader buf = some header ↔
      PacketHeader.read buf = header ∧ tcpHeaderSize ≤ header.length.toNat ∧
        header.length.toNat ≤ tcpMaxPacketSize ∧ 1 ≤ header.streamId ∧
        header.streamId.toNat ≤ maxStreams := by
  constructor
  · intro parsed
    simp only [tlvParseHeader] at parsed
    split at parsed
    · cases parsed
    · split at parsed
      · cases parsed
      · split at parsed
        · cases parsed
        · rename_i least most stream
          obtain rfl := Option.some.inj parsed
          simp only [gt_iff_lt, Bool.or_eq_true, decide_eq_true_eq, not_or, not_lt,
            UInt16.not_lt] at stream
          exact ⟨rfl, Nat.not_lt.mp least, Nat.not_lt.mp most, stream.1, stream.2⟩
  · rintro ⟨rfl, least, most, named, stream⟩
    simp only [tlvParseHeader]
    rw [if_neg (Nat.not_lt.mpr least), if_neg (Nat.not_lt.mpr most), if_neg]
    simp only [gt_iff_lt, Bool.or_eq_true, decide_eq_true_eq, not_or, not_lt, UInt16.not_lt]
    exact ⟨named, stream⟩

end StreamRelay.Agent
