import StreamRelay.Sender.TcpSender
import StreamRelay.Server.Packet

/-! The metadata of a stream from the sender to the server, in each of the three lengths that
the server knows. -/
namespace StreamRelay.Sender

open BigEndian

def infoWords (info : StreamInfo) : List UInt32 :=
  [info.width, info.height, info.fps, info.bitrate, info.codec, info.chroma, info.bitdepth,
    info.videoFormat, info.colorSpace, info.colorRange]

theorem streamInfoBytes_words (info : StreamInfo) :
    System.streamInfoBytes info = words (infoWords info) := by
  simp [System.streamInfoBytes, words, infoWords]

@[simp] theorem streamInfoBytes_length (info : StreamInfo) :
    (System.streamInfoBytes info).length = System.streamInfoSize := rfl

/-- A word of a payload that may have been cut behind it. -/
theorem payload_word {info : StreamInfo} {extra payload : Bytes}
    (cut : payload <+: System.streamInfoBytes info ++ extra) (i : Fin 10)
    (inside : 4 * i.val + 4 ≤ payload.length) :
    StreamRelay.word32 payload (4 * i.val) = (infoWords info).get i := by
  rw [List.prefix_iff_eq_take] at cut
  rw [cut]
  refine (wordAt_take _ inside).trans ?_
  rw [streamInfoBytes_words]
  exact wordAt_words (infoWords info) extra i.val i.isLt

/-- What the server makes of a payload of the given length that begins as the sender's does. -/
def received (info : StreamInfo) (length : Nat) : Option StreamInfo :=
  if length < 16 then none
  else if length < 32 then
    some {StreamInfo.zero with
      width := info.width, height := info.height, fps := info.fps, bitrate := info.bitrate
      bitdepth := 8}
  else if length < 40 then some {info with colorSpace := 0, colorRange := 0}
  else some info

/-- The words of the oldest senders, of those with a codec, and of all. -/
theorem payload_words {info : StreamInfo} {extra payload : Bytes}
    (cut : payload <+: System.streamInfoBytes info ++ extra) :
    (16 ≤ payload.length → StreamRelay.word32 payload 0 = info.width ∧
      StreamRelay.word32 payload 4 = info.height ∧ StreamRelay.word32 payload 8 = info.fps ∧
      StreamRelay.word32 payload 12 = info.bitrate) ∧
    (32 ≤ payload.length → StreamRelay.word32 payload 16 = info.codec ∧
      StreamRelay.word32 payload 20 = info.chroma ∧ StreamRelay.word32 payload 24 = info.bitdepth ∧
      StreamRelay.word32 payload 28 = info.videoFormat) ∧
    (40 ≤ payload.length → StreamRelay.word32 payload 32 = info.colorSpace ∧
      StreamRelay.word32 payload 36 = info.colorRange) := by
  refine ⟨fun long => ⟨?_, ?_, ?_, ?_⟩, fun long => ⟨?_, ?_, ?_, ?_⟩, fun long => ⟨?_, ?_⟩⟩
  · exact payload_word cut 0 (Nat.le_trans (by decide) long)
  · exact payload_word cut 1 (Nat.le_trans (by decide) long)
  · exact payload_word cut 2 (Nat.le_trans (by decide) long)
  · exact payload_word cut 3 (Nat.le_trans (by decide) long)
  · exact payload_word cut 4 (Nat.le_trans (by decide) long)
  · exact payload_word cut 5 (Nat.le_trans (by decide) long)
  · exact payload_word cut 6 (Nat.le_trans (by decide) long)
  · exact payload_word cut 7 (Nat.le_trans (by decide) long)
  · exact payload_word cut 8 (Nat.le_trans (by decide) long)
  · exact payload_word cut 9 (Nat.le_trans (by decide) long)

theorem parse_received {info : StreamInfo} {extra payload : Bytes}
    (cut : payload <+: System.streamInfoBytes info ++ extra) :
    protocolParseStreamInfo payload = received info payload.length := by
  obtain ⟨oldest, older, all⟩ := payload_words cut
  simp only [protocolParseStreamInfo, received]
  by_cases short : payload.length < 16
  · rw [if_pos short, if_pos short]
  · obtain ⟨width, height, fps, bitrate⟩ := oldest (Nat.not_lt.mp short)
    rw [if_neg short, if_neg short, width, height, fps, bitrate]
    by_cases old : payload.length < 32
    · rw [if_pos old, if_neg (Nat.not_le.mpr old)]
    · obtain ⟨codec, chroma, bitdepth, videoFormat⟩ := older (Nat.not_lt.mp old)
      rw [if_neg old, if_pos (Nat.not_lt.mp old), codec, chroma, bitdepth, videoFormat]
      by_cases plain : payload.length < 40
      · rw [if_pos plain, if_neg (Nat.not_le.mpr plain)]
        rfl
      · obtain ⟨colorSpace, colorRange⟩ := all (Nat.not_lt.mp plain)
        rw [if_neg plain, if_pos (Nat.not_lt.mp plain), colorSpace, colorRange]

/-- The metadata come through as far as the payload goes, and too short a payload is not
applied to a stream. -/
theorem metadata_received (info : StreamInfo) :
    protocolParseStreamInfo (System.streamInfoBytes info) = some info ∧
      ∀ extra payload : Bytes, payload <+: System.streamInfoBytes info ++ extra →
        protocolParseStreamInfo payload = received info payload.length ∧
        (payload.length < 16 → ∀ (Picture : Type) (cfg : Server.ServerConfig)
          (codec : Server.Codec Picture) (s : Server.State Picture) (streamId : Nat)
          (answers : Server.PacketAnswers),
          (s.handlePacket cfg codec ⟨.streamStart, streamId, payload⟩ answers).streams =
            s.streams) := by
  refine ⟨?_, fun extra payload cut => ⟨parse_received cut, ?_⟩⟩
  · have whole : System.streamInfoBytes info <+: System.streamInfoBytes info ++ [] := by simp
    rw [parse_received whole]
    rfl
  · intro short Picture cfg codec s streamId answers
    have rejected : protocolParseStreamInfo payload = none := by
      simp only [protocolParseStreamInfo, if_pos short]
    simp only [Server.State.handlePacket, rejected]
    split <;> rfl

def sampleInfo : StreamInfo := ⟨1920, 1080, 60, 20000, 1, 1, 10, 512, 2, 1⟩

/-- A payload without the colours. -/
theorem metadata_received_plain :
    protocolParseStreamInfo ((System.streamInfoBytes sampleInfo).take 32) =
      some ⟨1920, 1080, 60, 20000, 1, 1, 10, 512, 0, 0⟩ :=
  ((metadata_received sampleInfo).2 [] _
    ((List.take_prefix 32 _).trans (List.prefix_append _ []))).1

end StreamRelay.Sender
