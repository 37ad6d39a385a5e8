import StreamRelay.Sender.TcpSender
import StreamRelay.Wire

/-! The frames of a sender on the line, and the sentences they make: STREAM_START, then video
and heartbeats, and STREAM_STOP last. -/
namespace StreamRelay.Sender

structure Frame where
  type : UInt8
  streamId : UInt16
  payload : Bytes
  deriving DecidableEq, Repr

def Frame.bytes (frame : Frame) : Bytes :=
  headerBytes (tcpHeaderSize + frame.payload.length) frame.type frame.streamId ++ frame.payload

theorem Frame.bytes_length (frame : Frame) :
    frame.bytes.length = tcpHeaderSize + frame.payload.length := by
  simp [Frame.bytes]

theorem Frame.bytes_ne_nil (frame : Frame) : frame.bytes ≠ [] := by
  intro empty
  have length := frame.bytes_length
  rw [empty, List.length_nil, tcpHeaderSize] at length
  omega

def Frame.Inner (frame : Frame) : Prop :=
  frame.type = tcpMsgTypeVideoData ∨ frame.type = tcpMsgTypeHeartbeat

/-- The words of the grammar, the empty one for a line on which nothing was begun. -/
inductive Sentence : List Frame → Prop
  | empty : Sentence []
  | started {start : Frame} {inner : List Frame} (opens : start.type = tcpMsgTypeStreamStart)
      (all : ∀ frame ∈ inner, frame.Inner) : Sentence (start :: inner)
  | stopped {start stop : Frame} {inner : List Frame} (opens : start.type = tcpMsgTypeStreamStart)
      (all : ∀ frame ∈ inner, frame.Inner) (closes : stop.type = tcpMsgTypeStreamStop) :
      Sentence (start :: inner ++ [stop])

/-- A beginning of a sentence in whole frames. -/
def Grammatical (written : Bytes) : Prop :=
  ∃ frames, Sentence frames ∧ written <+: frames.flatMap Frame.bytes

/-- The frame that may be begun after the last one on the line. -/
def Follows : Option (Frame × Nat) → Frame → Prop
  | none, frame => frame.type = tcpMsgTypeStreamStart
  | some u, frame => Wire.Whole Frame.bytes u ∧ u.1.type ≠ tcpMsgTypeStreamStop ∧
      (frame.Inner ∨ frame.type = tcpMsgTypeStreamStop)

abbrev Orderly : Wire.Line Frame → Prop := Wire.Orderly Frame.bytes Follows

theorem Sentence.snoc {frames : List Frame} {last frame : Frame}
    (sentence : Sentence (frames ++ [last])) (open_ : last.type ≠ tcpMsgTypeStreamStop)
    (next : frame.Inner ∨ frame.type = tcpMsgTypeStreamStop) :
    Sentence (frames ++ [last] ++ [frame]) := by
  generalize whole : frames ++ [last] = all at sentence ⊢
  cases sentence with
  | empty => simp at whole
  | started opens inner =>
    rename_i start middle
    rcases next with next | next
    · refine .started opens ?_
      intro f member
      rcases List.mem_append.mp member with member | member
      · exact inner f member
      · obtain rfl := List.mem_singleton.mp member
        exact next
    · exact .stopped opens inner next
  | stopped opens inner closes =>
    obtain ⟨-, same⟩ := List.append_inj' whole rfl
    obtain rfl := (List.cons.inj same).1
    exact absurd closes open_

/-- What an orderly line carries: only its last frame may be cut. -/
theorem orderly_sentence {line : Wire.Line Frame} (orderly : Orderly line) :
    Sentence line.frames ∧ Wire.bytes Frame.bytes line <+: line.frames.flatMap Frame.bytes ∧
      ∀ u ∈ line.getLast?, Wire.Whole Frame.bytes u →
        Wire.bytes Frame.bytes line = line.frames.flatMap Frame.bytes := by
  induction orderly with
  | nil => exact ⟨.empty, List.nil_prefix, by simp⟩
  | @snoc line frame sent before may within ih =>
    obtain ⟨sentence, -, whole⟩ := ih
    have earlier : Wire.bytes Frame.bytes line = line.frames.flatMap Frame.bytes := by
      rcases List.eq_nil_or_concat' line with rfl | ⟨past, last, rfl⟩
      · rfl
      · rw [List.getLast?_concat] at may
        exact whole last (by simp) may.1
    refine ⟨?_, ?_, ?_⟩
    · rcases List.eq_nil_or_concat' line with rfl | ⟨past, last, rfl⟩
      · exact .started may (by simp)
      · rw [List.getLast?_concat] at may
        rw [Wire.frames_snoc] at sentence
        rw [Wire.frames_snoc, Wire.frames_snoc]
        exact sentence.snoc may.2.1 may.2.2
    · rw [Wire.bytes_snoc, Wire.frames_snoc, List.flatMap_append, earlier]
      exact (List.prefix_append_right_inj _).mpr (by simpa using List.take_prefix sent frame.bytes)
    · intro u last complete
      obtain rfl : (frame, sent) = u := by simpa using last
      rw [Wire.bytes_snoc, Wire.frames_snoc, List.flatMap_append, earlier]
      have all : frame.bytes.take sent = frame.bytes := List.take_of_length_le complete.ge
      simp [all]

theorem orderly_grammatical {line : Wire.Line Frame} (orderly : Orderly line) :
    Grammatical (Wire.bytes Frame.bytes line) :=
  ⟨line.frames, (orderly_sentence orderly).1, (orderly_sentence orderly).2.1⟩

end StreamRelay.Sender
