import StreamRelay.Agent.TlvProtocol
import StreamRelay.Sender.Grammar
import StreamRelay.Server.Header

/-! The frames that a sender writes, at the two receivers. The sender bounds the payload, the
receivers the whole packet, and each of the three bounds the stream in its own way. -/
namespace StreamRelay.Sender

/-- Both receivers take the bytes for a packet with this header. -/
def Agreed (bytes : Bytes) (header : PacketHeader) : Prop :=
  Server.protocolParseHeader bytes = some header ∧ Agent.tlvParseHeader bytes = some header

def Frame.header (frame : Frame) : PacketHeader :=
  ⟨UInt32.ofNat (tcpHeaderSize + frame.payload.length), frame.type, frame.streamId⟩

/-- What the sender lets through. -/
structure Sendable (frame : Frame) : Prop where
  known : tcpMsgTypeVideoData ≤ frame.type ∧ frame.type ≤ tcpMsgTypeStreamStop
  named : frame.streamId ≠ 0
  bounded : frame.payload.length ≤ tcpMaxPacketSize

theorem frame_read (frame : Frame) : PacketHeader.read frame.bytes = frame.header :=
  read_headerBytes _ frame.type frame.streamId frame.payload

theorem frame_length {frame : Frame} (bounded : frame.payload.length ≤ tcpMaxPacketSize) :
    frame.header.length.toNat = tcpHeaderSize + frame.payload.length := by
  apply UInt32.toNat_ofNat_of_lt'
  simp only [tcpMaxPacketSize] at bounded
  simp only [tcpHeaderSize, UInt32.size]
  omega

theorem agreed_iff {frame : Frame} (sendable : Sendable frame) :
    Agreed frame.bytes frame.header ↔
      tcpHeaderSize + frame.payload.length ≤ tcpMaxPacketSize ∧
        frame.streamId.toNat ≤ Agent.maxStreams := by
  obtain ⟨known, named, bounded⟩ := sendable
  have length := frame_length bounded
  simp only [Agreed, Server.protocolParseHeader_iff, Agent.tlvParseHeader_iff, frame_read, length,
    true_and]
  constructor
  · rintro ⟨-, -, most, -, stream⟩
    exact ⟨most, stream⟩
  · rintro ⟨most, stream⟩
    have positive : 1 ≤ frame.streamId := by
      rw [UInt16.le_iff_toNat_le]
      exact Nat.pos_of_ne_zero fun zero => named (UInt16.toNat_inj.mp zero)
    refine ⟨⟨?_, ?_, known, named, ?_⟩, Nat.le_add_right _ _, most, positive, stream⟩
    · rw [length]
      exact Nat.le_add_right _ _
    · rw [length]
      exact most
    · exact stream.trans (by decide)

/-- The frame that a call of one of the send functions is about. -/
def Call.frame (config : TcpSenderConfig) : Call → Option Frame
  | .sendVideo data _ => some ⟨tcpMsgTypeVideoData, config.streamId, data⟩
  | .sendHeartbeat _ _ => some ⟨tcpMsgTypeHeartbeat, config.streamId, []⟩
  | .sendStreamStart _ =>
    some ⟨tcpMsgTypeStreamStart, config.streamId, System.streamInfoBytes config.info⟩
  | .sendStreamStop _ => some ⟨tcpMsgTypeStreamStop, config.streamId, []⟩
  | _ => none

/-- The frame went out whole on the sender's connection, and is one the sender may send. -/
structure Written (s t : System) (frame : Frame) : Prop where
  bounded : frame.payload.length ≤ tcpMaxPacketSize
  bytes : ∃ fd, s.sender.sockFd = some fd ∧
    (t.links fd).written = (s.links fd).written ++ frame.bytes

/-- All of a frame is written if the send says so. -/
theorem sendAll_written {s r : System} (same : Same s r) (frame : Frame) (sends : List SendAnswer)
    (ok : (r.sendAll frame.bytes sends).2 = true) :
    ∃ fd, s.sender.sockFd = some fd ∧
      ((r.sendAll frame.bytes sends).1.links fd).written = (s.links fd).written ++ frame.bytes := by
  cases sock : r.sender.sockFd with
  | none => simp [System.sendAll, sock] at ok
  | some fd =>
    obtain ⟨part, -, whole, sent⟩ := sendAll_spec sock frame sends
    refine ⟨fd, same.sockFd.symm.trans sock, ?_⟩
    have link := congrFun (congrArg System.links sent) fd
    rw [link, ← same.links]
    dsimp only
    rw [Function.update_self, whole.mp ok]
    rfl

theorem sendVideo_written {s : System} {data : Bytes} {answers : WriteAnswers}
    (success : (s.sendVideo data answers).2 = true) :
    Written s (s.sendVideo data answers).1 ⟨tcpMsgTypeVideoData, s.sender.config.streamId, data⟩ := by
  simp only [System.sendVideo] at success ⊢
  split at success
  · cases success
  · rename_i nonempty
    split at success
    · cases success
    · rename_i connected
      split at success
      · cases success
      · rename_i bounded
        split at success
        · cases success
        · rename_i room
          split at success
          · cases success
          · rename_i ok
            rw [if_neg nonempty, if_neg connected, if_neg bounded, if_neg room, if_neg ok]
            exact ⟨Nat.not_lt.mp bounded,
              sendAll_written (ensureBufferSize_same s _ answers.realloc) ⟨_, _, data⟩ answers.sends
                (of_not_not ok)⟩

theorem sendHeartbeat_written {s : System} {now : UInt64} {sends : List SendAnswer}
    (success : (s.sendHeartbeat now sends).2 = true) :
    Written s (s.sendHeartbeat now sends).1 ⟨tcpMsgTypeHeartbeat, s.sender.config.streamId, []⟩ := by
  simp only [System.sendHeartbeat, frame_empty] at success ⊢
  split at success
  · cases success
  · rename_i connected
    split at success
    · cases success
    · rename_i ok
      rw [if_neg connected, if_neg ok]
      exact ⟨Nat.zero_le _, sendAll_written (Same.refl s) _ sends (of_not_not ok)⟩

theorem sendStreamStart_written {s : System} {answers : WriteAnswers}
    (success : (s.sendStreamStart answers).2 = true) :
    Written s (s.sendStreamStart answers).1 ⟨tcpMsgTypeStreamStart, s.sender.config.streamId,
      System.streamInfoBytes s.sender.config.info⟩ := by
  simp only [System.sendStreamStart] at success ⊢
  split at success
  · cases success
  · rename_i connected
    split at success
    · cases success
    · rename_i room
      split at success
      · cases success
      · rename_i ok
        rw [if_neg connected, if_neg room, if_neg ok]
        refine ⟨?_, sendAll_written (ensureBufferSize_same s _ answers.realloc)
          ⟨_, _, System.streamInfoBytes s.sender.config.info⟩ answers.sends (of_not_not ok)⟩
        exact (by decide : System.streamInfoSize ≤ tcpMaxPacketSize)

theorem sendStreamStop_written {s : System} {sends : List SendAnswer}
    (success : (s.sendStreamStop sends).2 = true) :
    Written s (s.sendStreamStop sends).1
      ⟨tcpMsgTypeStreamStop, s.sender.config.streamId, []⟩ := by
  simp only [System.sendStreamStop, frame_empty] at success ⊢
  split at success
  · cases success
  · rename_i connected
    rw [if_neg connected]
    exact ⟨Nat.zero_le _, sendAll_written (Same.refl s) _ sends success⟩

theorem call_written {s : System} {call : Call} {frame : Frame}
    (about : call.frame s.sender.config = some frame) (success : (s.call call).2 = true) :
    Written s (s.call call).1 frame := by
  cases call with
  | sendVideo data answers =>
    obtain rfl := Option.some.inj about
    exact sendVideo_written success
  | sendHeartbeat now sends =>
    obtain rfl := Option.some.inj about
    exact sendHeartbeat_written success
  | sendStreamStart answers =>
    obtain rfl := Option.some.inj about
    exact sendStreamStart_written success
  | sendStreamStop sends =>
    obtain rfl := Option.some.inj about
    exact sendStreamStop_written success
  | init | connect | disconnect | checkHeartbeat | destroy => cases about

/-- The calls between the init and the destroy of a sender. -/
def Call.Between : Call → Prop
  | .init _ _ | .destroy _ => False
  | _ => True

theorem sendFailed_config (s : System) : s.sendFailed.sender.config = s.sender.config := rfl

theorem sendStreamStart_config (s : System) (answers : WriteAnswers) :
    (s.sendStreamStart answers).1.sender.config = s.sender.config := by
  have same := ensureBufferSize_same s (tcpHeaderSize + System.streamInfoSize) answers.realloc
  simp only [System.sendStreamStart]
  split
  · rfl
  · split
    · exact same.config
    · split
      · rw [sendFailed_config, sendAll_sender, same.config]
      · rw [sendAll_sender, same.config]

theorem connected_config (s : System) (now : UInt64) (start : WriteAnswers) :
    (s.connected now start).1.sender.config = s.sender.config :=
  sendStreamStart_config _ start

theorem sendVideo_config (s : System) (data : Bytes) (answers : WriteAnswers) :
    (s.sendVideo data answers).1.sender.config = s.sender.config := by
  have same := ensureBufferSize_same s (tcpHeaderSize + data.length) answers.realloc
  simp only [System.sendVideo]
  split
  · rfl
  · split
    · rfl
    · split
      · rfl
      · split
        · exact same.config
        · split
          · rw [sendFailed_config, sendAll_sender, same.config]
          · simp only [System.onSender, sendAll_sender, same.config]

theorem sendHeartbeat_config (s : System) (now : UInt64) (sends : List SendAnswer) :
    (s.sendHeartbeat now sends).1.sender.config = s.sender.config := by
  simp only [System.sendHeartbeat]
  split
  · rfl
  · split
    · rw [sendFailed_config, sendAll_sender]
    · simp only [System.onSender, sendAll_sender]

theorem sendStreamStop_config (s : System) (sends : List SendAnswer) :
    (s.sendStreamStop sends).1.sender.config = s.sender.config := by
  simp only [System.sendStreamStop]
  split
  · rfl
  · rw [sendAll_sender]

theorem call_config (s : System) {call : Call} (between : call.Between) :
    (step s call).sender.config = s.sender.config := by
  cases call with
  | init | destroy => exact between.elim
  | connect answers =>
    simp only [step, System.call, System.connect]
    split
    · rfl
    · split
      · rfl
      · split
        · rfl
        · split
          · rfl
          · rfl
          · rfl
          · exact connected_config _ answers.now answers.start
          · exact connected_config _ answers.now answers.start
  | disconnect sends =>
    simp only [step, System.call, System.disconnect]
    split
    · exact sendStreamStop_config s sends
    · rfl
  | sendVideo data answers => exact sendVideo_config s data answers
  | sendHeartbeat now sends => exact sendHeartbeat_config s now sends
  | sendStreamStart answers => exact sendStreamStart_config s answers
  | sendStreamStop sends => exact sendStreamStop_config s sends
  | checkHeartbeat interval now sentAt sends =>
    simp only [step, System.call, System.checkHeartbeat]
    split
    · rfl
    · split
      · exact sendHeartbeat_config s sentAt sends
      · rfl

theorem init_config {s : System} {config : TcpSenderConfig} {malloc : Bool}
    (accepted : (s.init config malloc).2 = true) :
    (s.init config malloc).1.sender.config = config ∧ config.streamId ≠ 0 := by
  simp only [System.init] at accepted ⊢
  split at accepted
  · cases accepted
  · rename_i addressed
    split at accepted
    · cases accepted
    · rename_i named
      split at accepted
      · rename_i room
        rw [if_neg addressed, if_neg named, if_pos room]
        exact ⟨rfl, named⟩
      · cases accepted

theorem run_config {before : System} {config : TcpSenderConfig} {malloc : Bool}
    (accepted : (before.init config malloc).2 = true) {calls : List Call}
    (between : ∀ call ∈ calls, call.Between) :
    (Run.run step (before.init config malloc).1 calls).sender.config = config := by
  induction calls using List.reverseRecOn with
  | nil => exact (init_config accepted).1
  | append_singleton past call ih =>
    rw [Run.run_snoc, call_config _ (between call (by simp))]
    apply ih
    intro earlier member
    exact between earlier (List.mem_append_left [call] member)

theorem call_sendable {config : TcpSenderConfig} {call : Call} {frame : Frame}
    (about : call.frame config = some frame) (named : config.streamId ≠ 0)
    (bounded : frame.payload.length ≤ tcpMaxPacketSize) : Sendable frame := by
  cases call with
  | sendVideo | sendHeartbeat | sendStreamStart | sendStreamStop =>
    obtain rfl := Option.some.inj about
    refine ⟨?_, named, bounded⟩
    dsimp only
    decide
  | init | connect | disconnect | checkHeartbeat | destroy => cases about

/-- A sender that was set up writes the whole frame of each send that succeeds, and the two
receivers take it just if the packet with its header is within the limit and the agent has room
for the stream. -/
theorem accepted_iff (before : System) (config : TcpSenderConfig) (malloc : Bool)
    (accepted : (before.init config malloc).2 = true) (calls : List Call)
    (between : ∀ call ∈ calls, call.Between) (call : Call) {frame : Frame}
    (about : call.frame config = some frame)
    (success : ((Run.run step (before.init config malloc).1 calls).call call).2 = true) :
    (∃ fd, (Run.run step (before.init config malloc).1 calls).sender.sockFd = some fd ∧
      ((Run.run step (before.init config malloc).1 (calls ++ [call])).links fd).written =
        ((Run.run step (before.init config malloc).1 calls).links fd).written ++ frame.bytes) ∧
    (Agreed frame.bytes frame.header ↔
      tcpHeaderSize + frame.payload.length ≤ tcpMaxPacketSize ∧
        frame.streamId.toNat ≤ Agent.maxStreams) := by
  have same := run_config accepted between
  have written : Written _ _ frame := call_written (by rw [same]; exact about) success
  rw [Run.run_snoc]
  exact ⟨written.bytes,
    agreed_iff (call_sendable about (init_config accepted).2 written.bounded)⟩

def cameraConfig : TcpSenderConfig := ⟨[49], 5000, 1, .zero⟩

def cameraConnect : Call := .connect ⟨true, true, .done, 0, ⟨true, [.sent 47]⟩⟩

theorem accepted_iff_video :
    Agreed (Frame.bytes ⟨tcpMsgTypeVideoData, 1, [0, 0, 0, 1, 101]⟩)
      (Frame.header ⟨tcpMsgTypeVideoData, 1, [0, 0, 0, 1, 101]⟩) :=
  ((accepted_iff .zero cameraConfig true (by decide) [cameraConnect]
    (by simp [cameraConnect, Call.Between])
    (.sendVideo [0, 0, 0, 1, 101] ⟨true, [.sent 5, .again, .sent 7]⟩) rfl (by decide)).2).mpr
    (by decide)

theorem sendLoop_once {data : Bytes} (nonempty : data ≠ []) (retries : Nat)
    (patient : retries < maxRetries) : sendLoop data retries [.sent data.length] = (data, true) := by
  have present : data.length ≠ 0 := fun zero => nonempty (List.eq_nil_of_length_eq_zero zero)
  simp [sendLoop, nonempty, present, Nat.not_le.mpr patient]

/-- The sender once it is connected. -/
def cameraSystem : System := Run.run step (System.zero.init cameraConfig true).1 [cameraConnect]

theorem cameraSystem_ready :
    cameraSystem.sender.state = .connected ∧ cameraSystem.sender.sockFd = some 0 := by decide

theorem sendVideo_once {s : System} (connected : s.sender.state = .connected) {fd : Nat}
    (sock : s.sender.sockFd = some fd) {data : Bytes} (nonempty : data ≠ [])
    (bounded : data.length ≤ tcpMaxPacketSize) :
    (s.sendVideo data ⟨true, [.sent (tcpHeaderSize + data.length)]⟩).2 = true := by
  have same := ensureBufferSize_same s (tcpHeaderSize + data.length) true
  have room : (s.ensureBufferSize (tcpHeaderSize + data.length) true).2 = true :=
    ensureBufferSize_room (Or.inr rfl)
  have frame_nonempty := Frame.bytes_ne_nil ⟨tcpMsgTypeVideoData, s.sender.config.streamId, data⟩
  have sent := sendLoop_once frame_nonempty 0 (by decide)
  rw [Frame.bytes_length] at sent
  have all : ((s.ensureBufferSize (tcpHeaderSize + data.length) true).1.sendAll
      (Frame.bytes ⟨tcpMsgTypeVideoData, s.sender.config.streamId, data⟩)
      [.sent (tcpHeaderSize + data.length)]).2 = true := by
    simp only [System.sendAll, same.sockFd, sock, sent]
  simp only [System.sendVideo]
  rw [if_neg nonempty, if_neg (not_not.mpr connected), if_neg (Nat.not_lt.mpr bounded), if_neg,
    if_neg]
  · intro failed
    rw [Bool.not_eq_true'] at failed
    exact Bool.noConfusion (all.symm.trans failed)
  · rw [room]
    decide

/-- Neither receiver takes a frame that is beyond the limit with its header. -/
theorem parse_oversized {frame : Frame} (small : frame.payload.length ≤ tcpMaxPacketSize)
    (oversized : tcpMaxPacketSize < tcpHeaderSize + frame.payload.length) :
    Server.protocolParseHeader frame.bytes = none ∧ Agent.tlvParseHeader frame.bytes = none := by
  have read : PacketHeader.read frame.bytes = frame.header := frame_read frame
  have length := frame_length small
  constructor
  · apply Option.eq_none_iff_forall_ne_some.mpr
    intro header parsed
    obtain ⟨rfl, acceptable⟩ := (Server.protocolParseHeader_iff _ header).mp parsed
    have most := acceptable.most
    rw [read, length] at most
    exact absurd most (Nat.not_le.mpr oversized)
  · apply Option.eq_none_iff_forall_ne_some.mpr
    intro header parsed
    obtain ⟨rfl, -, most, -⟩ := (Agent.tlvParseHeader_iff _ header).mp parsed
    rw [read, length] at most
    exact absurd most (Nat.not_le.mpr oversized)

theorem largest_refused {data : Bytes} (largest : data.length = tcpMaxPacketSize) :
    (cameraSystem.sendVideo data ⟨true, [.sent (tcpHeaderSize + data.length)]⟩).2 = true ∧
      Server.protocolParseHeader (Frame.bytes ⟨tcpMsgTypeVideoData, 1, data⟩) = none ∧
      Agent.tlvParseHeader (Frame.bytes ⟨tcpMsgTypeVideoData, 1, data⟩) = none := by
  have nonempty : data ≠ [] := by
    rintro rfl
    cases largest
  refine ⟨sendVideo_once cameraSystem_ready.1 cameraSystem_ready.2 nonempty largest.le, ?_⟩
  apply parse_oversized
  · exact largest.le
  · dsimp only
    rw [largest]
    decide

/-- The sender takes a payload of the limit itself, and its frame is beyond it. -/
theorem not_accepted_largest :
    (System.zero.init cameraConfig true).2 = true ∧
    (cameraSystem.sendVideo (List.replicate tcpMaxPacketSize 0)
      ⟨true, [.sent (tcpHeaderSize + (List.replicate tcpMaxPacketSize (0 : UInt8)).length)]⟩).2 =
        true ∧
    Server.protocolParseHeader
      (Frame.bytes ⟨tcpMsgTypeVideoData, 1, List.replicate tcpMaxPacketSize 0⟩) = none ∧
    Agent.tlvParseHeader
      (Frame.bytes ⟨tcpMsgTypeVideoData, 1, List.replicate tcpMaxPacketSize 0⟩) = none :=
  ⟨by decide, largest_refused List.length_replicate⟩

end StreamRelay.Sender
