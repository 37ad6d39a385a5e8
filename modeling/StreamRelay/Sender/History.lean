import StreamRelay.Sender.Acceptance

/-! The frames that a sender has begun, oldest first, over all its connections: each of them is
one that a call was about, and no two of them have changed places. -/
namespace StreamRelay.Sender

/-- The frame that connect opens a connection with. -/
def startFrame (config : TcpSenderConfig) : Frame :=
  ⟨tcpMsgTypeStreamStart, config.streamId, System.streamInfoBytes config.info⟩

def videoFrame (config : TcpSenderConfig) (data : Bytes) : Frame :=
  ⟨tcpMsgTypeVideoData, config.streamId, data⟩

/-- The frame that a disciplined call begins if it begins one. -/
def Call.about (config : TcpSenderConfig) : Call → Option Frame
  | .connect _ => some (startFrame config)
  | .sendVideo data _ => some (videoFrame config data)
  | .sendHeartbeat _ _ | .checkHeartbeat _ _ _ _ =>
    some ⟨tcpMsgTypeHeartbeat, config.streamId, []⟩
  | .disconnect _ | .destroy _ => some ⟨tcpMsgTypeStreamStop, config.streamId, []⟩
  | .init _ _ | .sendStreamStart _ | .sendStreamStop _ => none

/-- A frame that was begun: on which connection, and how many of its bytes were sent. -/
structure Sent where
  fd : Nat
  frame : Frame
  count : Nat

abbrev Log := List Sent

def Sent.Whole (sent : Sent) : Prop := sent.count = sent.frame.bytes.length

instance (sent : Sent) : Decidable sent.Whole :=
  inferInstanceAs (Decidable (sent.count = sent.frame.bytes.length))

namespace Log

/-- What went out on one connection. -/
def line (log : Log) (fd : Nat) : Wire.Line Frame :=
  (log.filter fun sent => sent.fd = fd).map fun sent => (sent.frame, sent.count)

def frames (log : Log) : List Frame := log.map Sent.frame

@[simp] theorem frames_append (log more : Log) : frames (log ++ more) = frames log ++ frames more :=
  List.map_append

@[simp] theorem line_snoc_self (log : Log) (fd : Nat) (frame : Frame) (count : Nat) :
    line (log ++ [⟨fd, frame, count⟩]) fd = line log fd ++ [(frame, count)] := by
  simp [line]

theorem line_snoc_other (log : Log) {fd other : Nat} (apart : other ≠ fd) (frame : Frame)
    (count : Nat) : line (log ++ [⟨fd, frame, count⟩]) other = line log other := by
  simp [line, apart.symm]

theorem line_eq_nil {log : Log} {fd : Nat} (known : ∀ sent ∈ log, sent.fd < fd) :
    line log fd = [] := by
  have none_there : log.filter (fun sent => sent.fd = fd) = [] := by
    apply List.filter_eq_nil_iff.mpr
    intro sent member
    simpa using (known sent member).ne
  rw [line, none_there, List.map_nil]

end Log

/-- What a call about a frame can do to the connections: begin this one, on the connection that
is open or on a new one, or write nothing. -/
inductive Begins (s t : System) (about : Option Frame) : Prop
  | quiet (links : t.links = s.links) (sockets : s.sockets ≤ t.sockets)
      (ready : t.sender.state = .connected →
        s.sender.state = .connected ∧ t.sender.sockFd = s.sender.sockFd ∧ t.sockets = s.sockets)
  | wrote (frame : Frame) (said : about = some frame)
      (later : frame.Inner ∨ frame.type = tcpMsgTypeStreamStop) (fd : Nat)
      (connected : s.sender.state = .connected) (sock : s.sender.sockFd = some fd) (part : Bytes)
      (within : part <+: frame.bytes)
      (links : ∃ ok, t.links = Function.update s.links fd ((s.links fd).send part ok))
      (sockets : t.sockets = s.sockets)
      (ready : t.sender.state = .connected →
        part = frame.bytes ∧ frame.Inner ∧ t.sender.sockFd = some fd)
  | opened (frame : Frame) (said : about = some frame) (first : frame.type = tcpMsgTypeStreamStart)
      (part : Bytes) (within : part <+: frame.bytes)
      (links : ∃ ok, t.links =
        Function.update s.links s.sockets ((s.links s.sockets).send part ok))
      (sockets : t.sockets = s.sockets + 1)
      (ready : t.sender.state = .connected →
        part = frame.bytes ∧ t.sender.sockFd = some s.sockets)

namespace Same

variable {s t u : System} {about : Option Frame}

theorem silent (same : Same s t) : Begins s t about :=
  .quiet same.links same.sockets.ge fun ready =>
    ⟨same.state.symm.trans ready, same.sockFd, same.sockets⟩

theorem begins (same : Same s t) (begun : Begins t u about) : Begins s u about := by
  cases begun with
  | quiet links sockets ready =>
    refine .quiet (links.trans same.links) (same.sockets.ge.trans sockets) fun open_ => ?_
    obtain ⟨connected, sock, count⟩ := ready open_
    exact ⟨same.state.symm.trans connected, sock.trans same.sockFd, count.trans same.sockets⟩
  | wrote frame said later fd connected sock part within links sockets ready =>
    rw [same.links] at links
    exact .wrote frame said later fd (same.state.symm.trans connected) (same.sockFd.symm.trans sock)
      part within links (sockets.trans same.sockets) ready
  | opened frame said first part within links sockets ready =>
    rw [same.links, same.sockets] at links
    rw [same.sockets] at sockets ready
    exact .opened frame said first part within links sockets ready

end Same

theorem send_begins {s t : System} (connected : s.sender.state = .connected) (frame : Frame)
    (sends : List SendAnswer) (later : frame.Inner ∨ frame.type = tcpMsgTypeStreamStop)
    (links : t.links = (s.sendAll frame.bytes sends).1.links)
    (sockets : t.sockets = (s.sendAll frame.bytes sends).1.sockets)
    (ready : t.sender.state = .connected →
      (s.sendAll frame.bytes sends).2 = true ∧ frame.Inner ∧
        t.sender.sockFd = s.sender.sockFd) : Begins s t (some frame) := by
  cases sock : s.sender.sockFd with
  | none =>
    have nothing : s.sendAll frame.bytes sends = (s, false) := by simp only [System.sendAll, sock]
    rw [nothing] at links sockets ready
    exact .quiet links sockets.ge fun open_ => by cases (ready open_).1
  | some fd =>
    obtain ⟨part, within, whole, sent⟩ := sendAll_spec sock frame sends
    rw [sent] at links sockets
    refine .wrote frame rfl later fd connected sock part within ⟨_, links⟩ sockets fun open_ => ?_
    obtain ⟨ok, inner, same⟩ := ready open_
    exact ⟨whole.mp ok, inner, same.trans sock⟩

theorem sendVideo_begins (s : System) (data : Bytes) (answers : WriteAnswers) :
    Begins s (s.sendVideo data answers).1 (some (videoFrame s.sender.config data)) := by
  simp only [System.sendVideo]
  split
  · exact (Same.refl s).silent
  · split
    · exact Same.silent ⟨rfl, rfl, rfl, rfl, rfl⟩
    · rename_i connected
      split
      · exact Same.silent ⟨rfl, rfl, rfl, rfl, rfl⟩
      · have same := ensureBufferSize_same s (tcpHeaderSize + data.length) answers.realloc
        split
        · exact same.silent
        · have open_ := same.state.trans (not_not.mp connected)
          have later : (videoFrame s.sender.config data).Inner := Or.inl rfl
          apply same.begins
          split
          · exact send_begins open_ (videoFrame s.sender.config data) answers.sends (Or.inl later)
              rfl rfl fun open_ => by cases open_
          · rename_i ok
            refine send_begins open_ (videoFrame s.sender.config data) answers.sends (Or.inl later)
              rfl rfl fun _ => ⟨of_not_not ok, later, ?_⟩
            exact sendAll_sockFd _ _ answers.sends

theorem sendHeartbeat_begins (s : System) (now : UInt64) (sends : List SendAnswer) :
    Begins s (s.sendHeartbeat now sends).1
      (some ⟨tcpMsgTypeHeartbeat, s.sender.config.streamId, []⟩) := by
  simp only [System.sendHeartbeat, frame_empty]
  split
  · exact (Same.refl s).silent
  · rename_i connected
    have later : Frame.Inner ⟨tcpMsgTypeHeartbeat, s.sender.config.streamId, []⟩ := Or.inr rfl
    split
    · exact send_begins (not_not.mp connected) _ sends (Or.inl later) rfl rfl
        fun open_ => by cases open_
    · rename_i ok
      refine send_begins (not_not.mp connected) _ sends (Or.inl later) rfl rfl
        fun _ => ⟨of_not_not ok, later, ?_⟩
      exact sendAll_sockFd _ _ sends

theorem disconnect_begins (s : System) (sends : List SendAnswer) :
    Begins s (s.disconnect sends) (some ⟨tcpMsgTypeStreamStop, s.sender.config.streamId, []⟩) := by
  simp only [System.disconnect]
  split
  · rename_i connected
    simp only [System.sendStreamStop, frame_empty, connected, ne_eq, not_true_eq_false, if_false]
    exact send_begins connected _ sends (Or.inr rfl) rfl rfl fun open_ => by cases open_
  · exact .quiet rfl le_rfl fun open_ => by cases open_

theorem destroy_begins (s : System) (sends : List SendAnswer) :
    Begins s (s.destroy sends) (some ⟨tcpMsgTypeStreamStop, s.sender.config.streamId, []⟩) := by
  cases disconnect_begins s sends with
  | quiet links sockets ready => exact .quiet links sockets fun open_ => by cases open_
  | wrote frame said later fd connected sock part within links sockets ready =>
    exact .wrote frame said later fd connected sock part within links sockets
      fun open_ => by cases open_
  | opened frame said first part within links sockets ready =>
    exact .opened frame said first part within links sockets
      fun open_ => by cases open_

theorem init_begins (s : System) (config : TcpSenderConfig) (malloc : Bool) :
    Begins s (s.init config malloc).1 none := by
  simp only [System.init]
  split
  · exact (Same.refl s).silent
  · split
    · exact (Same.refl s).silent
    · split <;> exact .quiet rfl le_rfl fun open_ => by cases open_

/-- The STREAM_START on a new connection tells the metadata of the sender. -/
theorem connected_begins {s t : System} (links : t.links = s.links)
    (sockets : t.sockets = s.sockets + 1) (sock : t.sender.sockFd = some s.sockets)
    (config : t.sender.config = s.sender.config) (now : UInt64) (start : WriteAnswers)
    (room : tcpHeaderSize + System.streamInfoSize ≤ t.sender.sendBufferSize ∨
      start.realloc = true) :
    Begins s (t.connected now start).1 (some (startFrame s.sender.config)) := by
  simp only [System.connected, System.sendStreamStart]
  generalize ready : t.onSender (fun sender => {sender with
    state := .connected, connectTimeNs := now, lastHeartbeatNs := now
    packetsSent := 0, bytesSent := 0}) = r
  have connected : r.sender.state = .connected := by rw [← ready]; rfl
  have size : r.sender.sendBufferSize = t.sender.sendBufferSize := by rw [← ready]; rfl
  have told : r.sender.config = s.sender.config := by rw [← ready]; exact config
  rw [← size] at room
  have granted := ensureBufferSize_room room
  have same := ensureBufferSize_same r (tcpHeaderSize + System.streamInfoSize) start.realloc
  have fd : r.sender.sockFd = some s.sockets := by rw [← ready]; exact sock
  obtain ⟨part, within, whole, sent⟩ := sendAll_spec (same.sockFd.trans fd)
    (startFrame s.sender.config) start.sends
  have before : (r.ensureBufferSize (tcpHeaderSize + System.streamInfoSize) start.realloc).1.links =
      s.links := by rw [same.links, ← ready]; exact links
  have count : (r.ensureBufferSize (tcpHeaderSize + System.streamInfoSize) start.realloc).1.sockets =
      s.sockets + 1 := by rw [same.sockets, ← ready]; exact sockets
  have still := sendAll_sockFd (r.ensureBufferSize (tcpHeaderSize + System.streamInfoSize)
    start.realloc).1 (startFrame s.sender.config).bytes start.sends
  have started := (congrArg System.links sent).trans (by rw [before])
  have next := (congrArg System.sockets sent).trans count
  have frame : headerBytes (tcpHeaderSize + System.streamInfoSize) tcpMsgTypeStreamStart
      s.sender.config.streamId ++ System.streamInfoBytes s.sender.config.info =
        (startFrame s.sender.config).bytes := rfl
  simp only [connected, ne_eq, not_true_eq_false, if_false, granted, Bool.not_true,
    Bool.false_eq_true, told, frame]
  split
  · exact .opened _ rfl rfl part within ⟨_, started⟩ next fun open_ => by cases open_
  · rename_i ok
    exact .opened _ rfl rfl part within ⟨_, started⟩ next
      fun _ => ⟨whole.mp (of_not_not ok), still.trans (same.sockFd.trans fd)⟩

theorem connect_begins (s : System) (answers : ConnectAnswers)
    (room : s.sender.state = .connected ∨
      tcpHeaderSize + System.streamInfoSize ≤ s.sender.sendBufferSize ∨
      answers.start.realloc = true) :
    Begins s (s.connect answers).1 (some (startFrame s.sender.config)) := by
  simp only [System.connect]
  split
  · exact (Same.refl s).silent
  · rename_i idle
    have room := room.resolve_left idle
    split
    · exact .quiet rfl le_rfl fun open_ => by cases open_
    · split
      · exact .quiet rfl (Nat.le_succ _) fun open_ => by cases open_
      · split
        · exact .quiet rfl (Nat.le_succ _) fun open_ => by cases open_
        · exact .quiet rfl (Nat.le_succ _) fun open_ => by cases open_
        · exact .quiet rfl (Nat.le_succ _) fun open_ => by cases open_
        · apply connected_begins
          · rfl
          · rfl
          · rfl
          · rfl
          · exact room
        · apply connected_begins
          · rfl
          · rfl
          · rfl
          · rfl
          · exact room

theorem call_begins (s : System) (call : Call) (disciplined : Disciplined s call) :
    Begins s (step s call) (call.about s.sender.config) := by
  cases call with
  | init config malloc => exact init_begins s config malloc
  | connect answers => exact connect_begins s answers disciplined
  | disconnect sends => exact disconnect_begins s sends
  | sendVideo data answers => exact sendVideo_begins s data answers
  | sendHeartbeat now sends => exact sendHeartbeat_begins s now sends
  | sendStreamStart answers =>
    have idle : s.sender.state ≠ .connected := disciplined
    simp only [step, System.call, System.sendStreamStart, if_pos idle]
    exact (Same.refl s).silent
  | sendStreamStop sends =>
    have idle : s.sender.state ≠ .connected := disciplined
    simp only [step, System.call, System.sendStreamStop, if_pos idle]
    exact (Same.refl s).silent
  | checkHeartbeat interval now sentAt sends =>
    simp only [step, System.call, System.checkHeartbeat]
    split
    · exact (Same.refl s).silent
    · split
      · exact sendHeartbeat_begins s sentAt sends
      · exact (Same.refl s).silent
  | destroy sends => exact destroy_begins s sends

/-- The connections carry what the log says, and the sender is connected only on the newest one,
whose last frame is whole. -/
structure Carries (log : Log) (s : System) : Prop where
  written : ∀ fd, (s.links fd).written = Wire.bytes Frame.bytes (log.line fd)
  orderly : ∀ fd, Orderly (log.line fd)
  ready : s.sender.state = .connected → ∀ fd, s.sender.sockFd = some fd →
    fd + 1 = s.sockets ∧
      ∃ u ∈ (log.line fd).getLast?, Wire.Whole Frame.bytes u ∧ u.1.type ≠ tcpMsgTypeStreamStop
  known : ∀ sent ∈ log, sent.fd < s.sockets
  sorted : log.Pairwise fun earlier later => earlier.fd ≤ later.fd

theorem zero_carries : Carries [] .zero :=
  ⟨fun _ => rfl, fun _ => .nil, nofun, nofun, .nil⟩

/-- A frame, or the beginning of one, behind all the others. -/
theorem Carries.snoc {log : Log} {s t : System} (carries : Carries log s) {fd : Nat} {frame : Frame}
    {part : Bytes} (may : Follows (log.line fd).getLast? frame) (within : part <+: frame.bytes)
    (links : ∃ ok, t.links = Function.update s.links fd ((s.links fd).send part ok))
    (newest : fd + 1 = t.sockets) (sockets : s.sockets ≤ t.sockets)
    (ready : t.sender.state = .connected →
      part = frame.bytes ∧ frame.type ≠ tcpMsgTypeStreamStop ∧ t.sender.sockFd = some fd) :
    Carries (log ++ [⟨fd, frame, part.length⟩]) t := by
  obtain ⟨ok, links⟩ := links
  obtain ⟨written, orderly⟩ := line_snoc (carries.written fd) (carries.orderly fd) may within ok
  refine ⟨?_, ?_, ?_, ?_, ?_⟩
  · intro other
    by_cases same : other = fd
    · subst same
      rw [links, Function.update_self, Log.line_snoc_self, written]
    · rw [links, Function.update_of_ne same, Log.line_snoc_other log same]
      exact carries.written other
  · intro other
    by_cases same : other = fd
    · subst same
      rw [Log.line_snoc_self]
      exact orderly
    · rw [Log.line_snoc_other log same]
      exact carries.orderly other
  · intro open_ other sock
    obtain ⟨whole, unended, current⟩ := ready open_
    obtain rfl := Option.some.inj (current.symm.trans sock)
    refine ⟨newest, (frame, part.length), ?_, ?_, unended⟩
    · rw [Log.line_snoc_self, List.getLast?_concat]
      rfl
    · rw [whole]
      rfl
  · intro sent member
    rcases List.mem_append.mp member with earlier | last
    · exact (carries.known sent earlier).trans_le sockets
    · obtain rfl := List.mem_singleton.mp last
      exact Nat.lt_of_succ_le newest.le
  · apply List.pairwise_append.mpr
    refine ⟨carries.sorted, List.pairwise_singleton _ _, ?_⟩
    intro earlier member later last
    obtain rfl := List.mem_singleton.mp last
    have before := carries.known earlier member
    dsimp only
    omega

/-- What a call adds to the log. -/
theorem Begins.carries {log : Log} {s t : System} {about : Option Frame}
    (begins : Begins s t about) (carries : Carries log s) :
    ∃ more : Log, Carries (log ++ more) t ∧ more.frames.Sublist about.toList := by
  cases begins with
  | quiet links sockets ready =>
    refine ⟨[], ?_, List.nil_sublist _⟩
    rw [List.append_nil]
    refine ⟨fun fd => by rw [links, carries.written], carries.orderly, ?_, ?_, carries.sorted⟩
    · intro open_ fd sock
      obtain ⟨connected, same, count⟩ := ready open_
      rw [count]
      exact carries.ready connected fd (same.symm.trans sock)
    · intro sent member
      exact (carries.known sent member).trans_le sockets
  | wrote frame said later fd connected sock part within links sockets ready =>
    subst said
    obtain ⟨newest, u, final, complete, unended⟩ := carries.ready connected fd sock
    have may : Follows (log.line fd).getLast? frame := by
      rw [final]
      exact ⟨complete, unended, later⟩
    refine ⟨[⟨fd, frame, part.length⟩], ?_, List.Sublist.refl _⟩
    apply carries.snoc may within links (newest.trans sockets.symm) sockets.ge
    intro open_
    obtain ⟨whole, inner, same⟩ := ready open_
    exact ⟨whole, inner.open_, same⟩
  | opened frame said first part within links sockets ready =>
    subst said
    have blank : log.line s.sockets = [] := Log.line_eq_nil carries.known
    have may : Follows (log.line s.sockets).getLast? frame := by
      rw [blank]
      exact first
    refine ⟨[⟨s.sockets, frame, part.length⟩], ?_, List.Sublist.refl _⟩
    apply carries.snoc may within links sockets.symm (by omega)
    intro open_
    obtain ⟨whole, same⟩ := ready open_
    refine ⟨whole, ?_, same⟩
    rw [first]
    decide

/-- The payloads of the video frames that went out whole. -/
def Log.videos (log : Log) : List Bytes :=
  (log.filter fun sent => sent.frame.type = tcpMsgTypeVideoData ∧ sent.Whole).map fun sent =>
    sent.frame.payload

@[simp] theorem Log.videos_append (log more : Log) :
    Log.videos (log ++ more) = log.videos ++ more.videos := by
  simp [Log.videos]

def Call.video : Call → Option Bytes
  | .sendVideo data _ => some data
  | _ => none

/-- The payloads of the video calls that reported success. -/
def reported : System → List Call → List Bytes
  | _, [] => []
  | s, call :: later =>
    (if (s.call call).2 then call.video.toList else []) ++ reported (step s call) later

@[simp] theorem reported_append (s : System) (calls later : List Call) :
    reported s (calls ++ later) = reported s calls ++ reported (Run.run step s calls) later := by
  induction calls generalizing s with
  | nil => rfl
  | cons call calls ih =>
    rw [List.cons_append, reported, ih, reported, List.append_assoc]
    rfl

/-- All of a frame goes out on some connection only if the send says so. -/
theorem sendAll_whole {r : System} {frame : Frame} {sends : List SendAnswer} {fd : Nat}
    (written : ((r.sendAll frame.bytes sends).1.links fd).written =
      (r.links fd).written ++ frame.bytes) : (r.sendAll frame.bytes sends).2 = true := by
  have grown (longer : (r.links fd).written = (r.links fd).written ++ frame.bytes) : False :=
    frame.bytes_ne_nil (List.self_eq_append_right.mp longer)
  cases sock : r.sender.sockFd with
  | none =>
    have nothing : r.sendAll frame.bytes sends = (r, false) := by simp only [System.sendAll, sock]
    rw [nothing] at written
    exact (grown written).elim
  | some current =>
    obtain ⟨part, -, whole, sent⟩ := sendAll_spec sock frame sends
    rw [congrFun (congrArg System.links sent) fd] at written
    dsimp only at written
    by_cases same : fd = current
    · subst same
      rw [Function.update_self] at written
      exact whole.mpr (List.append_cancel_left written)
    · rw [Function.update_of_ne same] at written
      exact (grown written).elim

/-- A video frame is whole on the line just when its call says so. -/
theorem sendVideo_whole (s : System) (data : Bytes) (answers : WriteAnswers) :
    (s.sendVideo data answers).2 = true ↔
      ∃ fd, ((s.sendVideo data answers).1.links fd).written =
        (s.links fd).written ++ (videoFrame s.sender.config data).bytes := by
  constructor
  · intro success
    obtain ⟨fd, -, written⟩ := (sendVideo_written success).bytes
    exact ⟨fd, written⟩
  · rintro ⟨fd, written⟩
    have grown {t : System} (same : t.links = s.links)
        (longer : (t.links fd).written =
          (s.links fd).written ++ (videoFrame s.sender.config data).bytes) : False := by
      rw [same] at longer
      exact (videoFrame s.sender.config data).bytes_ne_nil (List.self_eq_append_right.mp longer)
    simp only [System.sendVideo] at written ⊢
    split at written
    · exact (grown rfl written).elim
    · rename_i nonempty
      split at written
      · exact (grown rfl written).elim
      · rename_i connected
        split at written
        · exact (grown rfl written).elim
        · rename_i bounded
          have same := ensureBufferSize_same s (tcpHeaderSize + data.length) answers.realloc
          split at written
          · exact (grown same.links written).elim
          · rename_i room
            split at written
            · rename_i failed
              rw [← same.links] at written
              have sent : ((s.ensureBufferSize (tcpHeaderSize + data.length)
                  answers.realloc).1.sendAll (videoFrame s.sender.config data).bytes
                    answers.sends).2 = true := sendAll_whole written
              exact Bool.noConfusion (sent.symm.trans ((Bool.not_eq_true' _).mp failed))
            · rename_i ok
              rw [if_neg nonempty, if_neg connected, if_neg bounded, if_neg room, if_neg ok]

/-- The frame that the log has last is whole just if some connection has grown by it. -/
theorem snoc_whole {log : Log} {s t : System} {sent : Sent} (before : Carries log s)
    (after : Carries (log ++ [sent]) t) :
    sent.Whole ↔ ∃ fd, (t.links fd).written = (s.links fd).written ++ sent.frame.bytes := by
  obtain ⟨current, frame, count⟩ := sent
  have grown := after.written current
  rw [Log.line_snoc_self, Wire.bytes_snoc, ← before.written] at grown
  constructor
  · intro whole
    refine ⟨current, grown.trans ?_⟩
    rw [List.take_of_length_le (show frame.bytes.length ≤ count from whole.ge)]
  · rintro ⟨fd, written⟩
    by_cases same : fd = current
    · subst same
      have all := List.append_cancel_left (grown.symm.trans written)
      have within := (after.orderly fd).within (frame, count) (by rw [Log.line_snoc_self]; simp)
      have length := congrArg List.length all
      dsimp only at within length
      rw [List.length_take] at length
      show count = frame.bytes.length
      omega
    · rw [after.written, Log.line_snoc_other log same, ← before.written] at written
      exact absurd (List.self_eq_append_right.mp written) frame.bytes_ne_nil

theorem videos_eq_nil {more : Log} (other : ∀ frame ∈ more.frames, frame.type ≠ tcpMsgTypeVideoData) :
    more.videos = [] := by
  rw [Log.videos, List.map_eq_nil_iff, List.filter_eq_nil_iff]
  intro sent member
  have differs := other sent.frame (List.mem_map_of_mem member)
  simp [differs]

theorem reported_silent {calls : List Call} (silent : ∀ call ∈ calls, call.video = none) (s : System) :
    reported s calls = [] := by
  induction calls generalizing s with
  | nil => rfl
  | cons call later ih =>
    obtain ⟨here, rest⟩ := List.forall_mem_cons.mp silent
    rw [reported, here, ih rest, List.append_nil]
    split <;> rfl

theorem about_silent {config : TcpSenderConfig} {call : Call} (silent : call.video = none)
    {frame : Frame} (about : call.about config = some frame) : frame.type ≠ tcpMsgTypeVideoData := by
  cases call with
  | sendVideo => cases silent
  | init | sendStreamStart | sendStreamStop => cases about
  | connect | disconnect | sendHeartbeat | checkHeartbeat | destroy =>
    obtain rfl := Option.some.inj about
    simp only [startFrame, ne_eq]
    decide

/-- What a call adds: at most its frame, which is counted as sent just if it reports that. -/
theorem call_carries {log : Log} {s : System} (carries : Carries log s) (call : Call)
    (disciplined : Disciplined s call) :
    ∃ more : Log, Carries (log ++ more) (step s call) ∧
      more.frames.Sublist (call.about s.sender.config).toList ∧ more.videos = reported s [call] := by
  obtain ⟨more, after, frames⟩ := (call_begins s call disciplined).carries carries
  refine ⟨more, after, frames, ?_⟩
  cases video : call.video with
  | none =>
    rw [reported_silent (by simpa using video)]
    apply videos_eq_nil
    intro frame member
    exact about_silent video (Option.mem_toList.mp (frames.subset member))
  | some data =>
    obtain ⟨answers, rfl⟩ : ∃ answers, call = .sendVideo data answers := by
      cases call with
      | sendVideo data answers =>
        obtain rfl := Option.some.inj video
        exact ⟨answers, rfl⟩
      | _ => cases video
    have success : (s.call (.sendVideo data answers)).2 = true ↔
        ∃ fd, ((step s (.sendVideo data answers)).links fd).written =
          (s.links fd).written ++ (videoFrame s.sender.config data).bytes :=
      sendVideo_whole s data answers
    rw [reported, reported, List.append_nil]
    rcases List.sublist_singleton.mp frames with none_begun | one
    · obtain rfl : more = [] := List.map_eq_nil_iff.mp none_begun
      rw [List.append_nil] at after
      rw [if_neg]
      · rfl
      · intro sent
        obtain ⟨fd, written⟩ := success.mp sent
        rw [after.written, ← carries.written] at written
        exact Frame.bytes_ne_nil _ (List.self_eq_append_right.mp written)
    · obtain ⟨sent, rfl, same⟩ := List.map_eq_singleton_iff.mp one
      have whole := snoc_whole carries after
      rw [same, ← success] at whole
      by_cases ok : (s.call (.sendVideo data answers)).2 = true
      · rw [if_pos ok]
        simp [Log.videos, Call.video, whole.mpr ok, same, videoFrame]
      · rw [if_neg ok]
        simp [Log.videos, mt whole.mp ok]

/-- In a run of disciplined calls the frames begun are frames the calls were about, in the order
of the calls, and the video frames that are whole are those reported as sent. -/
theorem run_carries {config : TcpSenderConfig} (calls : List Call) :
    ∀ {log : Log} {s : System}, Carries log s → s.sender.config = config →
      (∀ call ∈ calls, call.Between) → Run.Always step s Disciplined calls →
      ∃ more : Log, Carries (log ++ more) (Run.run step s calls) ∧
        more.frames.Sublist (calls.filterMap (Call.about config)) ∧ more.videos = reported s calls := by
  induction calls with
  | nil =>
    intro log s carries _ _ _
    exact ⟨[], by simpa using carries, List.Sublist.refl _, rfl⟩
  | cons call later ih =>
    intro log s carries told between always
    obtain ⟨disciplined, rest⟩ := (Run.always_cons step s Disciplined call later).mp always
    obtain ⟨first, after, frames, videos⟩ := call_carries carries _ disciplined
    have kept := (call_config s (between call (by simp))).trans told
    obtain ⟨more, final, ordered, sent⟩ :=
      ih after kept (fun call member => between call (by simp [member])) rest
    refine ⟨first ++ more, ?_, ?_, ?_⟩
    · rw [← List.append_assoc]
      exact final
    · rw [Log.frames_append, List.filterMap_cons]
      rw [told] at frames
      cases about : call.about config with
      | none =>
        rw [about] at frames
        rw [List.sublist_nil.mp frames, List.nil_append]
        exact ordered
      | some frame =>
        rw [about] at frames
        exact frames.append ordered
    · rw [Log.videos_append, videos, sent, reported, reported, reported, List.append_nil]

/-- Room in the buffer for a STREAM_START. -/
def Roomy (s : System) : Prop := tcpHeaderSize + System.streamInfoSize ≤ s.sender.sendBufferSize

theorem ensureBufferSize_roomy {s : System} (roomy : Roomy s) (needed : Nat) (realloc : Bool) :
    Roomy (s.ensureBufferSize needed realloc).1 := by
  unfold System.ensureBufferSize
  have positive : s.sender.sendBufferSize ≠ 0 := by
    intro zero
    rw [Roomy, zero] at roomy
    exact absurd roomy (by decide)
  rw [if_neg positive]
  by_cases room : s.sender.sendBufferSize ≥ needed
  · rw [if_pos room]
    exact roomy
  · rw [if_neg room]
    cases realloc with
    | true => exact roomy.trans (Capacity.doubled_le needed needed s.sender.sendBufferSize)
    | false => exact roomy

theorem sendAll_roomy {s : System} (roomy : Roomy s) (data : Bytes) (sends : List SendAnswer) :
    Roomy (s.sendAll data sends).1 := by
  unfold Roomy
  rw [sendAll_sender]
  exact roomy

theorem sendStreamStart_roomy {s : System} (roomy : Roomy s) (answers : WriteAnswers) :
    Roomy (s.sendStreamStart answers).1 := by
  simp only [System.sendStreamStart]
  split
  · exact roomy
  · have grown := ensureBufferSize_roomy roomy (tcpHeaderSize + System.streamInfoSize) answers.realloc
    split
    · exact grown
    · split <;> exact sendAll_roomy grown _ answers.sends

theorem connected_roomy {s : System} (roomy : Roomy s) (now : UInt64) (start : WriteAnswers) :
    Roomy (s.connected now start).1 :=
  sendStreamStart_roomy (s := s.onSender fun sender => {sender with
    state := .connected, connectTimeNs := now, lastHeartbeatNs := now
    packetsSent := 0, bytesSent := 0}) roomy start

theorem connect_roomy {s : System} (roomy : Roomy s) (answers : ConnectAnswers) :
    Roomy (s.connect answers).1 := by
  simp only [System.connect]
  split
  · exact roomy
  · split
    · exact roomy
    · split
      · exact roomy
      · split
        · exact roomy
        · exact roomy
        · exact roomy
        · apply connected_roomy
          exact roomy
        · apply connected_roomy
          exact roomy

theorem disconnect_roomy {s : System} (roomy : Roomy s) (sends : List SendAnswer) :
    Roomy (s.disconnect sends) := by
  simp only [System.disconnect, System.sendStreamStop]
  split
  · split
    · exact roomy
    · exact sendAll_roomy roomy _ sends
  · exact roomy

theorem sendVideo_roomy {s : System} (roomy : Roomy s) (data : Bytes) (answers : WriteAnswers) :
    Roomy (s.sendVideo data answers).1 := by
  simp only [System.sendVideo]
  split
  · exact roomy
  · split
    · exact roomy
    · split
      · exact roomy
      · have grown := ensureBufferSize_roomy roomy (tcpHeaderSize + data.length) answers.realloc
        split
        · exact grown
        · split <;> exact sendAll_roomy grown _ answers.sends

theorem sendHeartbeat_roomy {s : System} (roomy : Roomy s) (now : UInt64)
    (sends : List SendAnswer) : Roomy (s.sendHeartbeat now sends).1 := by
  simp only [System.sendHeartbeat]
  split
  · exact roomy
  · split <;> exact sendAll_roomy roomy _ sends

theorem checkHeartbeat_roomy {s : System} (roomy : Roomy s) (interval now sentAt : UInt64)
    (sends : List SendAnswer) : Roomy (s.checkHeartbeat interval now sentAt sends).1 := by
  simp only [System.checkHeartbeat]
  split
  · exact roomy
  · split
    · exact sendHeartbeat_roomy roomy sentAt sends
    · exact roomy

/-- A worker calls nothing else between the init and the destroy. -/
def Call.Plain : Call → Prop
  | .connect _ | .disconnect _ | .sendVideo _ _ | .checkHeartbeat _ _ _ _ => True
  | _ => False

theorem Call.Plain.between {call : Call} (plain : call.Plain) : call.Between := by
  cases call with
  | connect | disconnect | sendVideo | checkHeartbeat => trivial
  | init | sendHeartbeat | sendStreamStart | sendStreamStop | destroy => exact plain.elim

theorem Call.Plain.disciplined {call : Call} (plain : call.Plain) {s : System} (roomy : Roomy s) :
    Disciplined s call := by
  cases call with
  | connect answers => exact .inr (.inl roomy)
  | disconnect | sendVideo | checkHeartbeat => trivial
  | init | sendHeartbeat | sendStreamStart | sendStreamStop | destroy => exact plain.elim

theorem Call.Plain.roomy {call : Call} (plain : call.Plain) {s : System} (roomy : Roomy s) :
    Roomy (step s call) := by
  cases call with
  | connect answers => exact connect_roomy roomy answers
  | disconnect sends => exact disconnect_roomy roomy sends
  | sendVideo data answers => exact sendVideo_roomy roomy data answers
  | checkHeartbeat interval now sentAt sends =>
    exact checkHeartbeat_roomy roomy interval now sentAt sends
  | init | sendHeartbeat | sendStreamStart | sendStreamStop | destroy => exact plain.elim

theorem plain_config {calls : List Call} (plain : ∀ call ∈ calls, call.Plain) (s : System) :
    (Run.run step s calls).sender.config = s.sender.config := by
  induction calls generalizing s with
  | nil => rfl
  | cons call later ih =>
    obtain ⟨first, rest⟩ := List.forall_mem_cons.mp plain
    exact (ih rest (step s call)).trans (call_config s first.between)

/-- With room for a STREAM_START plain calls are disciplined, and the room stays. -/
theorem plain_always {calls : List Call} (plain : ∀ call ∈ calls, call.Plain) :
    ∀ {s : System}, Roomy s → Run.Always step s Disciplined calls ∧ Roomy (Run.run step s calls) := by
  induction calls with
  | nil =>
    intro s roomy
    exact ⟨Run.always_nil step s Disciplined, roomy⟩
  | cons call later ih =>
    intro s roomy
    obtain ⟨first, rest⟩ := List.forall_mem_cons.mp plain
    obtain ⟨always, still⟩ := ih rest (first.roomy roomy)
    exact ⟨(Run.always_cons step s Disciplined call later).mpr ⟨first.disciplined roomy, always⟩,
      still⟩

end StreamRelay.Sender
