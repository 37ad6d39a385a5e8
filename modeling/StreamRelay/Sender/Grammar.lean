import StreamRelay.Sender.Frames

/-! What each call does to the connections, and what follows for whole runs: the line keeps the
grammar, and a connection on which a send has failed is left alone. -/
namespace StreamRelay.Sender

/-- Some of the data is written in order, and all of it exactly if the loop says so. -/
theorem sendLoop_spec (data : Bytes) (retries : Nat) (answers : List SendAnswer) :
    (sendLoop data retries answers).1 <+: data ∧
      ((sendLoop data retries answers).2 = true ↔ (sendLoop data retries answers).1 = data) := by
  induction answers generalizing data retries with
  | nil =>
    refine ⟨List.nil_prefix, ?_⟩
    simp only [sendLoop, decide_eq_true_eq]
    exact eq_comm
  | cons answer rest ih =>
    simp only [sendLoop]
    by_cases empty : data = []
    · subst empty
      simp
    · have stopped : [] <+: data ∧ (false = true ↔ [] = data) :=
        ⟨List.nil_prefix, by simpa using Ne.symm empty⟩
      rw [if_neg empty]
      split
      · exact stopped
      · cases answer with
        | interrupted => exact ih data retries
        | again => exact ih data (retries + 1)
        | error => exact stopped
        | sent count =>
          dsimp only
          split
          · exact stopped
          · obtain ⟨within, all⟩ := ih (data.drop count) 0
            have split := List.take_append_drop count data
            constructor
            · have joined := (List.prefix_append_right_inj (data.take count)).mpr within
              rw [split] at joined
              exact joined
            · refine all.trans ⟨fun same => by rw [same, split], fun same => ?_⟩
              have whole := same.trans split.symm
              exact List.append_cancel_left whole

/-- The bytes of a send on a connection, the last ones if it fails. -/
def Link.send (link : Link) (part : Bytes) (ok : Bool) : Link :=
  ⟨link.written ++ part, link.failed || !ok⟩

theorem sendAll_spec {s : System} {fd : Nat} (sock : s.sender.sockFd = some fd) (frame : Frame)
    (sends : List SendAnswer) :
    ∃ part, part <+: frame.bytes ∧
      ((s.sendAll frame.bytes sends).2 = true ↔ part = frame.bytes) ∧
      (s.sendAll frame.bytes sends).1 = {s with
        links := Function.update s.links fd
          ((s.links fd).send part (s.sendAll frame.bytes sends).2)} := by
  obtain ⟨within, all⟩ := sendLoop_spec frame.bytes 0 sends
  refine ⟨_, within, ?_, ?_⟩
  · simpa only [System.sendAll, sock] using all
  · simp only [System.sendAll, sock, Link.send]

/-- The sender stands to its connection as before, and nothing was written. -/
structure Same (s t : System) : Prop where
  links : t.links = s.links
  sockets : t.sockets = s.sockets
  state : t.sender.state = s.sender.state
  sockFd : t.sender.sockFd = s.sender.sockFd
  config : t.sender.config = s.sender.config

theorem ensureBufferSize_same (s : System) (needed : Nat) (realloc : Bool) :
    Same s (s.ensureBufferSize needed realloc).1 := by
  simp only [System.ensureBufferSize]
  split
  · exact ⟨rfl, rfl, rfl, rfl, rfl⟩
  · split <;> exact ⟨rfl, rfl, rfl, rfl, rfl⟩

/-- There is room if there was, or if the system grants it. -/
theorem ensureBufferSize_room {s : System} {needed : Nat} {realloc : Bool}
    (room : needed ≤ s.sender.sendBufferSize ∨ realloc = true) :
    (s.ensureBufferSize needed realloc).2 = true := by
  simp only [System.ensureBufferSize]
  split
  · rfl
  · rename_i short
    rw [if_pos (room.resolve_left short)]

/-- What a call can do to the connections. -/
inductive Effect (s t : System) : Prop
  | quiet (links : t.links = s.links) (sockets : s.sockets ≤ t.sockets)
      (ready : t.sender.state = .connected →
        s.sender.state = .connected ∧ t.sender.sockFd = s.sender.sockFd)
  | wrote (frame : Frame) (later : frame.Inner ∨ frame.type = tcpMsgTypeStreamStop) (fd : Nat)
      (connected : s.sender.state = .connected) (sock : s.sender.sockFd = some fd) (part : Bytes)
      (ok : Bool) (within : part <+: frame.bytes) (whole : ok = true ↔ part = frame.bytes)
      (links : t.links = Function.update s.links fd ((s.links fd).send part ok))
      (sockets : t.sockets = s.sockets)
      (ready : t.sender.state = .connected →
        ok = true ∧ frame.Inner ∧ t.sender.sockFd = some fd)
  | opened (frame : Frame) (first : frame.type = tcpMsgTypeStreamStart) (part : Bytes) (ok : Bool)
      (within : part <+: frame.bytes) (whole : ok = true ↔ part = frame.bytes)
      (links : t.links =
        Function.update s.links s.sockets ((s.links s.sockets).send part ok))
      (sockets : t.sockets = s.sockets + 1)
      (ready : t.sender.state = .connected → ok = true ∧ t.sender.sockFd = some s.sockets)

/-- No STREAM_START or STREAM_STOP but those of connect and disconnect, and room in the buffer
for that of connect. -/
def Disciplined (s : System) : Call → Prop
  | .sendStreamStart _ | .sendStreamStop _ => s.sender.state ≠ .connected
  | .connect answers => s.sender.state = .connected ∨
      tcpHeaderSize + System.streamInfoSize ≤ s.sender.sendBufferSize ∨
      answers.start.realloc = true
  | _ => True

namespace Same

variable {s t u : System}

theorem refl (s : System) : Same s s := ⟨rfl, rfl, rfl, rfl, rfl⟩

theorem quiet (same : Same s t) : Effect s t :=
  .quiet same.links same.sockets.ge fun ready => ⟨same.state.symm.trans ready, same.sockFd⟩

/-- What comes after a change that the connections do not see. -/
theorem effect (same : Same s t) (effect : Effect t u) : Effect s u := by
  cases effect with
  | quiet links sockets ready =>
    refine .quiet (links.trans same.links) (same.sockets.ge.trans sockets) fun open_ => ?_
    obtain ⟨connected, sock⟩ := ready open_
    exact ⟨same.state.symm.trans connected, sock.trans same.sockFd⟩
  | wrote frame later fd connected sock part ok within whole links sockets ready =>
    refine .wrote frame later fd (same.state.symm.trans connected) (same.sockFd.symm.trans sock) part
      ok within whole ?_ (sockets.trans same.sockets) ready
    rw [links, same.links]
  | opened frame first part ok within whole links sockets ready =>
    refine .opened frame first part ok within whole ?_ ?_ ?_
    · rw [links, same.links, same.sockets]
    · rw [sockets, same.sockets]
    · rw [← same.sockets]
      exact ready

end Same

/-- A frame that is sent while connected, and what is made of the result. -/
theorem send_effect {s t : System} (connected : s.sender.state = .connected) (frame : Frame)
    (sends : List SendAnswer) (later : frame.Inner ∨ frame.type = tcpMsgTypeStreamStop)
    (links : t.links = (s.sendAll frame.bytes sends).1.links)
    (sockets : t.sockets = (s.sendAll frame.bytes sends).1.sockets)
    (ready : t.sender.state = .connected →
      (s.sendAll frame.bytes sends).2 = true ∧ frame.Inner ∧
        t.sender.sockFd = s.sender.sockFd) : Effect s t := by
  cases sock : s.sender.sockFd with
  | none =>
    have nothing : s.sendAll frame.bytes sends = (s, false) := by simp only [System.sendAll, sock]
    rw [nothing] at links sockets ready
    exact .quiet links sockets.ge fun open_ => by cases (ready open_).1
  | some fd =>
    obtain ⟨part, within, whole, sent⟩ := sendAll_spec sock frame sends
    rw [sent] at links sockets
    refine .wrote frame later fd connected sock part _ within whole links sockets fun open_ => ?_
    obtain ⟨ok, inner, same⟩ := ready open_
    exact ⟨ok, inner, same.trans sock⟩

theorem sendAll_sender (s : System) (data : Bytes) (sends : List SendAnswer) :
    (s.sendAll data sends).1.sender = s.sender := by
  simp only [System.sendAll]
  split <;> rfl

theorem sendAll_sockFd (s : System) (data : Bytes) (sends : List SendAnswer) :
    (s.sendAll data sends).1.sender.sockFd = s.sender.sockFd := by
  rw [sendAll_sender]

theorem of_not_not {ok : Bool} (not_failed : ¬(!ok) = true) : ok = true := by
  simpa using not_failed

theorem frame_empty (type : UInt8) (streamId : UInt16) :
    headerBytes tcpHeaderSize type streamId = Frame.bytes ⟨type, streamId, []⟩ := by
  simp [Frame.bytes]

theorem sendVideo_effect (s : System) (data : Bytes) (answers : WriteAnswers) :
    Effect s (s.sendVideo data answers).1 := by
  simp only [System.sendVideo]
  split
  · exact (Same.refl s).quiet
  · split
    · exact Same.quiet ⟨rfl, rfl, rfl, rfl, rfl⟩
    · rename_i connected
      split
      · exact Same.quiet ⟨rfl, rfl, rfl, rfl, rfl⟩
      · have same := ensureBufferSize_same s (tcpHeaderSize + data.length) answers.realloc
        split
        · exact same.quiet
        · have open_ := same.state.trans (not_not.mp connected)
          have later : Frame.Inner ⟨tcpMsgTypeVideoData, s.sender.config.streamId, data⟩ := Or.inl rfl
          apply same.effect
          split
          · exact send_effect open_ ⟨_, _, data⟩ answers.sends (Or.inl later) rfl rfl nofun
          · rename_i ok
            refine send_effect open_ ⟨_, _, data⟩ answers.sends (Or.inl later) rfl rfl
              fun _ => ⟨of_not_not ok, later, ?_⟩
            exact sendAll_sockFd _ _ answers.sends

theorem sendHeartbeat_effect (s : System) (now : UInt64) (sends : List SendAnswer) :
    Effect s (s.sendHeartbeat now sends).1 := by
  simp only [System.sendHeartbeat, frame_empty]
  split
  · exact (Same.refl s).quiet
  · rename_i connected
    have later : Frame.Inner ⟨tcpMsgTypeHeartbeat, s.sender.config.streamId, []⟩ := Or.inr rfl
    split
    · exact send_effect (not_not.mp connected) _ sends (Or.inl later) rfl rfl nofun
    · rename_i ok
      refine send_effect (not_not.mp connected) _ sends (Or.inl later) rfl rfl
        fun _ => ⟨of_not_not ok, later, ?_⟩
      exact sendAll_sockFd _ _ sends

theorem disconnect_effect (s : System) (sends : List SendAnswer) :
    Effect s (s.disconnect sends) := by
  simp only [System.disconnect]
  split
  · rename_i connected
    simp only [System.sendStreamStop, frame_empty, connected, ne_eq, not_true_eq_false, if_false]
    exact send_effect connected _ sends (Or.inr rfl) rfl rfl nofun
  · exact .quiet rfl le_rfl nofun

theorem destroy_effect (s : System) (sends : List SendAnswer) : Effect s (s.destroy sends) := by
  cases disconnect_effect s sends with
  | quiet links sockets ready => exact .quiet links sockets nofun
  | wrote frame later fd connected sock part ok within whole links sockets ready =>
    exact .wrote frame later fd connected sock part ok within whole links sockets nofun
  | opened frame first part ok within whole links sockets ready =>
    exact .opened frame first part ok within whole links sockets nofun

theorem init_effect (s : System) (config : TcpSenderConfig) (malloc : Bool) :
    Effect s (s.init config malloc).1 := by
  simp only [System.init]
  split
  · exact (Same.refl s).quiet
  · split
    · exact (Same.refl s).quiet
    · split <;> exact .quiet rfl le_rfl nofun

/-- A new connection begins with the STREAM_START, for which there is room. -/
theorem connected_effect {s t : System} (links : t.links = s.links)
    (sockets : t.sockets = s.sockets + 1) (sock : t.sender.sockFd = some s.sockets)
    (now : UInt64) (start : WriteAnswers)
    (room : tcpHeaderSize + System.streamInfoSize ≤ t.sender.sendBufferSize ∨
      start.realloc = true) : Effect s (t.connected now start).1 := by
  simp only [System.connected, System.sendStreamStart]
  generalize ready : t.onSender (fun sender => {sender with
    state := .connected, connectTimeNs := now, lastHeartbeatNs := now
    packetsSent := 0, bytesSent := 0}) = r
  have connected : r.sender.state = .connected := by rw [← ready]; rfl
  have size : r.sender.sendBufferSize = t.sender.sendBufferSize := by rw [← ready]; rfl
  rw [← size] at room
  have granted := ensureBufferSize_room room
  have same := ensureBufferSize_same r (tcpHeaderSize + System.streamInfoSize) start.realloc
  have fd : r.sender.sockFd = some s.sockets := by rw [← ready]; exact sock
  obtain ⟨part, within, whole, sent⟩ := sendAll_spec (same.sockFd.trans fd)
    ⟨tcpMsgTypeStreamStart, r.sender.config.streamId, System.streamInfoBytes r.sender.config.info⟩
    start.sends
  have before : (r.ensureBufferSize (tcpHeaderSize + System.streamInfoSize) start.realloc).1.links =
      s.links := by rw [same.links, ← ready]; exact links
  have count : (r.ensureBufferSize (tcpHeaderSize + System.streamInfoSize) start.realloc).1.sockets =
      s.sockets + 1 := by rw [same.sockets, ← ready]; exact sockets
  have still := sendAll_sockFd (r.ensureBufferSize (tcpHeaderSize + System.streamInfoSize)
    start.realloc).1 (Frame.bytes ⟨tcpMsgTypeStreamStart, r.sender.config.streamId,
      System.streamInfoBytes r.sender.config.info⟩) start.sends
  have started := (congrArg System.links sent).trans (by rw [before])
  have next := (congrArg System.sockets sent).trans count
  simp only [connected, ne_eq, not_true_eq_false, if_false, granted, Bool.not_true,
    Bool.false_eq_true]
  split
  · exact .opened _ rfl part _ within whole started next nofun
  · rename_i ok
    exact .opened _ rfl part _ within whole started next
      fun _ => ⟨of_not_not ok, still.trans (same.sockFd.trans fd)⟩

theorem connect_effect (s : System) (answers : ConnectAnswers)
    (room : s.sender.state = .connected ∨
      tcpHeaderSize + System.streamInfoSize ≤ s.sender.sendBufferSize ∨
      answers.start.realloc = true) : Effect s (s.connect answers).1 := by
  simp only [System.connect]
  split
  · exact (Same.refl s).quiet
  · rename_i idle
    have room := room.resolve_left idle
    split
    · exact .quiet rfl le_rfl nofun
    · split
      · exact .quiet rfl (Nat.le_succ _) nofun
      · split
        · exact .quiet rfl (Nat.le_succ _) nofun
        · exact .quiet rfl (Nat.le_succ _) nofun
        · exact .quiet rfl (Nat.le_succ _) nofun
        · apply connected_effect
          · rfl
          · rfl
          · rfl
          · exact room
        · apply connected_effect
          · rfl
          · rfl
          · rfl
          · exact room

theorem call_effect (s : System) (call : Call) (disciplined : Disciplined s call) :
    Effect s (step s call) := by
  cases call with
  | init config malloc => exact init_effect s config malloc
  | connect answers => exact connect_effect s answers disciplined
  | disconnect sends => exact disconnect_effect s sends
  | sendVideo data answers => exact sendVideo_effect s data answers
  | sendHeartbeat now sends => exact sendHeartbeat_effect s now sends
  | sendStreamStart answers =>
    have idle : s.sender.state ≠ .connected := disciplined
    simp only [step, System.call, System.sendStreamStart, if_pos idle]
    exact (Same.refl s).quiet
  | sendStreamStop sends =>
    have idle : s.sender.state ≠ .connected := disciplined
    simp only [step, System.call, System.sendStreamStop, if_pos idle]
    exact (Same.refl s).quiet
  | checkHeartbeat interval now sentAt sends =>
    simp only [step, System.call, System.checkHeartbeat]
    split
    · exact (Same.refl s).quiet
    · split
      · exact sendHeartbeat_effect s sentAt sends
      · exact (Same.refl s).quiet
  | destroy sends => exact destroy_effect s sends

/-- Every connection carries a beginning of a sentence, and the sender is connected only on
one whose last frame is whole. -/
structure Ordered (s : System) : Prop where
  lines : ∀ fd, ∃ line, (s.links fd).written = Wire.bytes Frame.bytes line ∧ Orderly line ∧
    (s.sender.state = .connected → s.sender.sockFd = some fd →
      ∃ u ∈ line.getLast?, Wire.Whole Frame.bytes u ∧ u.1.type ≠ tcpMsgTypeStreamStop)
  current : s.sender.state = .connected → ∀ fd, s.sender.sockFd = some fd →
    (s.links fd).failed = false ∧ fd < s.sockets
  fresh : ∀ fd, s.sockets ≤ fd → s.links fd = ⟨[], false⟩

theorem Frame.Inner.open_ {frame : Frame} (inner : frame.Inner) :
    frame.type ≠ tcpMsgTypeStreamStop := by
  rcases inner with same | same <;> rw [same] <;> decide

theorem zero_ordered : Ordered .zero :=
  ⟨fun _ => ⟨[], rfl, .nil, nofun⟩, nofun, fun _ _ => rfl⟩

/-- A frame behind what the line carries. -/
theorem line_snoc {line : Wire.Line Frame} {link : Link} {frame : Frame} {part : Bytes}
    (carried : link.written = Wire.bytes Frame.bytes line) (orderly : Orderly line)
    (may : Follows line.getLast? frame) (within : part <+: frame.bytes) (ok : Bool) :
    (link.send part ok).written = Wire.bytes Frame.bytes (line ++ [(frame, part.length)]) ∧
      Orderly (line ++ [(frame, part.length)]) := by
  constructor
  · rw [Wire.bytes_snoc, ← carried, ← List.prefix_iff_eq_take.mp within]
    rfl
  · exact orderly.snoc may within.length_le

/-- A connection on which a send has failed is left as it is. -/
def Leaves (s t : System) : Prop :=
  ∀ fd, (s.links fd).failed = true → t.links fd = s.links fd

/-- A frame, or the beginning of one, goes to one connection that may carry it. -/
theorem Ordered.extend {s t : System} (ordered : Ordered s) {fd : Nat} {line : Wire.Line Frame}
    {frame : Frame} {part : Bytes} {ok : Bool}
    (carried : (s.links fd).written = Wire.bytes Frame.bytes line) (orderly : Orderly line)
    (may : Follows line.getLast? frame) (within : part <+: frame.bytes)
    (whole : ok = true ↔ part = frame.bytes) (sound : (s.links fd).failed = false)
    (links : t.links = Function.update s.links fd ((s.links fd).send part ok))
    (known : fd < t.sockets) (sockets : s.sockets ≤ t.sockets)
    (ready : t.sender.state = .connected →
      ok = true ∧ frame.type ≠ tcpMsgTypeStreamStop ∧ t.sender.sockFd = some fd) :
    Ordered t ∧ Leaves s t := by
  obtain ⟨written, next⟩ := line_snoc carried orderly may within ok
  refine ⟨⟨?_, ?_, ?_⟩, ?_⟩
  · intro other
    by_cases same : other = fd
    · subst same
      refine ⟨_, by rw [links, Function.update_self, written], next, fun open_ _ => ?_⟩
      obtain ⟨sent, unended, -⟩ := ready open_
      refine ⟨(frame, part.length), by simp, ?_, unended⟩
      rw [whole.mp sent]
      rfl
    · obtain ⟨line, carried, orderly, -⟩ := ordered.lines other
      refine ⟨line, by rw [links, Function.update_of_ne same, carried], orderly,
        fun open_ sock => ?_⟩
      exact absurd (Option.some.inj (sock.symm.trans (ready open_).2.2)) same
  · intro open_ other sock
    obtain ⟨sent, -, same⟩ := ready open_
    obtain rfl := Option.some.inj (same.symm.trans sock)
    rw [links, Function.update_self]
    exact ⟨by simp [Link.send, sent, sound], known⟩
  · intro other beyond
    rw [links, Function.update_of_ne (by omega)]
    exact ordered.fresh other (sockets.trans beyond)
  · intro other failed
    rw [links]
    apply Function.update_of_ne
    rintro rfl
    rw [sound] at failed
    cases failed

theorem Effect.ordered {s t : System} (effect : Effect s t) (ordered : Ordered s) :
    Ordered t ∧ Leaves s t := by
  cases effect with
  | quiet links sockets ready =>
    refine ⟨⟨?_, ?_, ?_⟩, fun fd _ => by rw [links]⟩
    · intro fd
      obtain ⟨line, carried, orderly, last⟩ := ordered.lines fd
      refine ⟨line, by rw [links, carried], orderly, fun open_ sock => ?_⟩
      obtain ⟨connected, same⟩ := ready open_
      exact last connected (same.symm.trans sock)
    · intro open_ fd sock
      obtain ⟨connected, same⟩ := ready open_
      rw [links]
      obtain ⟨sound, known⟩ := ordered.current connected fd (same.symm.trans sock)
      exact ⟨sound, known.trans_le sockets⟩
    · intro fd beyond
      rw [links]
      exact ordered.fresh fd (sockets.trans beyond)
  | wrote frame later fd connected sock part ok within whole links sockets ready =>
    obtain ⟨line, carried, orderly, last⟩ := ordered.lines fd
    obtain ⟨u, final, complete, unended⟩ := last connected sock
    obtain ⟨sound, known⟩ := ordered.current connected fd sock
    have may : Follows line.getLast? frame := by
      rw [final]
      exact ⟨complete, unended, later⟩
    apply ordered.extend carried orderly may within whole sound links (sockets ▸ known) sockets.ge
    intro open_
    obtain ⟨sent, inner, same⟩ := ready open_
    exact ⟨sent, inner.open_, same⟩
  | opened frame first part ok within whole links sockets ready =>
    have blank := ordered.fresh s.sockets le_rfl
    have carried : (s.links s.sockets).written = Wire.bytes Frame.bytes [] := by rw [blank]; rfl
    have sound : (s.links s.sockets).failed = false := by rw [blank]
    apply ordered.extend carried .nil first within whole sound links (by omega) (by omega)
    intro open_
    obtain ⟨sent, same⟩ := ready open_
    refine ⟨sent, ?_, same⟩
    rw [first]
    decide

/-- Each connection carries a beginning of a sentence, and no byte follows on one after a send
on it has failed. -/
structure Clean (calls : List Call) : Prop where
  grammar : ∀ fd, Grammatical ((run calls).links fd).written
  final : ∀ past later fd, calls = past ++ later → ((run past).links fd).failed = true →
    ((run calls).links fd).written = ((run past).links fd).written

theorem run_ordered (calls : List Call) (always : Run.Always step .zero Disciplined calls) :
    Ordered (run calls) :=
  Run.history_while step .zero Disciplined (fun _ s => Ordered s) zero_ordered
    (fun _ call ordered disciplined => ((call_effect _ call disciplined).ordered ordered).1) calls
    always

theorem run_leaves (past later : List Call)
    (always : Run.Always step .zero Disciplined (past ++ later)) :
    Leaves (run past) (run (past ++ later)) := by
  induction later using List.reverseRecOn with
  | nil => simp [Leaves]
  | append_singleton later call ih =>
    rw [← List.append_assoc] at always ⊢
    obtain ⟨before, disciplined⟩ := (Run.always_snoc step .zero Disciplined _ call).mp always
    have kept := ((call_effect _ call disciplined).ordered (run_ordered _ before)).2
    intro fd failed
    have same := ih before fd failed
    rw [run, Run.run_snoc]
    exact (kept fd ((congrArg Link.failed same).trans failed)).trans same

/-- In every run of disciplined calls the connections are clean. -/
theorem run_clean (calls : List Call) (always : Run.Always step .zero Disciplined calls) :
    Clean calls := by
  constructor
  · intro fd
    obtain ⟨line, carried, orderly, -⟩ := (run_ordered calls always).lines fd
    rw [carried]
    exact orderly_grammatical orderly
  · rintro past later fd rfl failed
    rw [run_leaves past later always fd failed]

def sampleConfig : TcpSenderConfig := ⟨[49], 9000, 1, .zero⟩

def goodConnect : ConnectAnswers := ⟨true, true, .done, 1, ⟨true, [.sent 47]⟩⟩

/-- A STREAM_STOP is cut short by an error, and a heartbeat follows on the same connection. -/
def haltingCalls : List Call :=
  [.init sampleConfig true, .connect goodConnect, .sendStreamStop [.sent 3, .error]]

theorem not_clean_halting : ¬ Clean (haltingCalls ++ [.sendHeartbeat 2 [.sent 7]]) := by
  intro clean
  have kept := clean.final haltingCalls [.sendHeartbeat 2 [.sent 7]] 0 rfl (by decide)
  have longer := congrArg List.length kept
  revert longer
  decide

/-- A session with a cut video frame, and a second connection. -/
def plainCalls : List Call :=
  [.init sampleConfig true, .connect goodConnect, .sendVideo [1, 2] ⟨true, [.sent 9]⟩,
    .sendVideo [3] ⟨true, [.sent 4, .interrupted, .again, .error]⟩, .connect goodConnect,
    .sendHeartbeat 2 [.sent 7], .disconnect [.sent 7]]

instance (s : System) (call : Call) : Decidable (Disciplined s call) :=
  match call with
  | .sendStreamStart _ | .sendStreamStop _ =>
    inferInstanceAs (Decidable (s.sender.state ≠ .connected))
  | .connect answers =>
    inferInstanceAs (Decidable (s.sender.state = .connected ∨
      tcpHeaderSize + System.streamInfoSize ≤ s.sender.sendBufferSize ∨
      answers.start.realloc = true))
  | .init _ _ | .disconnect _ | .sendVideo _ _ | .sendHeartbeat _ _ | .checkHeartbeat _ _ _ _
  | .destroy _ => isTrue trivial

theorem run_clean_plain : Clean plainCalls := run_clean plainCalls (by decide)

end StreamRelay.Sender
