import StreamRelay.Sender.History
import StreamRelay.Worker.DecodeUnit
import StreamRelay.Worker.Options

/-! The callbacks that the stream client calls in ml_worker, from setup to cleanup: the worker
connects again after an error, and passes on what it is given. The statistics, which are only
printed, are left out. -/
namespace StreamRelay.Worker
open CText

/-- The codes of worker_defs.h that are set. -/
inductive FatalCode where
  | none
  | connectionTerminated
  | tcpConnect
  | tcpSend
  | negotiationMismatch
  deriving DecidableEq, Repr

structure WorkerRenderConfig where
  tcpHost : Text
  tcpPort : UInt16
  streamId : UInt16
  width : UInt32
  height : UInt32
  fps : UInt32
  bitrate : UInt32
  videoFormat : UInt32
  codec : UInt32
  chroma : UInt32
  bitdepth : UInt32
  colorSpace : UInt32
  colorRange : UInt32

/-- What run_stream_command makes of the options. -/
def renderConfig (o : StreamOptions) (supportedVideoFormats : Int) : WorkerRenderConfig where
  tcpHost := o.tcpHost
  tcpPort := o.tcpPort
  streamId := o.streamId
  width := UInt32.ofInt o.width
  height := UInt32.ofInt o.height
  fps := UInt32.ofInt o.fps
  bitrate := UInt32.ofInt o.bitrate
  videoFormat := UInt32.ofInt supportedVideoFormats
  codec := UInt32.ofInt o.codec
  chroma := UInt32.ofInt o.chroma
  bitdepth := UInt32.ofInt o.bitdepth
  colorSpace := UInt32.ofInt o.colorSpace
  colorRange := UInt32.ofInt o.colorRange

/-- The statics of the callbacks, and the fatal code that both of them point to. -/
structure Session where
  config : Option WorkerRenderConfig
  initialized : Bool
  frame : FrameBuffer
  system : Sender.System
  lastReconnectNs : UInt64
  fatal : FatalCode

def Session.start : Session := ⟨none, false, ⟨0, fun _ => 0⟩, .zero, 0, .none⟩

def heartbeatIntervalNs : UInt64 := 5000000000

def reconnectIntervalNs : UInt64 := 3000000000

/-- What ensure_connected is answered. -/
structure ConnectionAnswers where
  now : UInt64
  heartbeatNow : UInt64
  heartbeatSentAt : UInt64
  heartbeatSends : List Sender.SendAnswer
  stopSends : List Sender.SendAnswer
  connect : Sender.ConnectAnswers
  failedAt : UInt64

structure FrameAnswers where
  connection : ConnectionAnswers
  realloc : Bool
  write : Sender.WriteAnswers

/-- The settings of the sender for a negotiated format. -/
def tcpConfig (cfg : WorkerRenderConfig) (videoFormat width height : Int)
    (negotiated : UInt32 × UInt32 × UInt32) : Sender.TcpSenderConfig where
  host := if cfg.tcpHost.headD 0 ≠ 0 then cfg.tcpHost else ofChars "127.0.0.1".toList
  port := if cfg.tcpPort ≠ 0 then cfg.tcpPort else 9000
  streamId := if cfg.streamId ≠ 0 then cfg.streamId else 1
  info := {
    width := UInt32.ofInt width
    height := UInt32.ofInt height
    fps := if cfg.fps ≠ 0 then cfg.fps else 60
    bitrate := if cfg.bitrate ≠ 0 then cfg.bitrate else 10000
    codec := negotiated.1
    chroma := negotiated.2.1
    bitdepth := negotiated.2.2
    videoFormat := UInt32.ofInt videoFormat
    colorSpace := cfg.colorSpace
    colorRange := cfg.colorRange }

namespace Session

def setFatalOnce (code : FatalCode) (w : Session) : Session :=
  if w.config.isSome ∧ w.fatal = .none then {w with fatal := code} else w

/-- worker_setup, with whether it returns 0. -/
def workerSetup (videoFormat width height : Int) (context : Option WorkerRenderConfig)
    (malloc : Bool) (connect : Sender.ConnectAnswers) (w : Session) : Session × Bool :=
  let w := {w with config := context}
  match context with
  | none => (w, false)
  | some cfg =>
    match videoFormatToStreamMetadata videoFormat with
    | none => (w.setFatalOnce .negotiationMismatch, false)
    | some negotiated =>
      if (cfg.codec, cfg.chroma, cfg.bitdepth) ≠ negotiated then
        (w.setFatalOnce .negotiationMismatch, false)
      else
        let w := {w with config := some {cfg with
          width := UInt32.ofInt width, height := UInt32.ofInt height
          videoFormat := UInt32.ofInt videoFormat, codec := negotiated.1, chroma := negotiated.2.1
          bitdepth := negotiated.2.2}}
        let made := w.system.init (tcpConfig cfg videoFormat width height negotiated) malloc
        if !made.2 then ({w with system := made.1}.setFatalOnce .tcpConnect, false)
        else
          ({w with
              system := (made.1.connect connect).1, initialized := true, lastReconnectNs := 0},
            true)

/-- ensure_connected; a heartbeat that fails is not told. -/
def ensureConnected (answers : ConnectionAnswers) (w : Session) : Session × Bool :=
  if !w.initialized then (w, false)
  else if w.system.sender.state = .connected then
    ({w with system := (w.system.checkHeartbeat heartbeatIntervalNs answers.heartbeatNow
      answers.heartbeatSentAt answers.heartbeatSends).1}, true)
  else if w.system.sender.state = .error ∧ answers.now - w.lastReconnectNs < reconnectIntervalNs then
    (w, false)
  else
    let system :=
      if w.system.sender.state = .error then w.system.disconnect answers.stopSends else w.system
    let connected := system.connect answers.connect
    if !connected.2 then ({w with system := connected.1, lastReconnectNs := answers.failedAt}, false)
    else ({w with system := connected.1}, true)

/-- worker_submit_decode_unit, with the frame that is handed to the sender if there is one. -/
def submit (answers : FrameAnswers) (unit : DecodeUnit) (w : Session) :
    Option (Session × Option Bytes) := do
  let ready := w.ensureConnected answers.connection
  let submitted ← submitDecodeUnit ⟨fun _ => (ready.1.system, ready.2), answers.realloc, answers.write⟩
    unit ⟨ready.1.frame, ready.1.system, false⟩
  let after := {ready.1 with frame := submitted.worker.frame, system := submitted.worker.system}
  some (if submitted.worker.fatalTcpSend then after.setFatalOnce .tcpSend else after,
    submitted.handed.map Prod.fst)

def workerCleanup (sends : List Sender.SendAnswer) (w : Session) : Session :=
  {w with
    system := if w.initialized then w.system.destroy sends else w.system
    initialized := false, frame := ⟨0, fun _ => 0⟩, config := none}

/-- The listener's pointer is set as long as there is a connection. -/
def connectionTerminated (w : Session) : Session :=
  if w.fatal = .none then {w with fatal := .connectionTerminated} else w

end Session

/-- What the stream client calls after setup. -/
inductive Event where
  | submit (unit : DecodeUnit) (answers : FrameAnswers)
  | terminated
  | cleanup (sends : List Sender.SendAnswer)

namespace Session

def step (w : Session) : Event → Option (Session × Option Bytes)
  | .submit unit answers => w.submit answers unit
  | .terminated => some (w.connectionTerminated, none)
  | .cleanup sends => some (w.workerCleanup sends, none)

/-- The session after the events, and the frames handed to the sender. -/
def run (w : Session) : List Event → Option (Session × List Bytes)
  | [] => some (w, [])
  | event :: later => do
    let next ← w.step event
    let rest ← next.1.run later
    some (rest.1, next.2.toList ++ rest.2)

end Session

/-- A unit whose length is that of its fragments, none of which has a negative one. -/
structure DecodeUnit.Proper (unit : DecodeUnit) : Prop where
  lengths : ∀ entry ∈ unit.bufferList, 0 ≤ entry.length
  full : unit.fullLength.toInt = unit.bytes.length

theorem roomFor_enough (needed size : Nat) : needed ≤ roomFor needed size := by
  unfold roomFor
  by_cases room : size ≥ needed
  · rw [if_pos room]
    exact room
  · rw [if_neg room]
    apply Capacity.grown_enough
    by_cases fresh : size = 0
    · rw [if_pos fresh]
      decide
    · rw [if_neg fresh]
      exact Nat.pos_of_ne_zero fresh

theorem DecodeUnit.Proper.fits {unit : DecodeUnit} (proper : unit.Proper) (size : Nat) :
    UnitFits unit size := by
  have full := proper.full
  have most := unit.fullLength.toInt_lt
  refine ⟨proper.lengths, ?_, ?_⟩
  · have same : unit.fullLength.toInt.toNat = unit.bytes.length := by omega
    rw [same]
    exact roomFor_enough _ _
  · omega

/-- A proper unit is handed on whole or not at all, and not only if there is no connection or no
memory, or it is empty. -/
theorem submitDecodeUnit_proper (answers : SubmitAnswers) {unit : DecodeUnit} (proper : unit.Proper)
    (worker : VideoWorker) :
    ∃ result, submitDecodeUnit answers unit worker = some result ∧
      ((Refused answers unit worker ∧ result.handed = none ∧
          result.worker.system = (answers.ensureConnected worker.system).1 ∧
          result.worker.fatalTcpSend = worker.fatalTcpSend) ∨
        (¬ Refused answers unit worker ∧ result.handed = some (unit.bytes, isIdrFrame unit.bytes) ∧
          result.worker.system =
            ((answers.ensureConnected worker.system).1.sendVideo unit.bytes answers.write).1 ∧
          result.worker.fatalTcpSend = (worker.fatalTcpSend ||
            !((answers.ensureConnected worker.system).1.sendVideo unit.bytes answers.write).2))) := by
  by_cases refused : Refused answers unit worker
  · unfold submitDecodeUnit
    simp only
    by_cases connected : (answers.ensureConnected worker.system).2 = true
    · rw [if_neg (by simp [connected])]
      by_cases empty : unit.fullLength ≤ 0
      · rw [if_pos empty]
        exact ⟨_, rfl, .inl ⟨refused, rfl, rfl, rfl⟩⟩
      · have room : worker.frame.size < unit.fullLength.toInt.toNat ∧ answers.realloc = false := by
          rcases refused with unconnected | empty' | small
          · rw [connected] at unconnected
            cases unconnected
          · exact absurd empty' empty
          · exact small
        rw [if_neg empty, ensureFrameBuffer_eq, if_pos room]
        exact ⟨_, rfl, .inl ⟨refused, rfl, rfl, rfl⟩⟩
    · rw [if_pos (by simp [connected])]
      exact ⟨_, rfl, .inl ⟨refused, rfl, rfl, rfl⟩⟩
  · obtain ⟨connected, announced, room⟩ : (answers.ensureConnected worker.system).2 = true ∧
        ¬ unit.fullLength ≤ 0 ∧
        ¬ (worker.frame.size < unit.fullLength.toInt.toNat ∧ answers.realloc = false) := by
      unfold Refused at refused
      simpa only [not_or, Bool.not_eq_false] using refused
    have loop := gather_spec (roomFor unit.fullLength.toInt.toNat worker.frame.size) unit.bufferList
      worker.frame.memory 0 (Nat.zero_le _) (by decide)
    rw [Nat.zero_add] at loop
    obtain ⟨after, gathered, text⟩ := loop.1 (proper.fits worker.frame.size)
    unfold submitDecodeUnit
    simp only [connected, Bool.not_true, Bool.false_eq_true, if_false, if_neg announced,
      ensureFrameBuffer_eq, if_neg room]
    refine ⟨_, Checked.proceed gathered _, .inr ⟨refused, ?_⟩⟩
    rw [Int.toNat_natCast, text]
    exact ⟨rfl, rfl, rfl⟩

namespace Session

open Sender (Call)

/-- The calls of the sender that ensure_connected makes. -/
def connectionCalls (answers : ConnectionAnswers) (w : Session) : List Call :=
  if !w.initialized then []
  else if w.system.sender.state = .connected then
    [.checkHeartbeat heartbeatIntervalNs answers.heartbeatNow answers.heartbeatSentAt
      answers.heartbeatSends]
  else if w.system.sender.state = .error ∧ answers.now - w.lastReconnectNs < reconnectIntervalNs then
    []
  else if w.system.sender.state = .error then
    [.disconnect answers.stopSends, .connect answers.connect]
  else [.connect answers.connect]

theorem connectionCalls_plain (answers : ConnectionAnswers) (w : Session) :
    ∀ call ∈ w.connectionCalls answers, call.Plain := by
  unfold connectionCalls
  intro call member
  split_ifs at member
  · cases member
  · obtain rfl := List.mem_singleton.mp member
    trivial
  · cases member
  · rcases List.mem_pair.mp member with rfl | rfl <;> trivial
  · obtain rfl := List.mem_singleton.mp member
    trivial

/-- Without a sender there is no connection, and with one ensure_connected is these calls. -/
theorem ensureConnected_calls (answers : ConnectionAnswers) (w : Session) :
    (w.ensureConnected answers).1.system =
        Run.run Sender.step w.system (w.connectionCalls answers) ∧
      (w.ensureConnected answers).1.config = w.config ∧
      (w.ensureConnected answers).1.initialized = w.initialized ∧
      (w.ensureConnected answers).1.frame = w.frame ∧
      (w.ensureConnected answers).1.fatal = w.fatal ∧
      (w.initialized = false → (w.ensureConnected answers).2 = false) := by
  unfold ensureConnected connectionCalls
  by_cases idle : (!w.initialized) = true
  · rw [if_pos idle, if_pos idle]
    exact ⟨rfl, rfl, rfl, rfl, rfl, fun _ => rfl⟩
  · have made : ¬ w.initialized = false := by simpa using idle
    rw [if_neg idle, if_neg idle]
    by_cases connected : w.system.sender.state = .connected
    · rw [if_pos connected, if_pos connected]
      exact ⟨rfl, rfl, rfl, rfl, rfl, fun unmade => absurd unmade made⟩
    · rw [if_neg connected, if_neg connected]
      split
      · exact ⟨rfl, rfl, rfl, rfl, rfl, fun unmade => absurd unmade made⟩
      · by_cases failed : w.system.sender.state = .error
        · rw [if_pos failed, if_pos failed]
          dsimp only
          split <;> exact ⟨rfl, rfl, rfl, rfl, rfl, fun unmade => absurd unmade made⟩
        · rw [if_neg failed, if_neg failed]
          dsimp only
          split <;> exact ⟨rfl, rfl, rfl, rfl, rfl, fun unmade => absurd unmade made⟩

theorem setFatalOnce_keeps (code : FatalCode) (w : Session) :
    (w.setFatalOnce code).system = w.system ∧ (w.setFatalOnce code).config = w.config ∧
      (w.setFatalOnce code).initialized = w.initialized ∧
      (w.fatal ≠ .none → (w.setFatalOnce code).fatal = w.fatal) := by
  unfold setFatalOnce
  split
  · next unset => exact ⟨rfl, rfl, rfl, fun set => absurd unset.2 set⟩
  · exact ⟨rfl, rfl, rfl, fun _ => rfl⟩

/-- What is never called with a unit before it is set up has a sender with these settings. -/
structure Ready (cfg : Sender.TcpSenderConfig) (w : Session) : Prop where
  told : w.initialized = true → w.system.sender.config = cfg
  roomy : w.initialized = true → Sender.Roomy w.system
  known : w.initialized = true → w.config.isSome = true

end Session

/-- The frames that a worker with these settings may send. -/
def Told (cfg : Sender.TcpSenderConfig) (frame : Sender.Frame) : Prop :=
  frame = Sender.startFrame cfg ∨ (∃ data, frame = Sender.videoFrame cfg data) ∨
    frame = ⟨tcpMsgTypeHeartbeat, cfg.streamId, []⟩ ∨ frame = ⟨tcpMsgTypeStreamStop, cfg.streamId, []⟩

theorem about_told {cfg : Sender.TcpSenderConfig} {call : Sender.Call} {frame : Sender.Frame}
    (about : call.about cfg = some frame) : Told cfg frame := by
  cases call with
  | connect =>
    obtain rfl := Option.some.inj about
    exact .inl rfl
  | sendVideo data =>
    obtain rfl := Option.some.inj about
    exact .inr (.inl ⟨data, rfl⟩)
  | sendHeartbeat | checkHeartbeat =>
    obtain rfl := Option.some.inj about
    exact .inr (.inr (.inl rfl))
  | disconnect | destroy =>
    obtain rfl := Option.some.inj about
    exact .inr (.inr (.inr rfl))
  | init | sendStreamStart | sendStreamStop => cases about

/-- The payloads of the video frames begun, whole or not. -/
def begunVideos (log : Sender.Log) : List Bytes :=
  (log.frames.filter fun frame => frame.type = tcpMsgTypeVideoData).map Sender.Frame.payload

@[simp] theorem begunVideos_append (log more : Sender.Log) :
    begunVideos (log ++ more) = begunVideos log ++ begunVideos more := by
  simp [begunVideos]

/-- What events add to the log, with the frames handed to the sender. -/
structure Adds (cfg : Sender.TcpSenderConfig) (w t : Session) (more : Sender.Log)
    (handed : List Bytes) : Prop where
  told : ∀ frame ∈ more.frames, Told cfg frame
  begun : (begunVideos more).Sublist handed
  first : w.fatal ≠ .none → t.fatal = w.fatal
  all : t.fatal = .none → more.videos = handed

theorem Adds.nothing {cfg : Sender.TcpSenderConfig} {w t : Session}
    (first : w.fatal ≠ .none → t.fatal = w.fatal) : Adds cfg w t [] [] :=
  ⟨nofun, .slnil, first, fun _ => rfl⟩

theorem Adds.trans {cfg : Sender.TcpSenderConfig} {w t u : Session} {more later : Sender.Log}
    {handed further : List Bytes} (adds : Adds cfg w t more handed)
    (then_ : Adds cfg t u later further) : Adds cfg w u (more ++ later) (handed ++ further) := by
  refine ⟨?_, ?_, ?_, ?_⟩
  · intro frame member
    rw [Sender.Log.frames_append] at member
    exact (List.mem_append.mp member).elim (adds.told frame) (then_.told frame)
  · rw [begunVideos_append]
    exact adds.begun.append then_.begun
  · intro set
    have kept := adds.first set
    rw [← kept]
    exact then_.first (kept.trans_ne set)
  · intro unset
    have before : t.fatal = .none := by
      by_contra set
      exact set ((then_.first set).symm.trans unset)
    rw [Sender.Log.videos_append, adds.all before, then_.all unset]

theorem connectionCalls_video (answers : ConnectionAnswers) (w : Session) :
    ∀ call ∈ w.connectionCalls answers, call.video = none := by
  unfold Session.connectionCalls
  intro call member
  split_ifs at member
  · cases member
  · obtain rfl := List.mem_singleton.mp member
    rfl
  · cases member
  · rcases List.mem_pair.mp member with rfl | rfl <;> rfl
  · obtain rfl := List.mem_singleton.mp member
    rfl

theorem silent_begun {cfg : Sender.TcpSenderConfig} (calls : List Sender.Call) {more : Sender.Log}
    (silent : ∀ call ∈ calls, call.video = none)
    (frames : more.frames.Sublist (calls.filterMap (Sender.Call.about cfg))) :
    begunVideos more = [] := by
  rw [begunVideos, List.map_eq_nil_iff, List.filter_eq_nil_iff]
  intro frame member
  obtain ⟨call, known, about⟩ := List.mem_filterMap.mp (frames.subset member)
  simpa using Sender.about_silent (silent call known) about

theorem calls_told {cfg : Sender.TcpSenderConfig} (calls : List Sender.Call) {more : Sender.Log}
    (frames : more.frames.Sublist (calls.filterMap (Sender.Call.about cfg))) :
    ∀ frame ∈ more.frames, Told cfg frame := by
  intro frame member
  obtain ⟨call, -, about⟩ := List.mem_filterMap.mp (frames.subset member)
  exact about_told about

/-- To connect adds no video. -/
theorem ensureConnected_adds {cfg : Sender.TcpSenderConfig} {log : Sender.Log} {w : Session}
    (carries : Sender.Carries log w.system) (ready : w.Ready cfg) (answers : ConnectionAnswers) :
    ∃ more, Sender.Carries (log ++ more) (w.ensureConnected answers).1.system ∧
      (w.ensureConnected answers).1.Ready cfg ∧ Adds cfg w (w.ensureConnected answers).1 more [] := by
  obtain ⟨system, config, initialized, -, fatal, -⟩ := w.ensureConnected_calls answers
  have plain := w.connectionCalls_plain answers
  by_cases made : w.initialized = true
  · obtain ⟨always, roomy⟩ := Sender.plain_always plain (ready.roomy made)
    obtain ⟨more, after, frames, videos⟩ := Sender.run_carries (w.connectionCalls answers) carries
      (ready.told made) (fun call member => (plain call member).between) always
    have silent := connectionCalls_video answers w
    refine ⟨more, ?_, ⟨fun _ => ?_, fun _ => ?_, fun _ => ?_⟩, ?_, ?_, ?_, ?_⟩
    · rw [system]
      exact after
    · rw [system, Sender.plain_config plain]
      exact ready.told made
    · rw [system]
      exact roomy
    · rw [config]
      exact ready.known made
    · exact calls_told _ frames
    · rw [silent_begun _ silent frames]
    · exact fun _ => fatal
    · intro _
      rw [videos, Sender.reported_silent silent]
  · have none_made : w.connectionCalls answers = [] := by simp [Session.connectionCalls, made]
    rw [none_made] at system
    refine ⟨[], ?_, ⟨fun now => ?_, fun now => ?_, fun now => ?_⟩, .nothing fun _ => fatal⟩
    · rw [system, List.append_nil]
      exact carries
    · exact absurd (initialized.symm.trans now) made
    · exact absurd (initialized.symm.trans now) made
    · exact absurd (initialized.symm.trans now) made

/-- The session behind a frame that was handed to the sender. -/
def Session.passed (w : Session) (frame : FrameBuffer) (data : Bytes) (write : Sender.WriteAnswers) :
    Session :=
  let after := {w with frame := frame, system := (w.system.sendVideo data write).1}
  if (w.system.sendVideo data write).2 then after else after.setFatalOnce .tcpSend

/-- A proper unit is given up before it is gathered, or handed to the sender. -/
theorem submit_cases (answers : FrameAnswers) {unit : DecodeUnit} (proper : unit.Proper) (w : Session) :
    ∃ frame, w.submit answers unit =
        some ({(w.ensureConnected answers.connection).1 with frame := frame}, none) ∨
      (w.ensureConnected answers.connection).2 = true ∧
        w.submit answers unit =
          some ((w.ensureConnected answers.connection).1.passed frame unit.bytes answers.write,
            some unit.bytes) := by
  unfold Session.submit
  generalize w.ensureConnected answers.connection = reply
  obtain ⟨v, ok⟩ := reply
  obtain ⟨result, submitted, outcome⟩ := submitDecodeUnit_proper
    ⟨fun _ => (v.system, ok), answers.realloc, answers.write⟩ proper ⟨v.frame, v.system, false⟩
  obtain ⟨⟨frame, system, failed⟩, handed⟩ := result
  refine ⟨frame, ?_⟩
  dsimp only at outcome ⊢
  rw [submitted]
  rcases outcome with ⟨-, rfl, rfl, rfl⟩ | ⟨accepted, rfl, rfl, rfl⟩
  · exact .inl rfl
  · refine .inr ⟨by simpa using mt Or.inl accepted, ?_⟩
    unfold Session.passed
    cases sent : (v.system.sendVideo unit.bytes answers.write).2 <;> simp

theorem passed_keeps (w : Session) (frame : FrameBuffer) (data : Bytes) (write : Sender.WriteAnswers) :
    (w.passed frame data write).system = (w.system.sendVideo data write).1 ∧
      (w.passed frame data write).config = w.config ∧
      (w.passed frame data write).initialized = w.initialized ∧
      (w.fatal ≠ .none → (w.passed frame data write).fatal = w.fatal) := by
  unfold Session.passed
  dsimp only
  split
  · exact ⟨rfl, rfl, rfl, fun _ => rfl⟩
  · exact Session.setFatalOnce_keeps .tcpSend _

/-- The fatal code is set if the send fails. -/
theorem passed_fatal {w : Session} (known : w.config.isSome = true) {frame : FrameBuffer}
    {data : Bytes} {write : Sender.WriteAnswers} (unset : (w.passed frame data write).fatal = .none) :
    (w.system.sendVideo data write).2 = true := by
  by_contra failed
  simp only [Session.passed, if_neg failed, Session.setFatalOnce, known, true_and] at unset
  by_cases fresh : w.fatal = .none
  · rw [if_pos fresh] at unset
    cases unset
  · rw [if_neg fresh] at unset
    exact fresh unset

/-- A frame that is handed to the sender goes out whole, or the fatal code is set. -/
theorem passed_adds {cfg : Sender.TcpSenderConfig} {log : Sender.Log} {w : Session}
    (carries : Sender.Carries log w.system) (ready : w.Ready cfg) (made : w.initialized = true)
    (frame : FrameBuffer) (data : Bytes) (write : Sender.WriteAnswers) :
    ∃ more, Sender.Carries (log ++ more) (w.passed frame data write).system ∧
      (w.passed frame data write).Ready cfg ∧ Adds cfg w (w.passed frame data write) more [data] := by
  obtain ⟨system, config, -, first⟩ := passed_keeps w frame data write
  have plain : (Sender.Call.sendVideo data write).Plain := trivial
  obtain ⟨more, after, frames, videos⟩ :=
    Sender.call_carries carries (.sendVideo data write) trivial
  rw [ready.told made] at frames
  refine ⟨more, ?_, ⟨fun _ => ?_, fun _ => ?_, fun _ => ?_⟩, ?_, ?_, first, ?_⟩
  · rw [system]
    exact after
  · rw [system]
    exact (Sender.call_config w.system plain.between).trans (ready.told made)
  · rw [system]
    exact plain.roomy (ready.roomy made)
  · rw [config]
    exact ready.known made
  · intro frame member
    exact about_told (Option.mem_toList.mp (frames.subset member))
  · have one := (frames.filter fun frame => frame.type = tcpMsgTypeVideoData).map Sender.Frame.payload
    exact one
  · intro unset
    have ok : (w.system.call (.sendVideo data write)).2 = true := passed_fatal (ready.known made) unset
    rw [videos, Sender.reported, if_pos ok]
    rfl

/-- A proper unit is passed on whole, or the fatal code is set. -/
theorem submit_adds {cfg : Sender.TcpSenderConfig} {log : Sender.Log} {w : Session}
    (carries : Sender.Carries log w.system) (ready : w.Ready cfg) {unit : DecodeUnit}
    (proper : unit.Proper) (answers : FrameAnswers) :
    ∃ t handed more, w.submit answers unit = some (t, handed) ∧
      Sender.Carries (log ++ more) t.system ∧ t.Ready cfg ∧ Adds cfg w t more handed.toList ∧
      ∀ data ∈ handed, data = unit.bytes := by
  obtain ⟨more, connected, prepared, adds⟩ := ensureConnected_adds carries ready answers.connection
  have unmade := (w.ensureConnected_calls answers.connection).2.2.2.2.2
  have initialized := (w.ensureConnected_calls answers.connection).2.2.1
  obtain ⟨frame, given_up | ⟨ok, passed⟩⟩ := submit_cases answers proper w
  · exact ⟨_, _, more, given_up, connected, ⟨prepared.told, prepared.roomy, prepared.known⟩,
      ⟨adds.told, adds.begun, adds.first, adds.all⟩, nofun⟩
  · have made : (w.ensureConnected answers.connection).1.initialized = true := by
      rw [initialized]
      by_contra idle
      rw [unmade (Bool.eq_false_iff.mpr idle)] at ok
      cases ok
    obtain ⟨later, sent, still, further⟩ :=
      passed_adds connected prepared made frame unit.bytes answers.write
    refine ⟨_, _, more ++ later, passed, ?_, still, adds.trans further, ?_⟩
    · rw [← List.append_assoc]
      exact sent
    · rintro data ⟨⟩
      rfl

/-- The Limelight calls whose unit is proper. -/
def Event.Proper : Event → Prop
  | .submit unit _ => unit.Proper
  | _ => True

def Event.unit : Event → Option DecodeUnit
  | .submit unit _ => some unit
  | _ => none

theorem unready {cfg : Sender.TcpSenderConfig} {w : Session} (idle : w.initialized = false) :
    w.Ready cfg := by
  constructor <;> intro made <;> rw [idle] at made <;> cases made

theorem step_adds {cfg : Sender.TcpSenderConfig} {log : Sender.Log} {w : Session}
    (carries : Sender.Carries log w.system) (ready : w.Ready cfg) {event : Event}
    (proper : event.Proper) :
    ∃ t handed more, w.step event = some (t, handed) ∧ Sender.Carries (log ++ more) t.system ∧
      t.Ready cfg ∧ Adds cfg w t more handed.toList ∧
      handed.toList.Sublist (event.unit.toList.map DecodeUnit.bytes) := by
  cases event with
  | submit unit answers =>
    obtain ⟨t, handed, more, done, after, still, adds, same⟩ :=
      submit_adds carries ready proper answers
    refine ⟨t, handed, more, done, after, still, adds, ?_⟩
    cases handed with
    | none => exact List.nil_sublist _
    | some data =>
      rw [same data rfl]
      exact List.Sublist.refl _
  | terminated =>
    refine ⟨_, _, [], rfl, ?_, ?_, .nothing ?_, List.nil_sublist _⟩
    · unfold Session.connectionTerminated
      rw [List.append_nil]
      split <;> exact carries
    · unfold Session.connectionTerminated
      split <;> exact ⟨ready.told, ready.roomy, ready.known⟩
    · intro set
      rw [Session.connectionTerminated, if_neg set]
  | cleanup sends =>
    by_cases made : w.initialized = true
    · obtain ⟨more, after, frames, videos⟩ :=
        Sender.call_carries carries (.destroy sends) trivial
      rw [ready.told made] at frames
      have silent : ∀ call ∈ [Sender.Call.destroy sends], call.video = none := by
        simp [Sender.Call.video]
      refine ⟨_, _, more, rfl, ?_, unready rfl, ⟨?_, ?_, fun _ => rfl, ?_⟩,
        List.nil_sublist _⟩
      · simp only [Session.workerCleanup, if_pos made]
        exact after
      · exact calls_told [.destroy sends] frames
      · rw [silent_begun [.destroy sends] silent frames]
        exact List.nil_sublist _
      · intro _
        rw [videos, Sender.reported_silent silent]
        rfl
    · refine ⟨_, _, [], rfl, ?_, unready rfl, .nothing fun _ => rfl,
        List.nil_sublist _⟩
      simp only [Session.workerCleanup, if_neg made, List.append_nil]
      exact carries

theorem run_adds {cfg : Sender.TcpSenderConfig} (events : List Event) :
    ∀ {log : Sender.Log} {w : Session}, Sender.Carries log w.system → w.Ready cfg →
      (∀ event ∈ events, event.Proper) →
      ∃ t handed more, w.run events = some (t, handed) ∧ Sender.Carries (log ++ more) t.system ∧
        Adds cfg w t more handed ∧
        handed.Sublist ((events.filterMap Event.unit).map DecodeUnit.bytes) := by
  induction events with
  | nil =>
    intro log w carries _ _
    refine ⟨w, [], [], rfl, ?_, .nothing fun _ => rfl, List.nil_sublist _⟩
    rw [List.append_nil]
    exact carries
  | cons event later ih =>
    intro log w carries ready proper
    obtain ⟨here, rest⟩ := List.forall_mem_cons.mp proper
    obtain ⟨t, handed, more, done, after, still, adds, order⟩ := step_adds carries ready here
    obtain ⟨u, further, behind, finished, final, then_, ordered⟩ := ih after still rest
    refine ⟨u, handed.toList ++ further, more ++ behind, ?_, ?_, adds.trans then_, ?_⟩
    · simp only [Session.run, done, finished, Option.bind_eq_bind, Option.bind_some]
    · rw [← List.append_assoc]
      exact final
    · have both := order.append ordered
      rw [List.filterMap_cons]
      cases unit : event.unit with
      | none => simpa [unit] using both
      | some unit' => simpa [unit] using both

/-- setup goes on only with the format asked for, a sender that takes the settings, and memory. -/
theorem setup_accepts {cfg : WorkerRenderConfig} {videoFormat width height : Int} {malloc : Bool}
    {connect : Sender.ConnectAnswers} {w : Session}
    (accepted : Session.start.workerSetup videoFormat width height (some cfg) malloc connect = (w, true)) :
    videoFormatToStreamMetadata videoFormat = some (cfg.codec, cfg.chroma, cfg.bitdepth) ∧
      let tcp := tcpConfig cfg videoFormat width height (cfg.codec, cfg.chroma, cfg.bitdepth)
      let made := Sender.System.zero.init tcp malloc
      made.2 = true ∧ w.system = (made.1.connect connect).1 ∧ w.initialized = true ∧
        w.config.isSome = true ∧ w.fatal = .none := by
  unfold Session.workerSetup at accepted
  dsimp only at accepted
  split at accepted
  · cases (Prod.mk.inj accepted).2
  · rename_i negotiated known
    split at accepted
    · cases (Prod.mk.inj accepted).2
    · rename_i same
      obtain rfl := not_not.mp same
      split at accepted
      · cases (Prod.mk.inj accepted).2
      · rename_i made
        obtain ⟨rfl, -⟩ := Prod.mk.inj accepted
        exact ⟨known, Sender.of_not_not made, rfl, rfl, rfl, rfl⟩

theorem init_silent (tcp : Sender.TcpSenderConfig) (malloc : Bool) :
    Sender.Carries [] (Sender.System.zero.init tcp malloc).1 := by
  obtain ⟨more, carries, frames⟩ :=
    (Sender.init_begins .zero tcp malloc).carries Sender.zero_carries
  obtain rfl : more = [] := List.map_eq_nil_iff.mp (List.sublist_nil.mp frames)
  exact carries

theorem init_zero {tcp : Sender.TcpSenderConfig} {malloc : Bool}
    (made : (Sender.System.zero.init tcp malloc).2 = true) :
    Sender.Carries [] (Sender.System.zero.init tcp malloc).1 ∧
      (Sender.System.zero.init tcp malloc).1.sender.config = tcp ∧
      Sender.Roomy (Sender.System.zero.init tcp malloc).1 := by
  refine ⟨init_silent tcp malloc, (Sender.init_config made).1, ?_⟩
  simp only [Sender.System.init] at made ⊢
  split at made
  · cases made
  · rename_i addressed
    split at made
    · cases made
    · rename_i named
      split at made
      · rename_i room
        rw [if_neg addressed, if_neg named, if_pos room]
        exact (by decide : tcpHeaderSize + Sender.System.streamInfoSize ≤ Sender.defaultSendBufferSize)
      · cases made

/-- All that a worker does between setup and the last event, with what it has sent. -/
structure Relayed (tcp : Sender.TcpSenderConfig) (units : List DecodeUnit) (t : Session)
    (handed : List Bytes) (log : Sender.Log) : Prop where
  carries : Sender.Carries log t.system
  told : ∀ frame ∈ log.frames, Told tcp frame
  begun : (begunVideos log).Sublist handed
  order : handed.Sublist (units.map DecodeUnit.bytes)
  all : t.fatal = .none → log.videos = handed

/-- Over all its connections the worker sends, of the units it is given, each at most once and in
their order; behind a STREAM_START that tells the negotiated format; and if no fatal code is set
then all that it handed to the sender has gone out whole. -/
theorem session_relays {cfg : WorkerRenderConfig} {videoFormat width height : Int} {malloc : Bool}
    {connect : Sender.ConnectAnswers} {w : Session}
    (accepted : Session.start.workerSetup videoFormat width height (some cfg) malloc connect = (w, true))
    (events : List Event) (proper : ∀ event ∈ events, event.Proper) :
    ∃ t handed log, w.run events = some (t, handed) ∧
      Relayed (tcpConfig cfg videoFormat width height (cfg.codec, cfg.chroma, cfg.bitdepth))
        (events.filterMap Event.unit) t handed log := by
  obtain ⟨-, made, system, initialized, known, unset⟩ := setup_accepts accepted
  obtain ⟨blank, told, roomy⟩ := init_zero made
  have plain : (Sender.Call.connect connect).Plain := trivial
  obtain ⟨more, after, frames, videos⟩ :=
    Sender.call_carries blank (.connect connect) (plain.disciplined roomy)
  rw [told] at frames
  have carries : Sender.Carries more w.system := by
    rw [system]
    exact after
  have ready : w.Ready
      (tcpConfig cfg videoFormat width height (cfg.codec, cfg.chroma, cfg.bitdepth)) := by
    refine ⟨fun _ => ?_, fun _ => ?_, fun _ => known⟩
    · rw [system]
      exact (Sender.call_config _ plain.between).trans told
    · rw [system]
      exact plain.roomy roomy
  obtain ⟨t, handed, later, done, final, adds, order⟩ := run_adds events carries ready proper
  have silent : ∀ call ∈ [Sender.Call.connect connect], call.video = none := by
    simp [Sender.Call.video]
  have first : Adds (tcpConfig cfg videoFormat width height (cfg.codec, cfg.chroma, cfg.bitdepth))
      w w more [] := by
    refine ⟨calls_told [.connect connect] frames, ?_, fun _ => rfl, fun _ => ?_⟩
    · rw [silent_begun [.connect connect] silent frames]
    · rw [videos, Sender.reported_silent silent]
  have whole := first.trans adds
  exact ⟨t, handed, more ++ later, done, final, whole.told, whole.begun, order, whole.all⟩

def sampleOptions : WorkerRenderConfig :=
  ⟨ofChars "10.0.0.9".toList, 9000, 7, 1920, 1080, 60, 20000, 256, 1, 0, 8, 1, 1⟩

def goodConnect : Sender.ConnectAnswers := ⟨true, true, .done, 1, ⟨true, [.sent 47]⟩⟩

def sampleSetup : Session × Bool :=
  Session.start.workerSetup videoFormatH265 1920 1080 (some sampleOptions) true goodConnect

def sampleUnit : DecodeUnit := ⟨3, [⟨[0, 0], 2, by decide⟩, ⟨[1], 1, by decide⟩]⟩

/-- The first send is cut short, the second unit goes out on a new connection. -/
def sampleEvents : List Event :=
  [.submit sampleUnit ⟨⟨9, 1, 1, [], [], goodConnect, 9⟩, true, ⟨true, [.sent 4, .error]⟩⟩,
    .submit sampleUnit ⟨⟨4000000000, 1, 1, [], [], goodConnect, 9⟩, true, ⟨true, [.sent 10]⟩⟩]

theorem sampleUnit_proper : sampleUnit.Proper := ⟨by decide, by decide⟩

/-- Without a sender nothing is sent. -/
theorem idle_run (events : List Event) :
    ∀ {w : Session}, w.initialized = false → ∃ t, w.run events = some (t, []) ∧
      t.system = w.system ∧ (w.fatal ≠ .none → t.fatal = w.fatal) := by
  induction events with
  | nil =>
    intro w _
    exact ⟨w, rfl, rfl, fun _ => rfl⟩
  | cons event later ih =>
    intro w unmade
    obtain ⟨t, done, system, still, first⟩ : ∃ t, w.step event = some (t, none) ∧
        t.system = w.system ∧ t.initialized = false ∧ (w.fatal ≠ .none → t.fatal = w.fatal) := by
      cases event with
      | submit unit answers =>
        have idle : w.ensureConnected answers.connection = (w, false) := by
          simp [Session.ensureConnected, unmade]
        refine ⟨w, ?_, rfl, unmade, fun _ => rfl⟩
        simp only [Session.step, Session.submit, idle]
        rfl
      | terminated =>
        refine ⟨w.connectionTerminated, rfl, ?_, ?_, fun set => ?_⟩
        · unfold Session.connectionTerminated
          split <;> rfl
        · unfold Session.connectionTerminated
          split <;> exact unmade
        · rw [Session.connectionTerminated, if_neg set]
      | cleanup sends =>
        refine ⟨w.workerCleanup sends, rfl, ?_, rfl, fun _ => rfl⟩
        simp [Session.workerCleanup, unmade]
    obtain ⟨u, finished, same, kept⟩ := ih still
    refine ⟨u, ?_, same.trans system, fun set => ?_⟩
    · simp only [Session.run, done, finished, Option.bind_eq_bind, Option.bind_some]
      rfl
    · exact (kept ((first set).trans_ne set)).trans (first set)

theorem told_start {tcp : Sender.TcpSenderConfig} {frame : Sender.Frame} (told : Told tcp frame)
    (opens : frame.type = tcpMsgTypeStreamStart) : frame = Sender.startFrame tcp := by
  rcases told with start | ⟨data, rfl⟩ | rfl | rfl
  · exact start
  · exact absurd (show tcpMsgTypeVideoData = tcpMsgTypeStreamStart from opens) (by decide)
  · exact absurd (show tcpMsgTypeHeartbeat = tcpMsgTypeStreamStart from opens) (by decide)
  · exact absurd (show tcpMsgTypeStreamStop = tcpMsgTypeStreamStart from opens) (by decide)

theorem sentence_head {frames : List Sender.Frame} (sentence : Sender.Sentence frames) :
    ∀ frame ∈ frames.head?, frame.type = tcpMsgTypeStreamStart := by
  cases sentence with
  | empty => nofun
  | started opens | stopped opens =>
    rintro frame ⟨⟩
    exact opens

theorem Log_line_member {log : Sender.Log} {fd : Nat} {u : Sender.Frame × Nat}
    (member : u ∈ log.line fd) : u.1 ∈ log.frames := by
  obtain ⟨sent, known, rfl⟩ := List.mem_map.mp member
  exact List.mem_map_of_mem (List.mem_of_mem_filter known)

/-- Each connection is opened with the metadata. -/
theorem Relayed.opens {tcp : Sender.TcpSenderConfig} {units : List DecodeUnit} {t : Session}
    {handed : List Bytes} {log : Sender.Log} (relayed : Relayed tcp units t handed log) (fd : Nat) :
    ∀ u ∈ (log.line fd).head?, u.1 = Sender.startFrame tcp := by
  intro u first
  apply told_start (relayed.told _ (Log_line_member (List.mem_of_mem_head? first)))
  apply sentence_head (Sender.orderly_sentence (relayed.carries.orderly fd)).1
  rw [Wire.Line.frames, List.head?_map, first]
  rfl

theorem setup_refuses (cfg : WorkerRenderConfig) {videoFormat : Int}
    (other : videoFormatToStreamMetadata videoFormat ≠ some (cfg.codec, cfg.chroma, cfg.bitdepth))
    (width height : Int) (malloc : Bool) (connect : Sender.ConnectAnswers) :
    let setup := Session.start.workerSetup videoFormat width height (some cfg) malloc connect
    setup.2 = false ∧ setup.1.system = .zero ∧ setup.1.initialized = false ∧
      setup.1.fatal = .negotiationMismatch := by
  intro setup
  simp only [setup, Session.workerSetup]
  split
  · exact ⟨rfl, rfl, rfl, rfl⟩
  · rename_i negotiated known
    rw [if_pos]
    · exact ⟨rfl, rfl, rfl, rfl⟩
    · rintro rfl
      exact other known

theorem setup_succeeds (cfg : WorkerRenderConfig) {videoFormat width height : Int} {malloc : Bool}
    (known : videoFormatToStreamMetadata videoFormat = some (cfg.codec, cfg.chroma, cfg.bitdepth))
    (made : (Sender.System.zero.init
      (tcpConfig cfg videoFormat width height (cfg.codec, cfg.chroma, cfg.bitdepth)) malloc).2 = true)
    (connect : Sender.ConnectAnswers) :
    (Session.start.workerSetup videoFormat width height (some cfg) malloc connect).2 = true := by
  have sound : ¬ (!(Sender.System.zero.init (tcpConfig cfg videoFormat width height
      (cfg.codec, cfg.chroma, cfg.bitdepth)) malloc).2) = true := by
    simp [made]
  simp only [Session.workerSetup, known, ne_eq, not_true_eq_false, if_false]
  rw [if_neg]
  exact sound

/-- Without memory for the sender there is no session. -/
theorem setup_noMemory (cfg : WorkerRenderConfig) {videoFormat width height : Int} {malloc : Bool}
    (known : videoFormatToStreamMetadata videoFormat = some (cfg.codec, cfg.chroma, cfg.bitdepth))
    (unmade : (Sender.System.zero.init
      (tcpConfig cfg videoFormat width height (cfg.codec, cfg.chroma, cfg.bitdepth)) malloc).2 = false)
    (connect : Sender.ConnectAnswers) :
    let setup := Session.start.workerSetup videoFormat width height (some cfg) malloc connect
    setup.2 = false ∧ Sender.Carries [] setup.1.system ∧ setup.1.initialized = false ∧
      setup.1.fatal = .tcpConnect := by
  have failed : (!(Sender.System.zero.init (tcpConfig cfg videoFormat width height
      (cfg.codec, cfg.chroma, cfg.bitdepth)) malloc).2) = true := by
    simp [unmade]
  intro setup
  simp only [setup, Session.workerSetup, known, ne_eq, not_true_eq_false, if_false]
  rw [if_pos]
  · exact ⟨rfl, init_silent _ malloc, rfl, rfl⟩
  · exact failed

/-- The settings that come from an accepted command line are taken by the sender, if it gets its
memory. -/
theorem init_accepts {keyDir : Text} {args : List Text} {o : StreamOptions}
    (accepted : parseStreamArgs keyDir args = some o) (mask videoFormat width height : Int)
    (negotiated : UInt32 × UInt32 × UInt32) (malloc : Bool) :
    (Sender.System.zero.init
      (tcpConfig (renderConfig o mask) videoFormat width height negotiated) malloc).2 = malloc := by
  obtain ⟨valid, checked, -⟩ := parseStreamArgs_valid accepted
  have port : o.tcpPort ≠ 0 := by
    unfold StreamOptions.checked at checked
    simp only [Bool.and_eq_true, decide_eq_true_eq] at checked
    tauto
  have host : (tcpConfig (renderConfig o mask) videoFormat width height negotiated).host.headD 0 ≠ 0 := by
    simp only [tcpConfig]
    split
    · assumption
    · decide
  have named : (tcpConfig (renderConfig o mask) videoFormat width height negotiated).streamId =
      o.streamId := if_pos valid.streamId
  have bound : (tcpConfig (renderConfig o mask) videoFormat width height negotiated).port = o.tcpPort :=
    if_pos port
  unfold Sender.System.init
  rw [if_neg, if_neg]
  · cases malloc <;> rfl
  · rw [named]
    exact valid.streamId
  · rw [bound]
    simp only [port, host, decide_false, Bool.or_self, Bool.false_eq_true, not_false_eq_true]

/-- A session that was refused sends nothing and keeps the reason. -/
theorem refused_run {w : Session} (unmade : w.initialized = false) (silent : Sender.Carries [] w.system)
    (refused : w.fatal ≠ .none) (events : List Event) :
    ∃ t, w.run events = some (t, []) ∧ Sender.Carries [] t.system ∧ t.fatal = w.fatal := by
  obtain ⟨t, ran, kept, first⟩ := idle_run events unmade
  refine ⟨t, ran, ?_, first refused⟩
  rw [kept]
  exact silent

/-- A session of an accepted command line opens each connection with what was asked for. -/
theorem agreed_run {keyDir : Text} {args : List Text} {o : StreamOptions} {mask : Int}
    (accepted : parseStreamArgs keyDir args = some o) {width height : Int} {malloc : Bool}
    {connect : Sender.ConnectAnswers}
    (made : (Session.start.workerSetup mask width height (some (renderConfig o mask)) malloc
      connect).2 = true) (events : List Event) (proper : ∀ event ∈ events, event.Proper) :
    ∃ t handed log,
      (Session.start.workerSetup mask width height (some (renderConfig o mask)) malloc
        connect).1.run events = some (t, handed) ∧ Sender.Carries log t.system ∧
      ∀ fd, ∀ u ∈ (log.line fd).head?, ∃ info, u.1 =
        ⟨tcpMsgTypeStreamStart, o.streamId, Sender.System.streamInfoBytes info⟩ ∧
        (info.codec, info.chroma, info.bitdepth) = o.metadata ∧
        info.videoFormat = UInt32.ofInt mask := by
  have valid := (parseStreamArgs_valid accepted).1
  have accepts : Session.start.workerSetup mask width height (some (renderConfig o mask)) malloc
      connect = ((Session.start.workerSetup mask width height (some (renderConfig o mask)) malloc
        connect).1, true) := Prod.ext rfl made
  obtain ⟨t, handed, log, ran, relayed⟩ := session_relays accepts events proper
  refine ⟨t, handed, log, ran, relayed.carries, fun fd u first => ?_⟩
  have named : (tcpConfig (renderConfig o mask) mask width height o.metadata).streamId =
      o.streamId := if_pos valid.streamId
  have opened := relayed.opens fd u first
  refine ⟨(tcpConfig (renderConfig o mask) mask width height o.metadata).info, ?_, rfl, rfl⟩
  rw [opened, ← named]
  rfl

/-- Whatever command line is accepted and whatever format the host settles on: the worker streams
only the one it was asked for and tells that, and with any other, or without memory, it never sends
a byte. -/
theorem no_silent_downgrade {keyDir : Text} {args : List Text} {o : StreamOptions} {mask : Int}
    (accepted : parseStreamArgs keyDir args = some o)
    (asked : buildSupportedVideoFormats o = some mask) (videoFormat width height : Int)
    (malloc : Bool) (connect : Sender.ConnectAnswers) (events : List Event) :
    let setup :=
      Session.start.workerSetup videoFormat width height (some (renderConfig o mask)) malloc connect
    (setup.2 = true ↔ videoFormat = mask ∧ malloc = true) ∧
      (setup.2 = false → ∃ t, setup.1.run events = some (t, []) ∧ Sender.Carries [] t.system ∧
        t.fatal = if videoFormat = mask then .tcpConnect else .negotiationMismatch) ∧
      (setup.2 = true → (∀ event ∈ events, event.Proper) →
        ∃ t handed log, setup.1.run events = some (t, handed) ∧ Sender.Carries log t.system ∧
          ∀ fd, ∀ u ∈ (log.line fd).head?, ∃ info, u.1 =
            ⟨tcpMsgTypeStreamStart, o.streamId, Sender.System.streamInfoBytes info⟩ ∧
            (info.codec, info.chroma, info.bitdepth) = o.metadata ∧
            info.videoFormat = UInt32.ofInt mask) := by
  intro setup
  have only := asked_iff (parseStreamArgs_valid accepted).1 asked videoFormat
  by_cases same : videoFormat = mask
  · have known := only.mpr same
    have room := init_accepts accepted mask videoFormat width height o.metadata malloc
    cases made : malloc with
    | false =>
      obtain ⟨refused, silent, unmade, fatal⟩ :=
        setup_noMemory (renderConfig o mask) known (room.trans made) connect
      refine ⟨iff_of_false (by simp [setup, refused]) (by simp), fun _ => ?_, fun done => ?_⟩
      · obtain ⟨t, ran, still, kept⟩ := refused_run unmade silent (by simp [fatal]) events
        exact ⟨t, ran, still, by rw [kept, fatal, if_pos same]⟩
      · exact absurd done (by simp [setup, refused])
    | true =>
      have done : setup.2 = true :=
        setup_succeeds (renderConfig o mask) known (room.trans made) connect
      refine ⟨iff_of_true done ⟨same, rfl⟩, fun refused => ?_, fun _ proper => ?_⟩
      · exact absurd refused (by simp [done])
      · subst same
        exact agreed_run accepted done events proper
  · obtain ⟨refused, system, unmade, fatal⟩ :=
      setup_refuses (renderConfig o mask) (fun known => same (only.mp known)) width height malloc
        connect
    have silent : Sender.Carries [] setup.1.system := by
      rw [system]
      exact Sender.zero_carries
    refine ⟨iff_of_false (by simp [setup, refused]) (by simp [same]), fun _ => ?_, fun done => ?_⟩
    · obtain ⟨t, ran, still, kept⟩ := refused_run unmade silent (by simp [fatal]) events
      exact ⟨t, ran, still, by rw [kept, fatal, if_neg same]⟩
    · exact absurd done (by simp [setup, refused])

/-- The short form of the command line. -/
def plainOptions : StreamOptions :=
  {streamOptionsDefaults [] with
    host := some (ofChars "10.0.0.5".toList), app := some (ofChars "Desktop".toList)}

def plainArgs : List Text := [ofChars "10.0.0.5".toList, ofChars "Desktop".toList]

theorem plainArgs_accepted : parseStreamArgs [] plainArgs = some plainOptions := rfl

theorem plainOptions_asks :
    buildSupportedVideoFormats plainOptions = some videoFormatH265Rext8444 := rfl

/-- The session, where the host offers a format. -/
def plainSetup (videoFormat : Int) (malloc : Bool) : Session × Bool :=
  Session.start.workerSetup videoFormat 1024 768
    (some (renderConfig plainOptions videoFormatH265Rext8444)) malloc goodConnect

theorem sampleEvents_proper : ∀ event ∈ sampleEvents, event.Proper := by
  simp [sampleEvents, Event.Proper, sampleUnit_proper]

/-- The defaults ask for HEVC in 4:4:4. A host that offers it in 4:2:0 gets nothing out of the
worker, nor does one where the sender has no memory; else the units are handed on. -/
theorem no_silent_downgrade_420 :
    (∃ t, (plainSetup videoFormatH265 true).1.run sampleEvents = some (t, []) ∧
      Sender.Carries [] t.system ∧ t.fatal = .negotiationMismatch) ∧
    (∃ t, (plainSetup videoFormatH265Rext8444 false).1.run sampleEvents = some (t, []) ∧
      Sender.Carries [] t.system ∧ t.fatal = .tcpConnect) ∧
    ∃ t log, (plainSetup videoFormatH265Rext8444 true).1.run sampleEvents =
        some (t, [sampleUnit.bytes, sampleUnit.bytes]) ∧ Sender.Carries log t.system ∧
      ∀ fd, ∀ u ∈ (log.line fd).head?, ∃ info, u.1 =
        ⟨tcpMsgTypeStreamStart, 1, Sender.System.streamInfoBytes info⟩ ∧
        (info.codec, info.chroma, info.bitdepth) = plainOptions.metadata ∧
        info.videoFormat = 1024 := by
  have each (videoFormat : Int) (malloc : Bool) :=
    no_silent_downgrade plainArgs_accepted plainOptions_asks videoFormat 1024 768 malloc goodConnect
      sampleEvents
  refine ⟨?_, ?_, ?_⟩
  · obtain ⟨t, ran, silent, fatal⟩ := (each videoFormatH265 true).2.1 (by rfl)
    exact ⟨t, ran, silent, fatal⟩
  · obtain ⟨t, ran, silent, fatal⟩ := (each videoFormatH265Rext8444 false).2.1 (by rfl)
    exact ⟨t, ran, silent, fatal⟩
  · have made : (plainSetup videoFormatH265Rext8444 true).2 = true :=
      (each videoFormatH265Rext8444 true).1.mpr ⟨rfl, rfl⟩
    obtain ⟨t, handed, log, ran, carries, opens⟩ :=
      (each videoFormatH265Rext8444 true).2.2 made sampleEvents_proper
    have both : ((plainSetup videoFormatH265Rext8444 true).1.run sampleEvents).map Prod.snd =
        some [sampleUnit.bytes, sampleUnit.bytes] := by rfl
    rw [show (plainSetup videoFormatH265Rext8444 true).1.run sampleEvents = some (t, handed) from ran]
      at both
    obtain rfl : handed = [sampleUnit.bytes, sampleUnit.bytes] := Option.some.inj both
    exact ⟨t, log, ran, carries, opens⟩

end StreamRelay.Worker
