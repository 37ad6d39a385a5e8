import StreamRelay.Recorder.Handover
import StreamRelay.Server.Coherence
import StreamRelay.Server.Reception

/-! From the packets that the server handles to what it records: the recorder is called for them in
their order, whatever the decoders and a stress test do. So the units of a worker reach the disk. -/
namespace StreamRelay.Server

open Recorder (Request Recording OnDisk callsFor forStream payloads)
open Worker (DecodeUnit Event tcpConfig)

def Effect.recorded : Effect → Option Request
  | .record request => some request
  | _ => none

/-- What the recorder is called with for a packet. -/
def Packet.request (packet : Packet) : Option Request :=
  match packet.type with
  | .streamStart => (protocolParseStreamInfo packet.payload).map (.streamStart packet.streamId)
  | .videoData => if packet.payload = [] then none else some (.video packet.streamId packet.payload)
  | .streamStop => some (.streamStop packet.streamId)
  | .heartbeat => none

def Input.packet? : Input → Option Packet
  | .packet given _ => some given
  | .stressWorker .. => none

namespace State

variable {Picture : Type*} (cfg : ServerConfig) (codec : Codec Picture) (s : State Picture)

def recorded : List Request := s.effects.filterMap Effect.recorded

section Effects

@[simp] theorem onStream_effects (streamId : Nat) (f : StreamContext Picture → StreamContext Picture) :
    (s.onStream streamId f).effects = s.effects := rfl

@[simp] theorem initDecoder_effects (streamId : Nat) (backend : DecodeBackend)
    (answers : Nat → AttemptAnswers) :
    (s.initDecoder streamId backend answers).1.effects = s.effects := rfl

@[simp] theorem recorded_record (request : Request) :
    (s.emit (.record request)).recorded = s.recorded ++ [request] := by
  simp [recorded, emit, Effect.recorded]

theorem recorded_effects {s s' : State Picture} (same : s'.effects = s.effects) :
    s'.recorded = s.recorded := congrArg (List.filterMap Effect.recorded) same

@[simp] theorem requestIdrForStream_recorded (streamId : Nat) (nowNs : UInt64) (reason : IdrReason) :
    (s.requestIdrForStream streamId nowNs reason).recorded = s.recorded := by
  unfold requestIdrForStream
  dsimp only
  split
  · simp [recorded, emit, Effect.recorded]
  · rfl

theorem watchDecoding_recorded (streamId : Nat) (clock : Nat → UInt64) :
    (s.watchDecoding streamId clock).recorded = s.recorded := by
  have stalled (s : State Picture) (nowNs requestNs : UInt64) :
      (s.maybeRequestIdrForDecodeStall streamId nowNs requestNs).recorded = s.recorded := by
    unfold maybeRequestIdrForDecodeStall
    dsimp only
    split
    · rw [requestIdrForStream_recorded]
      rfl
    · rfl
  rw [watchDecoding, stalled, maybeRequestIdrForNoDecode]
  split
  · exact requestIdrForStream_recorded ..
  · rfl

theorem initCopies_effects (source : Nat) (backend : DecodeBackend)
    (answers : Nat → Nat → AttemptAnswers) (i count : Nat) :
    (s.initCopies cfg source backend answers i count).1.effects = s.effects := by
  induction count generalizing s i with
  | zero => rfl
  | succ count ih =>
    unfold initCopies
    dsimp only
    split
    · rfl
    · rw [ih, initDecoder_effects, onStream_effects]

theorem foldl_onStream_effects (ids : List Nat)
    (f : StreamContext Picture → StreamContext Picture) :
    (ids.foldl (fun s streamId => s.onStream streamId f) s).effects = s.effects := by
  induction ids generalizing s with
  | nil => rfl
  | cons streamId ids ih => rw [List.foldl_cons, ih, onStream_effects]

theorem stopStressTest_effects : s.stopStressTest.effects = s.effects := by
  unfold stopStressTest
  split
  · exact foldl_onStream_effects ..
  · rfl

theorem startStressTest_effects (source : Nat) (numCopies : Int) (backend : DecodeBackend)
    (malloc : Bool) (answers : Nat → Nat → AttemptAnswers) :
    (s.startStressTest cfg source numCopies backend malloc answers).1.effects = s.effects := by
  unfold startStressTest
  split
  · rfl
  · dsimp only
    split
    · exact s.stopStressTest_effects
    · split <;> exact (initCopies_effects ..).trans s.stopStressTest_effects

theorem maybeStartStressTest_effects (source : Nat) (answers : PacketAnswers) :
    (s.maybeStartStressTest cfg source answers).effects = s.effects := by
  unfold maybeStartStressTest
  split
  · rfl
  · dsimp only
    split <;> exact startStressTest_effects ..

theorem stressTestDecode_effects (source : Nat) (data : Bytes) (malloc : Nat → Bool) :
    (s.stressTestDecode source data malloc).effects = s.effects := by
  unfold stressTestDecode
  split <;> rfl

theorem stressDecodeWorker_effects (i : Nat) (malloc : Bool) (rounds : List ParseAnswer) :
    (s.stressDecodeWorker codec i malloc rounds).effects = s.effects := by
  unfold stressDecodeWorker
  split
  · dsimp only
    split <;> rfl
  · rfl

end Effects

theorem handleStreamStart_recorded (streamId : Nat) (info : StreamInfo) (answers : PacketAnswers) :
    (s.handleStreamStart cfg streamId info answers).recorded =
      s.recorded ++ [.streamStart streamId info] := by
  rw [handleStreamStart, recorded_effects (maybeStartStressTest_effects ..),
    requestIdrForStream_recorded, recorded_record]
  rfl

theorem handleVideoData_recorded (streamId : Nat) (payload : Bytes) (answers : PacketAnswers) :
    (s.handleVideoData codec streamId payload answers).recorded =
      s.recorded ++ if payload = [] then [] else [.video streamId payload] := by
  unfold handleVideoData
  dsimp only
  split
  · exact (List.append_nil _).symm
  · have tapped (s : State Picture) :
        (s.tapPayload streamId payload answers.tapStarts).recorded = s.recorded := by
      unfold tapPayload
      dsimp only
      split
      · simp [recorded, emit, Effect.recorded]
      · rfl
    split
    all_goals
      try rw [recorded_effects (stressTestDecode_effects ..)]
      rw [watchDecoding_recorded, recorded_effects (onStream_effects ..), recorded_record, tapped]
      rfl

theorem countPacket_recorded (packet : Packet) : (s.countPacket packet).recorded = s.recorded := rfl

/-- A packet calls the recorder at most once. -/
theorem handlePacket_recorded (packet : Packet) (answers : PacketAnswers) :
    (s.handlePacket cfg codec packet answers).recorded =
      s.recorded ++ if hasStream cfg packet.streamId then packet.request.toList else [] := by
  unfold handlePacket
  by_cases served : hasStream cfg packet.streamId = true
  · rw [served, Bool.not_true, if_neg Bool.false_ne_true, if_pos rfl, countPacket_recorded,
      Packet.request]
    cases packet.type with
    | streamStart =>
      dsimp only
      cases protocolParseStreamInfo packet.payload with
      | some info => exact handleStreamStart_recorded ..
      | none => exact (List.append_nil _).symm
    | videoData =>
      refine (handleVideoData_recorded ..).trans ?_
      split <;> rfl
    | streamStop =>
      refine (recorded_effects (onStream_effects ..)).trans ?_
      exact recorded_record ..
    | heartbeat => exact (List.append_nil _).symm
  · rw [Bool.not_eq_true] at served
    simp [served]

end State

variable {Picture : Type*} (cfg : ServerConfig) (codec : Codec Picture)

/-- The calls of the recorder over a run. -/
theorem run_recorded (inputs : List Input) :
    (run cfg codec inputs).recorded =
      ((inputs.filterMap Input.packet?).filter fun packet =>
        State.hasStream cfg packet.streamId).filterMap Packet.request := by
  refine Run.history (step cfg codec) State.init (fun past s => s.recorded =
    ((past.filterMap Input.packet?).filter fun packet =>
      State.hasStream cfg packet.streamId).filterMap Packet.request) rfl ?_ inputs
  intro past input before
  rw [List.filterMap_append, List.filter_append, List.filterMap_append, ← before]
  cases input with
  | packet packet answers =>
    refine (State.handlePacket_recorded cfg codec _ packet answers).trans ?_
    congr 1
    by_cases served : State.hasStream cfg packet.streamId = true
    · cases called : packet.request <;> simp [Input.packet?, served, called]
    · simp [Input.packet?, served]
  | stressWorker i malloc rounds =>
    refine (State.recorded_effects (State.stressDecodeWorker_effects ..)).trans ?_
    exact (List.append_nil _).symm

/-- The packets of a stream, from whatever connection. -/
def packetsFor (stream : Nat) (inputs : List Input) : List Packet :=
  (inputs.filterMap Input.packet?).filter fun packet => packet.streamId = stream

theorem Packet.request_streamId {packet : Packet} {request : Request}
    (called : packet.request = some request) : request.streamId = packet.streamId := by
  unfold Packet.request at called
  split at called
  · obtain ⟨info, -, rfl⟩ := Option.map_eq_some_iff.mp called
    rfl
  · split at called
    · cases called
    · exact congrArg Request.streamId (Option.some.inj called).symm
  · exact congrArg Request.streamId (Option.some.inj called).symm
  · cases called

theorem run_recordedFor (stream : Nat) (inputs : List Input) :
    (forStream stream (run cfg codec inputs).recorded).Sublist
      ((packetsFor stream inputs).filterMap Packet.request) := by
  have same (packets : List Packet) : forStream stream (packets.filterMap Packet.request) =
      (packets.filter fun packet => packet.streamId = stream).filterMap Packet.request := by
    rw [forStream, List.filter_filterMap, List.filterMap_filter]
    refine List.filterMap_congr fun packet _ => ?_
    cases called : packet.request with
    | none => simp
    | some request => simp [Option.filter, Packet.request_streamId called]
  rw [run_recorded, same, packetsFor]
  exact (List.filter_sublist.filter _).filterMap _

def TlvPacket.packet (packet : TlvPacket) : Packet :=
  ⟨packet.type, packet.streamId.toNat, packet.payload⟩

theorem payloads_received (packets : List TlvPacket) :
    (payloads ((packets.map TlvPacket.packet).filterMap Packet.request)).Sublist
      (packetVideos packets) := by
  induction packets with
  | nil => exact List.Sublist.slnil
  | cons packet packets ih =>
    have called : payloads (((packet :: packets).map TlvPacket.packet).filterMap Packet.request) =
        (packet.packet.request.bind Request.payload).toList ++
          payloads ((packets.map TlvPacket.packet).filterMap Packet.request) := by
      cases request : packet.packet.request with
      | none => simp [request]
      | some request' => cases payload : request'.payload <;> simp [payloads, request, payload]
    have videos : packetVideos (packet :: packets) =
        (if packet.type = .videoData then [packet.payload] else []) ++ packetVideos packets := by
      by_cases video : packet.type = .videoData <;> simp [packetVideos, video]
    rw [called, videos]
    refine List.Sublist.append ?_ ih
    cases type : packet.type with
    | videoData =>
      by_cases empty : packet.payload = [] <;>
        simp [Packet.request, TlvPacket.packet, type, empty, Request.payload]
    | streamStart =>
      cases protocolParseStreamInfo packet.payload <;>
        simp [Packet.request, TlvPacket.packet, type, Request.payload]
    | streamStop | heartbeat => simp [Packet.request, TlvPacket.packet, type, Request.payload]

/-- Every STREAM_START that a worker's packets make has its metadata. -/
theorem Reaches.started {tcp : Sender.TcpSenderConfig} {units : List DecodeUnit} {t : Worker.Session}
    {handed : List Bytes} {arrives : Nat → Nat} {received : Nat → List TlvPacket}
    (reaches : Reaches tcp units t handed arrives received) {info : StreamInfo} {stream : Nat}
    (called : .streamStart stream info ∈
      (((List.range t.system.sockets).flatMap received).map TlvPacket.packet).filterMap
        Packet.request) : info = tcp.info := by
  obtain ⟨_, there, made⟩ := List.mem_filterMap.mp called
  obtain ⟨packet, member, rfl⟩ := List.mem_map.mp there
  obtain ⟨fd, -, inside⟩ := List.mem_flatMap.mp member
  have start : packet.type = .streamStart ∧ protocolParseStreamInfo packet.payload = some info := by
    cases type : packet.type with
    | streamStart =>
      simp only [Packet.request, TlvPacket.packet, type] at made
      obtain ⟨info', parsed, same⟩ := Option.map_eq_some_iff.mp made
      obtain ⟨-, rfl⟩ := Request.streamStart.inj same
      exact ⟨rfl, parsed⟩
    | videoData | streamStop | heartbeat => simp [Packet.request, TlvPacket.packet, type] at made
  cases shape : received fd with
  | nil =>
    rw [shape] at inside
    cases inside
  | cons first later =>
    rw [shape] at inside
    rcases List.mem_cons.mp inside with rfl | behind
    · have opened := (reaches.opens fd packet (by rw [shape]; rfl)).2
      exact Option.some.inj (start.2.symm.trans opened)
    · exact (reaches.once fd packet (by rw [shape]; exact behind) start.1).elim

/-- What the disk holds of a worker's stream. -/
structure Archived (stream : Nat) (codec : UInt32) (units : List Bytes)
    (log : List Recorder.Entry) (recordings : List Recording) : Prop where
  contents : (Recorder.renamesOf stream log).map Recorder.Entry.content =
    recordings.map fun recording => some recording.bytes
  negotiated : ∀ recording ∈ recordings, recording.session.codec = codec
  ready : ∀ recording ∈ recordings, recording.session.Ready
  keyframe : ∀ recording ∈ recordings, Recorder.hasKeyframe codec recording.first = true
  order : (recordings.flatMap Recording.packets).Sublist units

/-- The server gets these packets for a stream and may be anywhere with them, and so may its recorder
with the calls they make; no two of these calls overlap, and writes that succeed reach the files. -/
structure Recorded (cfg : ServerConfig) (codec : Codec Picture) (recorder : Recorder.Config)
    (queueLimitBytes : UInt64) (start : Recorder.System) (stream : Nat) (packets : List TlvPacket)
    (inputs : List Input) (actions : List Recorder.Action) : Prop where
  packets : packetsFor stream inputs <+: packets.map TlvPacket.packet
  calls : callsFor stream actions <+: forStream stream (run cfg codec inputs).recorded
  wrote : ∀ action ∈ actions, action.Wrote
  serial : Run.Always (Recorder.System.step recorder queueLimitBytes) start
    (Recorder.System.Serial stream) actions

/-- From the units that a worker is given to the finished files: as long as the packets of its
connections are handled one connection after another and the calls of the recorder that they make do
not overlap, its files hold, one behind the other, some of its units in their order, each file from a
key frame of the negotiated codec on. -/
theorem worker_reaches_disk {settings : Worker.WorkerRenderConfig} {videoFormat width height : Int}
    {malloc : Bool} {connect : Sender.ConnectAnswers} {w : Worker.Session}
    (accepted : Worker.Session.start.workerSetup videoFormat width height (some settings) malloc
      connect = (w, true)) (served : settings.streamId.toNat ≤ maxStreamsLimit)
    (events : List Event) (proper : ∀ event ∈ events, event.Proper)
    (small : ∀ unit ∈ events.filterMap Event.unit,
      tcpHeaderSize + unit.bytes.length ≤ tcpMaxPacketSize) (arrives : Nat → Nat)
    (recorder : Recorder.Config) (require : recorder.requireNfsMount = false)
    (queueLimitBytes : UInt64) (mounts : List Recorder.MntEnt) (nowNs : UInt64) :
    let tcp := tcpConfig settings videoFormat width height
      (settings.codec, settings.chroma, settings.bitdepth)
    let start := Recorder.System.start recorder mounts nowNs
    ∃ t handed received, w.run events = some (t, handed) ∧
      Reaches tcp (events.filterMap Event.unit) t handed arrives received ∧
      ∀ inputs actions, Recorded cfg codec recorder queueLimitBytes start tcp.streamId.toNat
          ((List.range t.system.sockets).flatMap received) inputs actions →
        ∃ recordings, Archived tcp.streamId.toNat settings.codec
          ((events.filterMap Event.unit).map DecodeUnit.bytes)
          (Run.run (Recorder.System.step recorder queueLimitBytes) start actions).machine.w.log
          recordings := by
  obtain ⟨t, handed, log, ran, relayed⟩ := Worker.session_relays accepted events proper
  obtain ⟨named, below⟩ := tcpConfig_stream settings videoFormat width height
    (settings.codec, settings.chroma, settings.bitdepth) (by decide) served
  obtain ⟨received, reaches⟩ := relayed_reaches relayed named below small arrives
  refine ⟨t, handed, received, ran, reaches, fun inputs actions recorded => ?_⟩
  obtain ⟨handled, called, wrote, serial⟩ := recorded
  have answered := Recorder.System.processed_answers recorder queueLimitBytes mounts nowNs actions
  obtain ⟨nodes, queue, inv⟩ :=
    (Recorder.System.inv_start recorder mounts nowNs queueLimitBytes).run recorder queueLimitBytes actions
  obtain ⟨recordings, onDisk⟩ :=
    (Recorder.System.leaves_run recorder queueLimitBytes mounts nowNs actions).onDisk inv
      (Recorder.System.ordered_run recorder queueLimitBytes mounts nowNs _ actions serial) require
      fun input member => wrote _ (answered input member)
  have calls := called.sublist.trans <| (run_recordedFor cfg codec _ inputs).trans <|
    handled.sublist.filterMap Packet.request
  have negotiated : ∀ recording ∈ recordings, recording.session.codec = settings.codec := by
    intro recording member
    obtain ⟨info, started, same⟩ := onDisk.codec recording member
    rw [same, reaches.started (calls.subset started)]
    rfl
  refine ⟨recordings, onDisk.contents, negotiated, onDisk.ready, fun recording member => ?_, ?_⟩
  · rw [← negotiated recording member]
    exact onDisk.keyframe recording member
  · exact onDisk.order.trans <| (calls.filterMap Request.payload).trans <|
      (payloads_received _).trans reaches.order

section Samples

def archiveOptions : Worker.WorkerRenderConfig := {Worker.sampleOptions with streamId := 1, codec := 0}

def archiveSetup : Worker.Session × Bool :=
  Worker.Session.start.workerSetup Worker.videoFormatH264 1920 1080 (some archiveOptions) true
    Worker.goodConnect

def archiveTcp : Sender.TcpSenderConfig :=
  tcpConfig archiveOptions Worker.videoFormatH264 1920 1080 (0, 0, 8)

def keyUnit : DecodeUnit := ⟨18, [⟨Recorder.keyPacket, 18, by decide⟩]⟩

/-- The first key frame is cut after four bytes, and the second goes out on a new connection. -/
def archiveEvents : List Event :=
  [.submit keyUnit ⟨⟨9, 1, 1, [], [], Worker.goodConnect, 9⟩, true, ⟨true, [.sent 4, .error]⟩⟩,
    .submit keyUnit
      ⟨⟨4000000000, 1, 1, [], [], Worker.goodConnect, 9⟩, true, ⟨true, [.sent 25]⟩⟩]

def startPacket : TlvPacket :=
  ⟨.streamStart, 1, Sender.System.streamInfoBytes archiveTcp.info, by decide, by decide, by decide⟩

def keyVideo : TlvPacket := ⟨.videoData, 1, Recorder.keyPacket, by decide, by decide, by decide⟩

def archiveInputs : List Input :=
  [.packet startPacket.packet (goodPacket 0), .packet startPacket.packet (goodPacket 0),
    .packet keyVideo.packet (goodPacket 0)]

def archiveActions : List Recorder.Action :=
  Recorder.callActions 0 0 1000 (.streamStart 1 archiveTcp.info) ++
    Recorder.callActions 0 1 1050 (.streamStart 1 archiveTcp.info) ++
    Recorder.callActions 0 2 1100 (.video 1 Recorder.keyPacket) ++
    [.stop, .take, .close fun _ => Recorder.goodClose]

theorem archive_written {t : Worker.Session} {handed : List Bytes}
    (ran : archiveSetup.1.run archiveEvents = some (t, handed)) :
    t.system.sockets = 2 ∧
      (t.system.links 0).written = ([startPacket, keyVideo].flatMap TlvPacket.encode).take 51 ∧
      (t.system.links 1).written = [startPacket, keyVideo].flatMap TlvPacket.encode := by
  have reached : (archiveSetup.1.run archiveEvents).map (fun reached =>
      (reached.1.system.sockets, (reached.1.system.links 0).written,
        (reached.1.system.links 1).written)) =
      some (2, ([startPacket, keyVideo].flatMap TlvPacket.encode).take 51,
        [startPacket, keyVideo].flatMap TlvPacket.encode) := by rfl
  rw [ran] at reached
  simpa using reached

/-- What the server gets for the first connection is its STREAM_START alone. -/
theorem archive_received {t : Worker.Session} {handed : List Bytes} {received : Nat → List TlvPacket}
    (ran : archiveSetup.1.run archiveEvents = some (t, handed))
    (reaches : Reaches archiveTcp [keyUnit, keyUnit] t handed (fun _ => 100) received) :
    (List.range t.system.sockets).flatMap received = [startPacket, startPacket, keyVideo] := by
  obtain ⟨sockets, first, second⟩ := archive_written ran
  have one : received 0 = [startPacket] := by
    refine (reaches.handles 0).unique ?_
    rw [first]
    exact handles_wholly [startPacket, keyVideo] 51
  have two : received 1 = [startPacket, keyVideo] := by
    refine (reaches.handles 1).unique ?_
    rw [second]
    exact handles_wholly [startPacket, keyVideo] 100
  rw [sockets]
  simp [List.range_succ, one, two]

theorem archive_wrote : ∀ action ∈ archiveActions, action.Wrote := by
  have good : ∀ part answer, Recorder.goodAnswers.write.Gives part answer → answer.Wrote := by
    intro part answer gives
    rcases gives with ⟨-, i, rfl⟩ | ⟨-, rfl | rfl⟩ <;> exact fun _ => rfl
  simpa [archiveActions, Recorder.callActions, Recorder.Action.Wrote] using good

theorem archive_single (other : Nat) (request : Request)
    (called : Recorder.Action.call other request ∈ archiveActions) : other = 0 := by
  simp only [archiveActions, Recorder.callActions, List.cons_append, List.nil_append, List.mem_cons,
    Recorder.Action.call.injEq, reduceCtorEq, List.not_mem_nil, or_false, false_or] at called
  rcases called with ⟨same, -⟩ | ⟨same, -⟩ | ⟨same, -⟩ <;> exact same

/-- The server handles the packets of both connections, and its recorder all that they call. -/
theorem archive_recorded : Recorded sampleServer (fun _ _ => ⟨1280, 720, .nv12, true, ()⟩)
    (Recorder.sampleConfig false) 1000 (Recorder.System.start (Recorder.sampleConfig false) [] 1) 1
    [startPacket, startPacket, keyVideo] archiveInputs archiveActions where
  packets := ⟨[], by rfl⟩
  calls := by
    rw [run_recorded]
    exact ⟨[], by rfl⟩
  wrote := archive_wrote
  serial := Recorder.System.serial_single _ _ _ _ 1 0 archiveActions
    fun other request called _ => archive_single other request called

set_option maxRecDepth 20000 in
/-- There is a file, of the key frame that came whole. -/
theorem worker_reaches_disk_reconnect :
    let log := (Run.run (Recorder.System.step (Recorder.sampleConfig false) 1000)
      (Recorder.System.start (Recorder.sampleConfig false) [] 1) archiveActions).machine.w.log
    (Recorder.renamesOf 1 log).length = 1 ∧ ∃ t handed received,
      archiveSetup.1.run archiveEvents = some (t, handed) ∧
      Reaches archiveTcp [keyUnit, keyUnit] t handed (fun _ => 100) received ∧
      ∃ recordings, Archived 1 0 [keyUnit.bytes, keyUnit.bytes] log recordings := by
  refine ⟨by decide, ?_⟩
  have proper : ∀ event ∈ archiveEvents, event.Proper := by
    have unit : keyUnit.Proper := ⟨by decide, by decide⟩
    simp [archiveEvents, Event.Proper, unit]
  obtain ⟨t, handed, received, ran, reaches, archived⟩ :=
    worker_reaches_disk sampleServer (fun _ _ => ⟨1280, 720, .nv12, true, ()⟩)
      (show Worker.Session.start.workerSetup Worker.videoFormatH264 1920 1080 (some archiveOptions)
        true Worker.goodConnect = (archiveSetup.1, true) from Prod.ext rfl (by decide))
      (by decide) archiveEvents proper (by decide) (fun _ => 100) (Recorder.sampleConfig false) rfl
      1000 [] 1
  refine ⟨t, handed, received, ran, reaches, archived archiveInputs archiveActions ?_⟩
  rw [show (List.range t.system.sockets).flatMap received = _ from archive_received ran reaches]
  exact archive_recorded

end Samples

end StreamRelay.Server
