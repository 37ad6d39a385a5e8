import StreamRelay.Recorder.Queue
import StreamRelay.Run
import StreamRelay.Server.Stream

/-! The server's packet handler over all streams, with the stress test that copies
one stream to others. Packets are handled one at a time, whatever connection they
come from; locks are left out. What a packet sets off elsewhere is an effect. -/
namespace StreamRelay.Server

open Recorder (Request)

inductive MessageType where
  | videoData
  | heartbeat
  | streamStart
  | streamStop
  deriving DecidableEq, Repr

/-- A packet as client_handler hands it over: its header is valid, and the length
in it counts the header and the payload. -/
structure Packet where
  type : MessageType
  streamId : Nat
  payload : Bytes
  deriving DecidableEq, Repr

/-- The environment and the command line; stressCopies is STRESS_COPIES. -/
structure ServerConfig where
  maxStreams : Nat
  runtimeMaxStreams : Nat
  backend : DecodeBackend
  stressTest : Bool
  stressCopies : Option Int

def defaultMaxStreams : Int := 20

inductive Effect where
  | requestIdr (streamId : Nat) (reason : IdrReason)
  | record (request : Request)
  | tap (streamId : Nat) (payload : Bytes)
  deriving DecidableEq

/-- The copies under test; a queue holds at most the newest payload. -/
structure StressTest where
  enabled : Bool
  sourceStreamId : Nat
  virtualStreamIds : List Nat
  queues : Nat → Option Bytes

structure State (Picture : Type*) where
  streams : Nat → StreamContext Picture
  stress : StressTest
  stressEnabled : Bool
  stressCopies : Int
  tapStarted : Bool
  totalPackets : UInt64
  totalBytes : UInt64
  decoders : Nat
  effects : List Effect

/-- What the system answers while a packet is handled. The clock's readings are
numbered in the order of their use; copies are the attempts for the streams of a
stress test. -/
structure PacketAnswers where
  clock : Nat → UInt64
  attempts : Nat → AttemptAnswers
  rounds : List ParseAnswer
  tapStarts : Bool
  stressMalloc : Bool
  copies : Nat → Nat → AttemptAnswers
  queueMalloc : Nat → Bool

namespace State

variable {Picture : Type*} (cfg : ServerConfig) (codec : Codec Picture)

def init : State Picture where
  streams := StreamContext.init
  stress := ⟨false, 0, [], fun _ => none⟩
  stressEnabled := false
  stressCopies := defaultMaxStreams
  tapStarted := false
  totalPackets := 0
  totalBytes := 0
  decoders := 0
  effects := []

def onStream (streamId : Nat) (f : StreamContext Picture → StreamContext Picture)
    (s : State Picture) : State Picture :=
  {s with streams := Function.update s.streams streamId (f (s.streams streamId))}

def emit (effect : Effect) (s : State Picture) : State Picture :=
  {s with effects := s.effects ++ [effect]}

/-- The bounds in stream_manager_get. -/
def hasStream (streamId : Nat) : Bool := 1 ≤ streamId && streamId ≤ cfg.maxStreams

def initDecoder (streamId : Nat) (backend : DecodeBackend) (answers : Nat → AttemptAnswers)
    (s : State Picture) : State Picture × Bool :=
  let made := (s.streams streamId).initDecoder s.decoders backend answers
  ({s.onStream streamId fun _ => made.1 with decoders := s.decoders + 1}, made.2)

def requestIdrForStream (streamId : Nat) (nowNs : UInt64) (reason : IdrReason) (s : State Picture) :
    State Picture :=
  let asked := (s.streams streamId).requestIdr nowNs
  let s := s.onStream streamId fun _ => asked.1
  if asked.2 then s.emit (.requestIdr streamId reason) else s

def maybeRequestIdrForNoDecode (streamId : Nat) (nowNs requestNs : UInt64) (s : State Picture) :
    State Picture :=
  if (s.streams streamId).noDecodeDue nowNs then
    s.requestIdrForStream streamId requestNs (.noDecode (s.streams streamId).framesReceived)
  else s

def maybeRequestIdrForDecodeStall (streamId : Nat) (nowNs requestNs : UInt64) (s : State Picture) :
    State Picture :=
  let watched := (s.streams streamId).decodeStall nowNs
  let s := s.onStream streamId fun _ => watched.1
  match watched.2 with
  | some reason => s.requestIdrForStream streamId requestNs reason
  | none => s

section Stress

/-- The stream of the `i`-th copy, past the source. -/
def copyId (source i : Nat) : Nat := if i + 1 ≥ source then i + 2 else i + 1

/-- The loop of stream_manager_start_stress_test over `count` copies from the `i`-th
on, with the streams that got a decoder. -/
def initCopies (source : Nat) (backend : DecodeBackend) (answers : Nat → Nat → AttemptAnswers) :
    (i count : Nat) → State Picture → State Picture × List Nat
  | _, 0, s => (s, [])
  | i, count + 1, s =>
    let streamId := copyId source i
    if streamId > cfg.maxStreams then (s, [])
    else
      let copied := s.onStream streamId fun stream =>
        {stream with info := (s.streams source).info, infoReceived := true, state := .active}
      let made := copied.initDecoder streamId backend (answers i)
      let rest := initCopies source backend answers (i + 1) count made.1
      (rest.1, if made.2 then streamId :: rest.2 else rest.2)

def stopStressTest (s : State Picture) : State Picture :=
  if s.stress.enabled then
    let closed := s.stress.virtualStreamIds.foldl
      (fun s streamId => s.onStream streamId fun stream => stream.closeDecoder.setState .idle) s
    {closed with stress.enabled := false, stress.virtualStreamIds := []}
  else s

def startStressTest (source : Nat) (numCopies : Int) (backend : DecodeBackend) (malloc : Bool)
    (answers : Nat → Nat → AttemptAnswers) (s : State Picture) : State Picture × Bool :=
  if numCopies < 1 || numCopies > cfg.maxStreams then (s, false)
  else
    let s := s.stopStressTest
    if !hasStream cfg source || !(s.streams source).infoReceived || !malloc then (s, false)
    else
      let copied := s.initCopies cfg source backend answers 0 numCopies.toNat
      if copied.2 = [] then (copied.1, false)
      else ({copied.1 with stress := ⟨true, source, copied.2, fun _ => none⟩}, true)

/-- The number of copies that STRESS_COPIES asks for. -/
def requestedCopies (s : State Picture) : Int :=
  match cfg.stressCopies with
  | none => s.stressCopies
  | some copies =>
    let copies := if copies < 1 then defaultMaxStreams else copies
    if copies > cfg.runtimeMaxStreams then cfg.runtimeMaxStreams else copies

/-- The part of STREAM_START that may start the stress test. -/
def maybeStartStressTest (source : Nat) (answers : PacketAnswers) (s : State Picture) :
    State Picture :=
  if s.stressEnabled || !cfg.stressTest then s
  else
    let copies := requestedCopies cfg s
    let started := startStressTest cfg source copies cfg.backend answers.stressMalloc answers.copies
      {s with stressEnabled := true, stressCopies := copies}
    if started.2 then started.1 else {started.1 with stressEnabled := false}

def stressTestDecode (source : Nat) (data : Bytes) (malloc : Nat → Bool) (s : State Picture) :
    State Picture :=
  if !s.stress.enabled || source ≠ s.stress.sourceStreamId then s
  else
    {s with stress.queues := fun i =>
      if i < s.stress.virtualStreamIds.length && (data.length ≤ 256 * 1024 || malloc i) then some data
      else s.stress.queues i}

/-- One round of the thread that decodes for the `i`-th copy. -/
def stressDecodeWorker (i : Nat) (malloc : Bool) (rounds : List ParseAnswer) (s : State Picture) :
    State Picture :=
  match s.stress.enabled, s.stress.queues i, s.stress.virtualStreamIds[i]? with
  | true, some _, some streamId =>
    let taken := {s with stress.queues := Function.update s.stress.queues i none}
    if malloc then taken.onStream streamId (StreamContext.decodeVideo codec rounds) else taken
  | _, _, _ => s

end Stress

section Packets

def handleStreamStart (streamId : Nat) (info : StreamInfo) (answers : PacketAnswers)
    (s : State Picture) : State Picture :=
  let s := s.onStream streamId fun stream =>
    ((stream.setInfo info).setState .active).resetWatchdog (answers.clock 0)
  let s := (s.initDecoder streamId cfg.backend answers.attempts).1
  let s := s.emit (.record (.streamStart streamId info))
  let s := s.requestIdrForStream streamId (answers.clock 1) .streamStart
  s.maybeStartStressTest cfg streamId answers

/-- The side output of compressed payloads, which is started when it first can be. -/
def tapPayload (streamId : Nat) (payload : Bytes) (starts : Bool) (s : State Picture) :
    State Picture :=
  let s := {s with tapStarted := s.tapStarted || starts}
  if s.tapStarted then s.emit (.tap streamId payload) else s

def watchDecoding (streamId : Nat) (clock : Nat → UInt64) (s : State Picture) : State Picture :=
  (s.maybeRequestIdrForNoDecode streamId (clock 0) (clock 1)).maybeRequestIdrForDecodeStall streamId
    (clock 2) (clock 3)

def handleVideoData (streamId : Nat) (payload : Bytes) (answers : PacketAnswers)
    (s : State Picture) : State Picture :=
  let s := s.onStream streamId
    (StreamContext.updateStats (UInt64.ofNat (tcpHeaderSize + payload.length)) true)
  if payload = [] then s
  else
    let s := (s.tapPayload streamId payload answers.tapStarts).emit (.record (.video streamId payload))
    let s := s.onStream streamId (StreamContext.decodeVideo codec answers.rounds)
    let s := s.watchDecoding streamId answers.clock
    if s.stressEnabled then s.stressTestDecode streamId payload answers.queueMalloc else s

def handleStreamStop (streamId : Nat) (s : State Picture) : State Picture :=
  (s.emit (.record (.streamStop streamId))).onStream streamId fun stream =>
    stream.closeDecoder.setState .idle

def countPacket (packet : Packet) (s : State Picture) : State Picture :=
  {s with
    totalPackets := s.totalPackets + 1
    totalBytes := s.totalBytes + UInt64.ofNat (tcpHeaderSize + packet.payload.length)}

def handlePacket (packet : Packet) (answers : PacketAnswers) (s : State Picture) : State Picture :=
  if !hasStream cfg packet.streamId then s
  else
    countPacket packet
      (match packet.type with
      | .streamStart =>
        match protocolParseStreamInfo packet.payload with
        | some info => s.handleStreamStart cfg packet.streamId info answers
        | none => s
      | .videoData => s.handleVideoData codec packet.streamId packet.payload answers
      | .streamStop => s.handleStreamStop packet.streamId
      | .heartbeat =>
        s.onStream packet.streamId
          (StreamContext.updateStats (UInt64.ofNat (tcpHeaderSize + packet.payload.length)) false))

end Packets

end State

/-- A packet, or a round of one of the stress test's threads. -/
inductive Input where
  | packet (packet : Packet) (answers : PacketAnswers)
  | stressWorker (i : Nat) (malloc : Bool) (rounds : List ParseAnswer)

variable {Picture : Type*} (cfg : ServerConfig) (codec : Codec Picture)

def step (s : State Picture) : Input → State Picture
  | .packet packet answers => s.handlePacket cfg codec packet answers
  | .stressWorker i malloc rounds => s.stressDecodeWorker codec i malloc rounds

def run (inputs : List Input) : State Picture := Run.run (step cfg codec) .init inputs

end StreamRelay.Server
