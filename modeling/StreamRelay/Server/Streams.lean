import StreamRelay.Server.Packet

/-! The induction rule for properties of a single stream: what every operation on a
stream keeps holds of all streams in every state of the server. -/
namespace StreamRelay.Server

variable {Picture : Type*}

/-- A property kept by every operation that the server applies to a stream. -/
structure Stable (codec : Codec Picture) (P : StreamContext Picture → Prop) : Prop where
  announce : ∀ info nowNs stream, P stream →
    P (((stream.setInfo info).setState .active).resetWatchdog nowNs)
  copy : ∀ info stream, P stream →
    P {stream with info := info, infoReceived := true, state := .active}
  init : ∀ id backend answers stream, P stream → P (stream.initDecoder id backend answers).1
  close : ∀ stream, P stream → P (stream.closeDecoder.setState .idle)
  count : ∀ bytes isFrame stream, P stream → P (stream.updateStats bytes isFrame)
  decode : ∀ rounds stream, P stream → P (stream.decodeVideo codec rounds)
  request : ∀ nowNs stream, P stream → P (stream.requestIdr nowNs).1
  stall : ∀ nowNs stream, P stream → P (stream.decodeStall nowNs).1

namespace State

def All (P : StreamContext Picture → Prop) (s : State Picture) : Prop :=
  ∀ streamId, P (s.streams streamId)

variable {cfg : ServerConfig} {codec : Codec Picture} {P : StreamContext Picture → Prop}
  {s : State Picture}

theorem All.onStream (all : s.All P) (streamId : Nat) (f : StreamContext Picture → StreamContext Picture)
    (kept : P (f (s.streams streamId))) : (s.onStream streamId f).All P := by
  intro other
  by_cases same : other = streamId
  · subst same
    simpa [State.onStream] using kept
  · simpa [State.onStream, same] using all other

theorem All.initDecoder (stable : Stable codec P) (all : s.All P) (streamId : Nat)
    (backend : DecodeBackend) (answers : Nat → AttemptAnswers) :
    (s.initDecoder streamId backend answers).1.All P :=
  all.onStream streamId (fun _ => ((s.streams streamId).initDecoder s.decoders backend answers).1)
    (stable.init _ _ _ _ (all streamId))

theorem All.requestIdrForStream (stable : Stable codec P) (all : s.All P) (streamId : Nat)
    (nowNs : UInt64) (reason : IdrReason) : (s.requestIdrForStream streamId nowNs reason).All P := by
  have asked := all.onStream streamId (fun _ => ((s.streams streamId).requestIdr nowNs).1)
    (stable.request _ _ (all streamId))
  unfold State.requestIdrForStream
  dsimp only
  split <;> exact asked

theorem All.watchDecoding (stable : Stable codec P) (all : s.All P) (streamId : Nat)
    (clock : Nat → UInt64) : (s.watchDecoding streamId clock).All P := by
  have first : (s.maybeRequestIdrForNoDecode streamId (clock 0) (clock 1)).All P := by
    unfold State.maybeRequestIdrForNoDecode
    split
    · exact all.requestIdrForStream stable streamId _ _
    · exact all
  have watched := first.onStream streamId (fun _ =>
    (((s.maybeRequestIdrForNoDecode streamId (clock 0) (clock 1)).streams streamId).decodeStall
      (clock 2)).1) (stable.stall _ _ (first streamId))
  unfold State.watchDecoding State.maybeRequestIdrForDecodeStall
  dsimp only
  split
  · exact watched.requestIdrForStream stable streamId _ _
  · exact watched

theorem All.initCopies (stable : Stable codec P) (all : s.All P) (source : Nat)
    (backend : DecodeBackend) (answers : Nat → Nat → AttemptAnswers) (i count : Nat) :
    (s.initCopies cfg source backend answers i count).1.All P := by
  induction count generalizing i s with
  | zero => exact all
  | succ count ih =>
    rw [State.initCopies]
    dsimp only
    split
    · exact all
    · have copied := all.onStream (copyId source i)
        (fun stream => {stream with
          info := (s.streams source).info, infoReceived := true, state := .active})
        (stable.copy _ _ (all _))
      exact ih (copied.initDecoder stable (copyId source i) backend (answers i)) (i + 1)

theorem All.stopStressTest (stable : Stable codec P) (all : s.All P) : s.stopStressTest.All P := by
  have closed (ids : List Nat) (s : State Picture) (all : s.All P) :
      (ids.foldl (fun s streamId =>
        s.onStream streamId fun stream => stream.closeDecoder.setState .idle) s).All P := by
    induction ids generalizing s with
    | nil => exact all
    | cons streamId ids ih => exact ih _ (all.onStream streamId _ (stable.close _ (all streamId)))
  unfold State.stopStressTest
  split
  · exact closed s.stress.virtualStreamIds s all
  · exact all

theorem All.startStressTest (stable : Stable codec P) (all : s.All P) (source : Nat) (numCopies : Int)
    (backend : DecodeBackend) (malloc : Bool) (answers : Nat → Nat → AttemptAnswers) :
    (startStressTest cfg source numCopies backend malloc answers s).1.All P := by
  have stopped := all.stopStressTest stable
  unfold State.startStressTest
  split
  · exact all
  · dsimp only
    split
    · exact stopped
    · split <;> exact stopped.initCopies stable source backend answers 0 _

theorem All.maybeStartStressTest (stable : Stable codec P) (all : s.All P) (source : Nat)
    (answers : PacketAnswers) : (s.maybeStartStressTest cfg source answers).All P := by
  have enabled : State.All P {s with stressEnabled := true, stressCopies := requestedCopies cfg s} :=
    all
  have started : State.All P (State.startStressTest cfg source (requestedCopies cfg s) cfg.backend
      answers.stressMalloc answers.copies
      {s with stressEnabled := true, stressCopies := requestedCopies cfg s}).1 :=
    enabled.startStressTest stable source (requestedCopies cfg s) cfg.backend answers.stressMalloc
      answers.copies
  unfold State.maybeStartStressTest
  split
  · exact all
  · dsimp only
    split <;> exact started

theorem All.handleStreamStart (stable : Stable codec P) (all : s.All P) (streamId : Nat)
    (info : StreamInfo) (answers : PacketAnswers) :
    (s.handleStreamStart cfg streamId info answers).All P := by
  have announced := all.onStream streamId
    (fun stream => ((stream.setInfo info).setState .active).resetWatchdog (answers.clock 0))
    (stable.announce _ _ _ (all streamId))
  have made := announced.initDecoder stable streamId cfg.backend answers.attempts
  have recorded (s : State Picture) (all : s.All P) :
      (s.emit (.record (.streamStart streamId info))).All P := all
  exact ((recorded _ made).requestIdrForStream stable streamId _ _).maybeStartStressTest stable streamId
    answers

theorem All.handleVideoData (stable : Stable codec P) (all : s.All P) (streamId : Nat)
    (payload : Bytes) (answers : PacketAnswers) :
    (s.handleVideoData codec streamId payload answers).All P := by
  have counted := all.onStream streamId
    (StreamContext.updateStats (UInt64.ofNat (tcpHeaderSize + payload.length)) true)
    (stable.count _ _ _ (all streamId))
  have recorded (s : State Picture) (all : s.All P) :
      ((s.tapPayload streamId payload answers.tapStarts).emit (.record (.video streamId payload))).All P := by
    unfold State.tapPayload
    dsimp only
    split <;> exact all
  have decoded (s : State Picture) (all : s.All P) :=
    all.onStream streamId (StreamContext.decodeVideo codec answers.rounds)
      (stable.decode _ _ (all streamId))
  have watched := (decoded _ (recorded _ counted)).watchDecoding stable streamId answers.clock
  unfold State.handleVideoData
  dsimp only
  split
  · exact counted
  · split
    · unfold State.stressTestDecode
      split <;> exact watched
    · exact watched

theorem All.handlePacket (stable : Stable codec P) (all : s.All P) (packet : Packet)
    (answers : PacketAnswers) : (s.handlePacket cfg codec packet answers).All P := by
  obtain ⟨type, streamId, payload⟩ := packet
  unfold State.handlePacket
  split
  · exact all
  · cases type with
    | streamStart =>
      dsimp only
      split
      case h_1 info _ => exact all.handleStreamStart stable streamId info answers
      case h_2 => exact all
    | videoData => exact all.handleVideoData stable streamId payload answers
    | streamStop =>
      exact all.onStream streamId (fun stream => stream.closeDecoder.setState .idle)
        (stable.close _ (all streamId))
    | heartbeat => exact all.onStream streamId _ (stable.count _ _ _ (all streamId))

theorem All.stressDecodeWorker (stable : Stable codec P) (all : s.All P) (i : Nat) (malloc : Bool)
    (rounds : List ParseAnswer) : (s.stressDecodeWorker codec i malloc rounds).All P := by
  unfold State.stressDecodeWorker
  split
  case h_2 => exact all
  case h_1 streamId _ _ _ =>
    dsimp only
    split
    · exact State.All.onStream (s := {s with
        stress.queues := Function.update s.stress.queues i none}) all streamId _
        (stable.decode _ _ (all streamId))
    · exact all

end State

variable {cfg : ServerConfig} {codec : Codec Picture} {P : StreamContext Picture → Prop}

theorem Stable.step (stable : Stable codec P) {s : State Picture} (all : s.All P) (input : Input) :
    (step cfg codec s input).All P := by
  cases input with
  | packet packet answers => exact all.handlePacket stable packet answers
  | stressWorker i malloc rounds => exact all.stressDecodeWorker stable i malloc rounds

theorem Stable.run (stable : Stable codec P) (initial : ∀ streamId, P (StreamContext.init streamId))
    (inputs : List Input) : (run cfg codec inputs).All P :=
  Run.invariant (Server.step cfg codec) .init (State.All P) initial (fun _ input all => stable.step all input) inputs

end StreamRelay.Server
