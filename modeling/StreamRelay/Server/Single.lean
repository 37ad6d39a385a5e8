import StreamRelay.Server.Packet

/-! What a packet does to its own stream. Without a stress test the streams of the server
are independent: a packet changes the stream it names, as these functions say, and no other. -/
namespace StreamRelay.Server

variable {Picture : Type*}

namespace StreamContext

variable (cfg : ServerConfig) (codec : Codec Picture)

/-- The stream of a VIDEO packet with a payload, when the stall test is reached. -/
def beforeStall (payload : Bytes) (answers : PacketAnswers) (stream : StreamContext Picture) :
    StreamContext Picture :=
  let stream := stream.updateStats (UInt64.ofNat (tcpHeaderSize + payload.length)) true
  let stream := stream.decodeVideo codec answers.rounds
  if stream.noDecodeDue (answers.clock 0) then (stream.requestIdr (answers.clock 1)).1 else stream

def afterStall (answers : PacketAnswers) (stream : StreamContext Picture) : StreamContext Picture :=
  let watched := stream.decodeStall (answers.clock 2)
  if watched.2.isSome then (watched.1.requestIdr (answers.clock 3)).1 else watched.1

def handleVideoData (payload : Bytes) (answers : PacketAnswers) (stream : StreamContext Picture) :
    StreamContext Picture :=
  if payload = [] then stream.updateStats (UInt64.ofNat (tcpHeaderSize + payload.length)) true
  else (stream.beforeStall codec payload answers).afterStall answers

/-- The decoder that is opened, if one is, has the number `id`. -/
def handleStreamStart (id : Nat) (info : StreamInfo) (answers : PacketAnswers)
    (stream : StreamContext Picture) : StreamContext Picture :=
  let stream := ((stream.setInfo info).setState .active).resetWatchdog (answers.clock 0)
  ((stream.initDecoder id cfg.backend answers.attempts).1.requestIdr (answers.clock 1)).1

def handlePacket (id : Nat) (packet : Packet) (answers : PacketAnswers)
    (stream : StreamContext Picture) : StreamContext Picture :=
  match packet.type with
  | .streamStart =>
    match protocolParseStreamInfo packet.payload with
    | some info => stream.handleStreamStart cfg id info answers
    | none => stream
  | .videoData => stream.handleVideoData codec packet.payload answers
  | .streamStop => stream.closeDecoder.setState .idle
  | .heartbeat => stream.updateStats (UInt64.ofNat (tcpHeaderSize + packet.payload.length)) false

end StreamContext

namespace State

variable {cfg : ServerConfig} {codec : Codec Picture} {s : State Picture}

/-- No stress test runs. -/
structure Calm (s : State Picture) : Prop where
  enabled : s.stressEnabled = false
  test : s.stress.enabled = false

theorem onStream_streams (streamId : Nat) (f : StreamContext Picture → StreamContext Picture) :
    (s.onStream streamId f).streams = Function.update s.streams streamId (f (s.streams streamId)) :=
  rfl

theorem requestIdrForStream_streams (streamId : Nat) (nowNs : UInt64) (reason : IdrReason) :
    (s.requestIdrForStream streamId nowNs reason).streams =
      Function.update s.streams streamId ((s.streams streamId).requestIdr nowNs).1 := by
  simp only [requestIdrForStream]
  split <;> rfl

theorem maybeRequestIdrForNoDecode_streams (streamId : Nat) (nowNs requestNs : UInt64) :
    (s.maybeRequestIdrForNoDecode streamId nowNs requestNs).streams =
      Function.update s.streams streamId
        (if (s.streams streamId).noDecodeDue nowNs then ((s.streams streamId).requestIdr requestNs).1
          else s.streams streamId) := by
  simp only [maybeRequestIdrForNoDecode]
  split
  · exact requestIdrForStream_streams streamId requestNs _
  · exact (Function.update_eq_self streamId s.streams).symm

theorem maybeRequestIdrForDecodeStall_streams (streamId : Nat) (answers : PacketAnswers) :
    (s.maybeRequestIdrForDecodeStall streamId (answers.clock 2) (answers.clock 3)).streams =
      Function.update s.streams streamId ((s.streams streamId).afterStall answers) := by
  simp only [maybeRequestIdrForDecodeStall, StreamContext.afterStall]
  cases due : ((s.streams streamId).decodeStall (answers.clock 2)).2 with
  | none => rfl
  | some reason =>
    rw [requestIdrForStream_streams, onStream_streams]
    simp

theorem watchDecoding_streams (streamId : Nat) (answers : PacketAnswers) :
    (s.watchDecoding streamId answers.clock).streams =
      Function.update s.streams streamId
        ((if (s.streams streamId).noDecodeDue (answers.clock 0) then
            ((s.streams streamId).requestIdr (answers.clock 1)).1
          else s.streams streamId).afterStall answers) := by
  rw [watchDecoding, maybeRequestIdrForDecodeStall_streams, maybeRequestIdrForNoDecode_streams]
  simp

theorem Calm.requestIdrForStream (calm : s.Calm) (streamId : Nat) (nowNs : UInt64)
    (reason : IdrReason) : (s.requestIdrForStream streamId nowNs reason).Calm := by
  simp only [State.requestIdrForStream]
  split <;> exact ⟨calm.enabled, calm.test⟩

theorem Calm.watchDecoding (calm : s.Calm) (streamId : Nat) (clock : Nat → UInt64) :
    (s.watchDecoding streamId clock).Calm := by
  have first : (s.maybeRequestIdrForNoDecode streamId (clock 0) (clock 1)).Calm := by
    simp only [State.maybeRequestIdrForNoDecode]
    split
    · exact calm.requestIdrForStream streamId _ _
    · exact calm
  simp only [State.watchDecoding, State.maybeRequestIdrForDecodeStall]
  split
  · apply Calm.requestIdrForStream
    exact ⟨first.enabled, first.test⟩
  · exact ⟨first.enabled, first.test⟩

theorem Calm.handleStreamStart (calm : s.Calm) (untested : cfg.stressTest = false) (streamId : Nat)
    (info : StreamInfo) (answers : PacketAnswers) :
    (s.handleStreamStart cfg streamId info answers).Calm ∧
      (s.handleStreamStart cfg streamId info answers).streams = Function.update s.streams streamId
        ((s.streams streamId).handleStreamStart cfg s.decoders info answers) := by
  simp only [State.handleStreamStart, State.maybeStartStressTest, untested, Bool.not_false,
    Bool.or_true, if_true]
  constructor
  · apply Calm.requestIdrForStream
    exact ⟨calm.enabled, calm.test⟩
  · rw [requestIdrForStream_streams]
    simp [State.emit, State.initDecoder, StreamContext.handleStreamStart, State.onStream]

theorem Calm.handleVideoData (calm : s.Calm) (streamId : Nat) (payload : Bytes)
    (answers : PacketAnswers) :
    (s.handleVideoData codec streamId payload answers).Calm ∧
      (s.handleVideoData codec streamId payload answers).streams = Function.update s.streams streamId
        ((s.streams streamId).handleVideoData codec payload answers) := by
  have counted : (s.onStream streamId
      (StreamContext.updateStats (UInt64.ofNat (tcpHeaderSize + payload.length)) true)).Calm :=
    ⟨calm.enabled, calm.test⟩
  by_cases empty : payload = []
  · simp only [State.handleVideoData, StreamContext.handleVideoData, if_pos empty]
    exact ⟨counted, rfl⟩
  · have tapped (s : State Picture) (calm : s.Calm) : (s.tapPayload streamId payload answers.tapStarts).Calm ∧
        (s.tapPayload streamId payload answers.tapStarts).streams = s.streams := by
      simp only [State.tapPayload]
      split <;> exact ⟨⟨calm.enabled, calm.test⟩, rfl⟩
    obtain ⟨recorded, same⟩ := tapped _ counted
    have decoded : ((((s.onStream streamId
        (StreamContext.updateStats (UInt64.ofNat (tcpHeaderSize + payload.length)) true)).tapPayload
        streamId payload answers.tapStarts).emit (.record (.video streamId payload))).onStream streamId
        (StreamContext.decodeVideo codec answers.rounds)).Calm := ⟨recorded.enabled, recorded.test⟩
    have watched := decoded.watchDecoding streamId answers.clock
    simp only [State.handleVideoData, StreamContext.handleVideoData, if_neg empty]
    rw [if_neg (by rw [watched.enabled]; exact Bool.false_ne_true)]
    refine ⟨watched, ?_⟩
    rw [watchDecoding_streams, onStream_streams]
    simp only [State.emit, same, onStream_streams, Function.update_self, Function.update_idem,
      StreamContext.beforeStall]

variable (codec) in
/-- A packet changes its own stream as its functions say, and no other. -/
theorem Calm.handlePacket (calm : s.Calm) (untested : cfg.stressTest = false) (packet : Packet)
    (answers : PacketAnswers) :
    (s.handlePacket cfg codec packet answers).Calm ∧
      (s.handlePacket cfg codec packet answers).streams =
        if hasStream cfg packet.streamId then Function.update s.streams packet.streamId
          ((s.streams packet.streamId).handlePacket cfg codec s.decoders packet answers)
        else s.streams := by
  obtain ⟨type, streamId, payload⟩ := packet
  cases known : hasStream cfg streamId with
  | false => simp [State.handlePacket, known, calm]
  | true =>
    have keep (t : State Picture) (stream : StreamContext Picture)
        (handled : t.Calm ∧ t.streams = Function.update s.streams streamId stream) :
        (countPacket ⟨type, streamId, payload⟩ t).Calm ∧
          (countPacket ⟨type, streamId, payload⟩ t).streams =
            Function.update s.streams streamId stream :=
      ⟨⟨handled.1.enabled, handled.1.test⟩, handled.2⟩
    simp only [State.handlePacket, known, Bool.not_true, Bool.false_eq_true, if_false, if_true]
    cases type with
    | streamStart =>
      apply keep
      simp only [StreamContext.handlePacket]
      cases protocolParseStreamInfo payload with
      | none => exact ⟨calm, (Function.update_eq_self streamId s.streams).symm⟩
      | some info => exact calm.handleStreamStart untested streamId info answers
    | videoData => exact keep _ _ (calm.handleVideoData streamId payload answers)
    | streamStop => exact keep _ _ ⟨⟨calm.enabled, calm.test⟩, rfl⟩
    | heartbeat => exact keep _ _ ⟨⟨calm.enabled, calm.test⟩, rfl⟩

theorem Calm.stressDecodeWorker (calm : s.Calm) (i : Nat) (malloc : Bool) (rounds : List ParseAnswer) :
    s.stressDecodeWorker codec i malloc rounds = s := by
  simp [State.stressDecodeWorker, calm.test]

end State

theorem run_calm {cfg : ServerConfig} (codec : Codec Picture) (untested : cfg.stressTest = false)
    (inputs : List Input) : (run cfg codec inputs).Calm := by
  apply Run.invariant (step cfg codec) .init State.Calm ⟨rfl, rfl⟩
  intro s input calm
  cases input with
  | packet packet answers => exact (calm.handlePacket codec untested packet answers).1
  | stressWorker i malloc rounds =>
    rw [step, calm.stressDecodeWorker]
    exact calm

end StreamRelay.Server
