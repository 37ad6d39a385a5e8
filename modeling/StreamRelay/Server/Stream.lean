import StreamRelay.Server.Decoder

/-! One stream of the server: its metadata, its decoder and last frame, and the
watchdog that asks the sender for a key frame. Each function is one critical
section of the stream's lock; the times it reads are arguments. -/
namespace StreamRelay.Server

inductive StreamState where
  | idle
  | connecting
  | active
  | error
  deriving DecidableEq, Repr

structure StreamContext (Picture : Type*) where
  streamId : Nat
  state : StreamState
  info : StreamInfo
  infoReceived : Bool
  framesReceived : UInt64
  bytesReceived : UInt64
  packetsReceived : UInt64
  decoderCtx : Option DecoderCtx
  decoderInitialized : Bool
  framesDecoded : UInt64
  framesDropped : UInt64
  lastFrame : Option (DecodedFrame Picture)
  lastIdrRequestNs : UInt64
  watchdogLastReceived : UInt64
  watchdogLastDecoded : UInt64
  watchdogLastDecodedChangeNs : UInt64
  decodeStallLastIdrNs : UInt64
  decodeStallCount : UInt32

/-- Why the server asks for a key frame, with the numbers in the message. -/
inductive IdrReason where
  | streamStart
  | noDecode (framesReceived : UInt64)
  | decodeStalled (receivedDelta idleMs : UInt64) (count : UInt32)
  deriving DecidableEq, Repr

def requestIntervalNs : UInt64 := 1000000000

def stallIdleNs : UInt64 := 2000000000

namespace StreamContext

variable {Picture : Type*}

/-- A slot as stream_manager_init leaves it. -/
def init (streamId : Nat) : StreamContext Picture where
  streamId := streamId
  state := .idle
  info := .zero
  infoReceived := false
  framesReceived := 0
  bytesReceived := 0
  packetsReceived := 0
  decoderCtx := none
  decoderInitialized := false
  framesDecoded := 0
  framesDropped := 0
  lastFrame := none
  lastIdrRequestNs := 0
  watchdogLastReceived := 0
  watchdogLastDecoded := 0
  watchdogLastDecodedChangeNs := 0
  decodeStallLastIdrNs := 0
  decodeStallCount := 0

def setState (state : StreamState) (stream : StreamContext Picture) : StreamContext Picture :=
  {stream with state := state}

def setInfo (info : StreamInfo) (stream : StreamContext Picture) : StreamContext Picture :=
  {stream with info := info, infoReceived := true}

def updateStats (bytes : UInt64) (isFrame : Bool) (stream : StreamContext Picture) :
    StreamContext Picture :=
  {stream with
    packetsReceived := stream.packetsReceived + 1
    bytesReceived := stream.bytesReceived + bytes
    framesReceived := if isFrame then stream.framesReceived + 1 else stream.framesReceived}

def decoderConfig (selected : DecodeBackend) (stream : StreamContext Picture) : DecoderConfig where
  backend := selected
  codecId := codecIdFromStreamInfo stream.info
  width := stream.info.width
  height := stream.info.height

/-- Whether the stream has a decoder afterwards, which an earlier session's counts as. -/
def initDecoder (id : Nat) (backend : DecodeBackend) (answers : Nat → AttemptAnswers)
    (stream : StreamContext Picture) : StreamContext Picture × Bool :=
  if stream.decoderInitialized then (stream, true)
  else
    let selected := adjustBackendForStream stream.info backend
    match tryBackends id (stream.decoderConfig selected) answers 0 (attemptedBackends selected) with
    | none => (stream, false)
    | some ctx =>
      ({stream with
          decoderCtx := some ctx, decoderInitialized := true, framesDecoded := 0
          framesDropped := 0},
        true)

def closeDecoder (stream : StreamContext Picture) : StreamContext Picture :=
  {stream with lastFrame := none, decoderCtx := none, decoderInitialized := false}

def decodeVideo (codec : Codec Picture) (rounds : List ParseAnswer) (stream : StreamContext Picture) :
    StreamContext Picture :=
  match stream.decoderInitialized, stream.decoderCtx with
  | true, some ctx =>
    let decoded := decoderDecode codec rounds ctx
    match decoded.2 with
    | .frame frame =>
      {stream with
        decoderCtx := some decoded.1, framesDecoded := stream.framesDecoded + 1
        lastFrame := some frame}
    | .needMore => {stream with decoderCtx := some decoded.1}
    | .error =>
      {stream with decoderCtx := some decoded.1, framesDropped := stream.framesDropped + 1}
  | _, _ => stream

/-- The bookkeeping of a STREAM_START packet. -/
def resetWatchdog (nowNs : UInt64) (stream : StreamContext Picture) : StreamContext Picture :=
  {stream with
    lastIdrRequestNs := 0, watchdogLastReceived := 0, watchdogLastDecoded := 0
    watchdogLastDecodedChangeNs := nowNs, decodeStallLastIdrNs := 0, decodeStallCount := 0}

def requestDue (nowNs : UInt64) (stream : StreamContext Picture) : Bool :=
  stream.lastIdrRequestNs = 0 || nowNs - stream.lastIdrRequestNs ≥ requestIntervalNs

/-- request_idr_for_stream, with whether a request is sent. -/
def requestIdr (nowNs : UInt64) (stream : StreamContext Picture) : StreamContext Picture × Bool :=
  if stream.requestDue nowNs then ({stream with lastIdrRequestNs := nowNs}, true)
  else (stream, false)

/-- The test of maybe_request_idr_for_no_decode. -/
def noDecodeDue (nowNs : UInt64) (stream : StreamContext Picture) : Bool :=
  stream.state = .active && stream.decoderInitialized && stream.framesDecoded = 0 &&
    stream.framesReceived ≥ 30 && stream.requestDue nowNs

def watch (nowNs : UInt64) (stream : StreamContext Picture) : StreamContext Picture :=
  {stream with
    watchdogLastReceived := stream.framesReceived, watchdogLastDecoded := stream.framesDecoded
    watchdogLastDecodedChangeNs := nowNs}

def stallBackoffNs (count : UInt32) : UInt64 :=
  if count = 1 then 5000000000 else if count ≥ 2 then 10000000000 else 2000000000

/-- The locked part of maybe_request_idr_for_decode_stall, with the reason when a
request is due. -/
def decodeStall (nowNs : UInt64) (stream : StreamContext Picture) :
    StreamContext Picture × Option IdrReason :=
  if stream.state ≠ .active || !stream.decoderInitialized || stream.framesDecoded = 0 then
    (stream.watch nowNs, none)
  else if stream.watchdogLastDecodedChangeNs = 0 then (stream.watch nowNs, none)
  else if stream.framesDecoded ≠ stream.watchdogLastDecoded then
    ({stream.watch nowNs with decodeStallCount := 0}, none)
  else
    let receivedDelta := stream.framesReceived - stream.watchdogLastReceived
    let sinceChange := nowNs - stream.watchdogLastDecodedChangeNs
    let idleMs := if nowNs ≥ stream.watchdogLastDecodedChangeNs then sinceChange / 1000000 else 0
    if receivedDelta ≥ 30 && sinceChange ≥ stallIdleNs &&
        (stream.decodeStallLastIdrNs = 0 ||
          nowNs - stream.decodeStallLastIdrNs ≥ stallBackoffNs stream.decodeStallCount) then
      ({stream with
          decodeStallLastIdrNs := nowNs, decodeStallCount := stream.decodeStallCount + 1},
        some (.decodeStalled receivedDelta idleMs (stream.decodeStallCount + 1)))
    else (stream, none)

end StreamContext

end StreamRelay.Server
