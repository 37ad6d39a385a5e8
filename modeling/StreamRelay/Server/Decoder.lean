import StreamRelay.Protocol

/-! A stream's decoder: which backends are tried, and the loop that feeds a payload
to the codec. What the codec library answers is an input; the codec itself is a
function, from a decoder and the packet it was sent to the frame of that packet. -/
namespace StreamRelay.Server

inductive DecodeBackend where
  | auto
  | intelVa
  | nvidia
  | cpu
  deriving DecidableEq, Repr

inductive CodecId where
  | h264
  | hevc
  | av1
  deriving DecidableEq, Repr

inductive DecodeFormat where
  | none
  | nv12
  | yuv420p
  | yuv444p
  | vuyx
  | bgr24
  | bgra
  | rgb24
  deriving DecidableEq, Repr

/-- Width and height are ints with the bits of the announced words. -/
structure DecoderConfig where
  backend : DecodeBackend
  codecId : CodecId
  width : UInt32
  height : UInt32
  deriving DecidableEq, Repr

def codecIdFromStreamInfo (info : StreamInfo) : CodecId :=
  if info.codec = 1 then .hevc else if info.codec = 2 then .av1 else .h264

/-- A route rule; what it leaves open matches anything. -/
structure DecodeRouteRule where
  codec : Option UInt32
  chroma : Option UInt32
  bitdepth : Option UInt32
  backend : DecodeBackend

def decodeRouteRules : List DecodeRouteRule :=
  [⟨some 1, some 1, none, .intelVa⟩, ⟨none, none, none, .intelVa⟩]

def routeRuleMatches (rule : DecodeRouteRule) (info : StreamInfo) : Bool :=
  rule.codec.all (· = info.codec) && rule.chroma.all (· = info.chroma) &&
    rule.bitdepth.all (· = info.bitdepth)

def adjustBackendForStream (info : StreamInfo) (backend : DecodeBackend) : DecodeBackend :=
  if backend ≠ .auto then backend
  else
    match decodeRouteRules.find? fun rule => routeRuleMatches rule info with
    | some rule => rule.backend
    | none => backend

/-- A decoder; its number, which the program does not keep, tells it from others. -/
structure DecoderCtx where
  id : Nat
  config : DecoderConfig
  initialized : Bool
  ptsCounter : Nat
  deriving DecidableEq, Repr

/-- What the system answers to the creation and initialisation of one decoder. -/
structure AttemptAnswers where
  detected : DecodeBackend
  created : Bool
  device : Bool
  opened : Bool

def decoderCreate (id : Nat) (answers : AttemptAnswers) (config : DecoderConfig) : Option DecoderCtx :=
  let backend := if config.backend = .auto then answers.detected else config.backend
  if answers.created then some ⟨id, {config with backend := backend}, false, 0⟩ else none

/-- Without its device a hardware decoder goes on with the CPU. -/
def decoderInit (answers : AttemptAnswers) (ctx : DecoderCtx) : Option DecoderCtx :=
  if ctx.initialized then none
  else
    let hardware := ctx.config.backend = .intelVa || ctx.config.backend = .nvidia
    let backend := if hardware && !answers.device then .cpu else ctx.config.backend
    if answers.opened then some {ctx with config.backend := backend, initialized := true} else none

def attemptedBackends (selected : DecodeBackend) : List DecodeBackend :=
  selected :: ((if selected = .intelVa then [.nvidia] else []) ++
    if selected ≠ .cpu then [.cpu] else [])

/-- The loop of stream_init_decoder over the backends, from the `i`-th attempt on. -/
def tryBackends (id : Nat) (config : DecoderConfig) (answers : Nat → AttemptAnswers) :
    Nat → List DecodeBackend → Option DecoderCtx
  | _, [] => none
  | i, backend :: rest =>
    match (decoderCreate id (answers i) {config with backend := backend}).bind
        (decoderInit (answers i)) with
    | some ctx => some ctx
    | none => tryBackends id config answers (i + 1) rest

structure AvFrame (Picture : Type*) where
  width : Int
  height : Int
  format : DecodeFormat
  keyFrame : Bool
  picture : Picture
  deriving DecidableEq

/-- A codec gives a frame the pts of its packet. -/
abbrev Codec (Picture : Type*) := (decoder pts : Nat) → AvFrame Picture

structure DecodedFrame (Picture : Type*) where
  av : AvFrame Picture
  pts : Nat
  decoder : Nat
  deriving DecidableEq

/-- A frame the codec gives out, by its packet, and whether there is memory for it. -/
structure ReceiveAnswer where
  pts : Nat
  kept : Bool

/-- A round of the parser: it fails, takes input in, or gives a packet out. -/
inductive ParseAnswer where
  | failed
  | consumed
  | packet (sent : Bool) (received : List ReceiveAnswer)

section Decode

variable {Picture : Type*} (codec : Codec Picture)

/-- The newest frame of a call of decoder_decode, and the number of them all. -/
structure Decoding (Picture : Type*) where
  lastFrame : Option (DecodedFrame Picture)
  totalDecoded : Nat

def frameOf (decoder pts : Nat) : DecodedFrame Picture := ⟨codec decoder pts, pts, decoder⟩

/-- The frames received after a packet; a codec has frames of what it was sent. -/
def receiveFrames (ctx : DecoderCtx) (received : List ReceiveAnswer) (decoding : Decoding Picture) :
    Decoding Picture :=
  received.foldl
    (fun decoding answer =>
      if answer.pts < ctx.ptsCounter then
        ⟨if answer.kept then some (frameOf codec ctx.id answer.pts) else none,
          decoding.totalDecoded + 1⟩
      else decoding)
    decoding

def decodeRounds : List ParseAnswer → DecoderCtx → Decoding Picture → DecoderCtx × Decoding Picture
  | [], ctx, decoding => (ctx, decoding)
  | .failed :: _, ctx, decoding => (ctx, decoding)
  | .consumed :: rest, ctx, decoding => decodeRounds rest ctx decoding
  | .packet sent received :: rest, ctx, decoding =>
    let ctx := {ctx with ptsCounter := ctx.ptsCounter + 1}
    decodeRounds rest ctx (if sent then receiveFrames codec ctx received decoding else decoding)

/-- What decoder_decode returns: 0 with a frame, 1 or -1. -/
inductive DecodeReturn (Picture : Type*) where
  | frame (frame : DecodedFrame Picture)
  | needMore
  | error

def decoderDecode (rounds : List ParseAnswer) (ctx : DecoderCtx) : DecoderCtx × DecodeReturn Picture :=
  if !ctx.initialized then (ctx, .error)
  else
    let decoded := decodeRounds codec rounds ctx ⟨none, 0⟩
    (decoded.1,
      match decoded.2.lastFrame with
      | some frame => .frame frame
      | none => if decoded.2.totalDecoded = 0 then .needMore else .error)

end Decode

end StreamRelay.Server
