import StreamRelay.Server.Packet

/-! The bridge that serves a stream's last frame as a BGR image, with a cache of one
image for each stream. The conversion reads the frame and two words of the stream's
metadata; it is a parameter. -/
namespace StreamRelay.Server

/-- Rows of `stride` bytes. -/
structure Image where
  stride : Int
  bgr : Bytes
  deriving DecidableEq, Repr

abbrev Conversion (Picture : Type*) := AvFrame Picture → (colorSpace colorRange : UInt32) → Image

/-- An image with what it was made from, which the program does not keep. -/
structure BgrFrame (Picture : Type*) where
  streamId : Nat
  width : Int
  height : Int
  image : Image
  sourceWidth : Int
  sourceHeight : Int
  roiX : Int
  roiY : Int
  pts : Nat
  keyFrame : Bool
  monoNs : UInt64
  colorSpace : UInt32
  colorRange : UInt32
  sourceFormat : DecodeFormat
  source : DecodedFrame Picture
  deriving DecidableEq

/-- Whether there is memory to refer to the frame, to convert it and to reply. -/
structure ConvertAnswers where
  refOk : Bool
  convertOk : Bool
  allocOk : Bool
  monoNs : UInt64

structure Bridge (Picture : Type*) where
  server : State Picture
  cache : Nat → Option (BgrFrame Picture)

namespace Bridge

variable {Picture : Type*} (cfg : ServerConfig) (codec : Codec Picture) (convert : Conversion Picture)

def start : Bridge Picture := ⟨.init, fun _ => none⟩

def cachedBgrFrameMatches (frame : BgrFrame Picture) (streamId : Nat) (snapshot : DecodedFrame Picture)
    (info : StreamInfo) : Bool :=
  frame.streamId = streamId && frame.width = snapshot.av.width && frame.height = snapshot.av.height &&
    frame.pts = snapshot.pts && frame.keyFrame = snapshot.av.keyFrame &&
    frame.colorSpace = info.colorSpace && frame.colorRange = info.colorRange &&
    frame.sourceFormat = snapshot.av.format

def bgrFrame (streamId : Nat) (snapshot : DecodedFrame Picture) (info : StreamInfo)
    (monoNs : UInt64) : BgrFrame Picture where
  streamId := streamId
  width := snapshot.av.width
  height := snapshot.av.height
  image := convert snapshot.av info.colorSpace info.colorRange
  sourceWidth := snapshot.av.width
  sourceHeight := snapshot.av.height
  roiX := 0
  roiY := 0
  pts := snapshot.pts
  keyFrame := snapshot.av.keyFrame
  monoNs := monoNs
  colorSpace := info.colorSpace
  colorRange := info.colorRange
  sourceFormat := snapshot.av.format
  source := snapshot

/-- The cache has an entry for each stream the manager can have, and one for 0. -/
def cacheCount : Nat := cfg.maxStreams + 1

/-- The cached image that convert_last_frame_to_bgr gives out. -/
def cacheHit (streamId : Nat) (snapshot : DecodedFrame Picture) (b : Bridge Picture) :
    Option (BgrFrame Picture) :=
  if streamId < cacheCount cfg then
    (b.cache streamId).filter fun cached =>
      cachedBgrFrameMatches cached streamId snapshot (b.server.streams streamId).info
  else none

/-- The frame that is converted, once there is one of some size. -/
def snapshot (streamId : Nat) (answers : ConvertAnswers) (b : Bridge Picture) :
    Option (DecodedFrame Picture) :=
  (b.server.streams streamId).lastFrame.filter fun frame =>
    0 < frame.av.width && 0 < frame.av.height && answers.refOk

def convertLastFrameToBgr (streamId : Nat) (answers : ConvertAnswers) (b : Bridge Picture) :
    Bridge Picture × Option (BgrFrame Picture) :=
  match b.snapshot streamId answers with
  | none => (b, none)
  | some snapshot =>
    match b.cacheHit cfg streamId snapshot with
    | some cached => (b, some cached)
    | none =>
      if !answers.convertOk || !answers.allocOk then (b, none)
      else
        let frame := bgrFrame convert streamId snapshot (b.server.streams streamId).info answers.monoNs
        (if streamId < cacheCount cfg then {b with cache := Function.update b.cache streamId (some frame)}
          else b,
          some frame)

/-- What reaches the server, or a request for a stream's last frame. -/
inductive Input where
  | server (input : Server.Input)
  | convert (streamId : Nat) (answers : ConvertAnswers)

def step (b : Bridge Picture) : Input → Bridge Picture
  | .server input => {b with server := Server.step cfg codec b.server input}
  | .convert streamId answers =>
    if State.hasStream cfg streamId then (b.convertLastFrameToBgr cfg convert streamId answers).1 else b

def run (inputs : List Input) : Bridge Picture := Run.run (step cfg codec convert) start inputs

end Bridge

end StreamRelay.Server
