import StreamRelay.Server.Bridge

/-! Requests for the latest picture. The bridge looks for the keys it needs by their
bytes, anywhere in the text of the request, and reads what follows; a frame is waited
for until the deadline, while the server goes on. -/
namespace StreamRelay.Server

section Scan

def isJsonWs (c : UInt8) : Bool := c = 0x20 || c = 0x09 || c = 0x0d || c = 0x0a

def ascii (text : List Char) : Bytes := text.map fun c => UInt8.ofNat c.toNat

/-- A key as the source writes it, in quotes. -/
def jsonKey (name : List Char) : Bytes := 0x22 :: ascii name ++ [0x22]

/-- The text from the first place of the key on. -/
def findJsonKey (key : Bytes) : Bytes → Option Bytes
  | [] => none
  | c :: rest => if key.isPrefixOf (c :: rest) then some (c :: rest) else findJsonKey key rest

def skipJsonWs (text : Bytes) : Bytes := text.dropWhile isJsonWs

def intMin : Int := -2147483648

def intMax : Int := 2147483647

/-- The loop over the digits; `any` says that there was one. -/
def readDigits (any : Bool) (v : Nat) : Bytes → Option Nat
  | [] => if any then some v else none
  | c :: rest =>
    if 0x30 ≤ c && c ≤ 0x39 then
      let v := v * 10 + (c.toNat - 0x30)
      if v > 2147483648 then none else readDigits true v rest
    else if any then some v else none

def readInt (text : Bytes) : Option Int :=
  let negative := text.head? = some 0x2d
  match readDigits false 0 (if negative then text.tail else text) with
  | none => none
  | some v =>
    let signed : Int := if negative then -v else v
    if signed < intMin || signed > intMax then none else some signed

def parseJsonIntKey (key json : Bytes) : Option Int :=
  match findJsonKey key json with
  | none => none
  | some found =>
    match skipJsonWs (found.drop key.length) with
    | 0x3a :: text => readInt (skipJsonWs text)
    | _ => none

/-- The text up to the brace that closes an object which is open `depth` times. -/
def objectInside (depth : Nat) (inString escaped : Bool) : Bytes → Option Bytes
  | [] => none
  | c :: rest =>
    if inString then
      if escaped then (objectInside depth true false rest).map (c :: ·)
      else if c = 0x5c then (objectInside depth true true rest).map (c :: ·)
      else if c = 0x22 then (objectInside depth false false rest).map (c :: ·)
      else (objectInside depth true false rest).map (c :: ·)
    else if c = 0x22 then (objectInside depth true escaped rest).map (c :: ·)
    else if c = 0x7b then (objectInside (depth + 1) false escaped rest).map (c :: ·)
    else if c = 0x7d then
      if depth = 1 then some [] else (objectInside (depth - 1) false escaped rest).map (c :: ·)
    else (objectInside depth false escaped rest).map (c :: ·)

end Scan

section Parse

structure RoiRequest where
  requested : Bool
  x : Int
  y : Int
  w : Int
  h : Int
  deriving DecidableEq, Repr

def RoiRequest.none : RoiRequest := ⟨false, 0, 0, 0, 0⟩

def streamIdKey : Bytes := jsonKey ['s', 't', 'r', 'e', 'a', 'm', '_', 'i', 'd']

def timeoutMsKey : Bytes := jsonKey ['t', 'i', 'm', 'e', 'o', 'u', 't', '_', 'm', 's']

def roiKey : Bytes := jsonKey ['r', 'o', 'i']

def parseStreamIdFromJson (json : Bytes) : Int :=
  match parseJsonIntKey streamIdKey json with
  | some v => if v > 0 then v else 1
  | none => 1

def parseTimeoutMsFromJson (json : Bytes) (defaultMs : Int) : Int :=
  (parseJsonIntKey timeoutMsKey json).getD defaultMs

def parseRoiObject (inside : Bytes) : Option RoiRequest :=
  match parseJsonIntKey (jsonKey ['x']) inside, parseJsonIntKey (jsonKey ['y']) inside with
  | some x, some y =>
    match (parseJsonIntKey (jsonKey ['w']) inside).or
        (parseJsonIntKey (jsonKey ['w', 'i', 'd', 't', 'h']) inside),
      (parseJsonIntKey (jsonKey ['h']) inside).or
        (parseJsonIntKey (jsonKey ['h', 'e', 'i', 'g', 'h', 't']) inside) with
    | some w, some h => some ⟨true, x, y, w, h⟩
    | _, _ => none
  | _, _ => none

/-- No rectangle at all is `none`, which the request is refused for. -/
def parseRoiFromJson (json : Bytes) : Option RoiRequest :=
  match findJsonKey roiKey json with
  | none => some .none
  | some found =>
    match skipJsonWs (found.drop roiKey.length) with
    | 0x3a :: text =>
      let text := skipJsonWs text
      if (ascii ['n', 'u', 'l', 'l']).isPrefixOf text then some .none
      else if text.head? = some 0x7b then (objectInside 1 false false text.tail).bind parseRoiObject
      else none
    | _ => none

inductive ReplyError where
  | badRoi
  | badStreamId
  | noFrameYet
  | roiCropFailed
  | unknownCmd
  deriving DecidableEq, Repr

/-- What a request asks for, the stream as its 16 bits. -/
structure FrameRequest where
  streamId : Nat
  timeoutMs : Int
  roi : RoiRequest
  deriving DecidableEq, Repr

def frameRequest (cfg : ServerConfig) (json : Bytes) : Except ReplyError FrameRequest :=
  match parseRoiFromJson json with
  | none => .error .badRoi
  | some roi =>
    let streamId := (parseStreamIdFromJson json).toNat % 65536
    if State.hasStream cfg streamId then .ok ⟨streamId, parseTimeoutMsFromJson json 1000, roi⟩
    else .error .badStreamId

end Parse

section Crop

variable {Picture : Type*}

structure ResolvedRoi where
  x : Int
  y : Int
  w : Int
  h : Int
  sourceWidth : Int
  sourceHeight : Int
  applied : Bool
  deriving DecidableEq, Repr

def resolveBgrRoi (frame : BgrFrame Picture) (req : RoiRequest) : Option ResolvedRoi :=
  if frame.width ≤ 0 || frame.height ≤ 0 || frame.image.stride < frame.width * 3 then none
  else if !req.requested then
    some ⟨0, 0, frame.width, frame.height, frame.width, frame.height, false⟩
  else if req.w ≤ 0 || req.h ≤ 0 then none
  else
    let x := max req.x 0
    let y := max req.y 0
    let right := min (req.x + req.w) frame.width
    let bottom := min (req.y + req.h) frame.height
    if right ≤ x || bottom ≤ y then none
    else
      some ⟨x, y, right - x, bottom - y, frame.width, frame.height,
        !(x = 0 && y = 0 && right - x = frame.width && bottom - y = frame.height)⟩

/-- The loop over the rows of the rectangle. -/
def cropRows (src : Image) (roi : ResolvedRoi) : Bytes :=
  (List.range roi.h.toNat).flatMap fun row =>
    (src.bgr.drop ((roi.y.toNat + row) * src.stride.toNat + roi.x.toNat * 3)).take (roi.w.toNat * 3)

def cropBgrFrame (alloc : Bool) (src : BgrFrame Picture) (roi : ResolvedRoi) :
    Option (BgrFrame Picture) :=
  if roi.w ≤ 0 || roi.h ≤ 0 || src.image.stride < src.width * 3 || !alloc then none
  else
    some {src with
      width := roi.w, height := roi.h, image := ⟨roi.w * 3, cropRows src.image roi⟩
      sourceWidth := roi.sourceWidth, sourceHeight := roi.sourceHeight, roiX := roi.x, roiY := roi.y}

end Crop

section Serve

/-- The picture is sent with its metadata and whether the rectangle cut anything off. -/
inductive Reply (Picture : Type*) where
  | ok
  | error (text : ReplyError)
  | image (frame : BgrFrame Picture) (roiApplied : Bool)

/-- One round of the wait: the clock, what the server does while the bridge sleeps,
and the next attempt. -/
structure Poll where
  nowNs : UInt64
  meanwhile : List Input
  answers : ConvertAnswers

structure FrameAnswers where
  first : ConvertAnswers
  nowNs : UInt64
  polls : List Poll
  cropAlloc : Bool

/-- How a wait goes; the last is a wait that the given rounds do not end. -/
inductive Wait (Picture : Type*) where
  | frame (frame : BgrFrame Picture)
  | over
  | unfinished

variable {Picture : Type*} (cfg : ServerConfig) (codec : Codec Picture) (convert : Conversion Picture)

namespace Bridge

def waitFrame (timeoutMs : Int) (deadlineNs : UInt64) (streamId : Nat) :
    List Poll → Bridge Picture → Bridge Picture × Wait Picture
  | [], b => (b, .unfinished)
  | poll :: polls, b =>
    if timeoutMs < 0 || poll.nowNs < deadlineNs then
      let slept := {b with server := Run.run (Server.step cfg codec) b.server poll.meanwhile}
      match slept.convertLastFrameToBgr cfg convert streamId poll.answers with
      | (b, some frame) => (b, .frame frame)
      | (b, none) => waitFrame timeoutMs deadlineNs streamId polls b
    else (b, .over)

def latestFrame (request : FrameRequest) (answers : FrameAnswers) (b : Bridge Picture) :
    Bridge Picture × Wait Picture :=
  match b.convertLastFrameToBgr cfg convert request.streamId answers.first with
  | (b, some frame) => (b, .frame frame)
  | (b, none) =>
    if request.timeoutMs = 0 then (b, .over)
    else
      let deadlineNs := answers.nowNs + UInt64.ofNat request.timeoutMs.toNat * 1000000
      waitFrame cfg codec convert request.timeoutMs deadlineNs request.streamId answers.polls b

def replyFrame (request : FrameRequest) (cropAlloc : Bool) (frame : BgrFrame Picture) : Reply Picture :=
  match resolveBgrRoi frame request.roi with
  | none => .error .badRoi
  | some roi =>
    if roi.applied then
      match cropBgrFrame cropAlloc frame roi with
      | none => .error .roiCropFailed
      | some cropped => .image cropped true
    else .image frame false

/-- A request is without a reply while its wait is unfinished. -/
def getLatestBgr (json : Bytes) (answers : FrameAnswers) (b : Bridge Picture) :
    Bridge Picture × Option (Reply Picture) :=
  match frameRequest cfg json with
  | .error text => (b, some (.error text))
  | .ok request =>
    let waited := b.latestFrame cfg codec convert request answers
    (waited.1,
      match waited.2 with
      | .frame frame => some (replyFrame request answers.cropAlloc frame)
      | .over => some (.error .noFrameYet)
      | .unfinished => none)

def command (cmd json : Bytes) (answers : FrameAnswers) (b : Bridge Picture) :
    Bridge Picture × Option (Reply Picture) :=
  if cmd = ascii ['P', 'I', 'N', 'G'] then (b, some .ok)
  else if cmd = ascii ['G', 'E', 'T', '_', 'L', 'A', 'T', 'E', 'S', 'T', '_', 'B', 'G', 'R'] then
    b.getLatestBgr cfg codec convert json answers
  else (b, some (.error .unknownCmd))

end Bridge

end Serve

end StreamRelay.Server
