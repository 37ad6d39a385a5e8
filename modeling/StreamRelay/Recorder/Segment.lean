import StreamRelay.Recorder.AnnexB
import StreamRelay.Recorder.Mount
import StreamRelay.Recorder.Idr

/-! Segment files: their names, their opening and closing and what is written to
them. Every function works on one stream's record and returns the context after
it, with the result the source returns where there is one. -/
namespace StreamRelay.Recorder

def codecSupported (codec : UInt32) : Bool := codec = 0 || codec = 1

def codecExt (codec : UInt32) : CString :=
  if codec = 0 then "h264".toList else if codec = 1 then "hevc".toList else "bin".toList

/-- `%02u`. -/
def padded (n : Nat) : CString :=
  if n < 10 then '0' :: Nat.toDigits 10 n else Nat.toDigits 10 n

/-- strftime `%Y%m%d_%H%M%S`. -/
def segmentStamp (tm : Tm) : CString :=
  Nat.toDigits 10 (tm.year.toNat + 1900) ++ padded (tm.mon.toNat + 1) ++ padded tm.mday.toNat ++
    '_' :: padded tm.hour.toNat ++ padded tm.min.toNat ++ padded tm.sec.toNat

def paramsReady (s : RecorderStream) : Bool :=
  if s.codec = 0 then s.params 0 ≠ [] && s.params 1 ≠ []
  else if s.codec = 1 then s.params 0 ≠ [] && s.params 1 ≠ [] && s.params 2 ≠ []
  else false

def resetStreamFileState (s : RecorderStream) : RecorderStream :=
  {s with
    fp := none, tmpPath := [], finalPath := [], segmentStartWallMs := 0, segmentStartMonoNs := 0
    bytesWritten := 0, packetsWritten := 0, waitingKeyframe := true, rolloverPending := false
    lastIdrRequestNs := 0, nextPeriodicIdrNs := 0, idrRequestCount := 0}

section Write

structure Write where
  part : Part
  data : Bytes
  answer : Stdio.Answer
  deriving DecidableEq, Repr

def Ctx.fwrite (file : Nat) (c : Ctx) (write : Write) : Ctx :=
  ({c with w.store := c.w.store.write file write.data write.answer}).emit
    (.fwrite file write.part write.data write.answer)

def writeAll (part : Part) (answer : Stdio.Answer) (data : Bytes) (c : Ctx) : Ctx × Bool :=
  match c.s.fp with
  | none => (c, true)
  | some file => if data = [] then (c, true) else (c.fwrite file ⟨part, data, answer⟩, answer.ok)

def writePayloadAnnexb (answers : WriteAnswers) (data : Bytes) (c : Ctx) : Ctx × Bool :=
  if c.s.fp = none ∨ data = [] then (c, true)
  else if payloadHasStartCode data then writeAll .payload answers.payload data c
  else
    match writeAll .startCode answers.startCode startCode4 c with
    | (c, false) => (c, false)
    | (c, true) => writeAll .payload answers.payload data c

/-- The loop over the sets the codec has; an absent one is skipped. -/
def writeParamSetsFrom (answers : WriteAnswers) : List (Fin 3) → Ctx → Ctx × Bool
  | [], c => (c, true)
  | i :: rest, c =>
    if c.s.params i = [] then writeParamSetsFrom answers rest c
    else
      match writeAll .params (answers.params i) (c.s.params i) c with
      | (c, false) => (c, false)
      | (c, true) => writeParamSetsFrom answers rest c

def paramSlots (codec : UInt32) : List (Fin 3) := if codec = 1 then [0, 1, 2] else [0, 1]

def writeParamSets (answers : WriteAnswers) (c : Ctx) : Ctx × Bool :=
  if c.s.fp = none then (c, false)
  else writeParamSetsFrom answers (paramSlots c.s.codec) c

end Write

variable (cfg : Config)

def segmentDir (stream : Nat) : CString := cfg.rawDir ++ "/s".toList ++ padded stream

def segmentName (stream : Nat) (ext : CString) (wallMs : UInt64) : CString :=
  segmentDir cfg stream ++ '/' :: segmentStamp (cfg.localtime (wallMs.toNat / 1000)) ++ '.' :: ext

def tmpSuffix : CString := ".tmp".toList

def formatSegmentPaths (answers : OpenAnswers) (wallMs : UInt64) (c : Ctx) : Ctx × Bool :=
  let dir := segmentDir cfg c.s.streamId
  if pathMax ≤ dir.length then (c, false)
  else
    match mkdirP answers.mkdir dir c with
    | (c, false) => (c, false)
    | (c, true) =>
      let final := segmentName cfg c.s.streamId c.s.ext wallMs
      if pathMax ≤ final.length ∨ pathMax ≤ (final ++ tmpSuffix).length then
        ({c with s.finalPath := [], s.tmpPath := []}, false)
      else ({c with s.finalPath := final, s.tmpPath := final ++ tmpSuffix}, true)

def RecorderStream.segment (s : RecorderStream) (file : Nat) : Segment :=
  ⟨file, s.streamId, s.codec, s.segmentStartWallMs, s.tmpPath, s.finalPath⟩

/-- The rename of close_segment and what follows its result. A source that is not
there cannot be renamed. -/
def renameSegment (answers : CloseAnswers) (file : Nat) (c : Ctx) : Ctx × Bool :=
  if answers.rename ∧ (c.w.store.bytes c.s.tmpPath).isSome then
    (({c with w.store := c.w.store.rename c.s.tmpPath c.s.finalPath}).emit
      (.rename (c.s.segment file) (c.w.store.bytes c.s.tmpPath) true) |>.noteSegmentClosed, true)
  else
    (recorderRecheckMountAfterError cfg answers.mounts answers.nowNs
      (c.emit (.rename (c.s.segment file) (c.w.store.bytes c.s.tmpPath) false)).noteWriteError, false)

def unlinkSegment (answers : CloseAnswers) (file : Nat) (c : Ctx) : Ctx :=
  (if answers.unlink then {c with w.store := c.w.store.unlink c.s.tmpPath} else c).emit
    (.unlink file c.s.tmpPath)

/-- The field resets at the end of close_segment. -/
def clearSegment (c : Ctx) : Ctx :=
  {c with
    s.tmpPath := [], s.finalPath := [], s.segmentStartWallMs := 0, s.segmentStartMonoNs := 0
    s.nextPeriodicIdrNs := 0, s.bytesWritten := 0, s.packetsWritten := 0}

def Ctx.fclose (answers : CloseAnswers) (file : Nat) (finalize : Bool) (c : Ctx) : Ctx :=
  ({c with w.store := c.w.store.close file answers.fclose, s.fp := none}).emit
    (.fclose file finalize answers.fclose.ok)

def closeSegment (answers : CloseAnswers) (finalize : Bool) (c : Ctx) : Ctx × Bool :=
  match c.s.fp with
  | none => (c, true)
  | some file =>
    let closed := c.fclose answers file finalize
    if finalize ∧ c.s.tmpPath ≠ [] ∧ c.s.finalPath ≠ [] then
      let renamed := renameSegment cfg answers file closed
      (clearSegment renamed.1, answers.fclose.ok && renamed.2)
    else if !finalize ∧ c.s.tmpPath ≠ [] then
      (clearSegment (unlinkSegment answers file closed), answers.fclose.ok)
    else (clearSegment closed, answers.fclose.ok)

/-- fopen for writing: the record takes the handle. -/
def Ctx.fopen (c : Ctx) : Ctx :=
  {({c with w.store := c.w.store.create c.s.tmpPath}).emit
      (.fopen c.s.tmpPath (some c.w.store.next)) with
    s.fp := some c.w.store.next}

def Ctx.fopenFailed (c : Ctx) : Ctx := {c.emit (.fopen c.s.tmpPath none) with s.fp := none}

/-- The record of a segment that was just opened. -/
def armSegment (wallMs monoNs : UInt64) (c : Ctx) : Ctx :=
  {c with
    s.segmentStartWallMs := wallMs, s.segmentStartMonoNs := monoNs, s.bytesWritten := 0
    s.packetsWritten := 0, s.waitingKeyframe := false, s.rolloverPending := false
    s.nextPeriodicIdrNs := recorderNextPeriodicIdrNs cfg c.s monoNs, s.idrRequestCount := 0}

def openSegment (answers : OpenAnswers) (wallMs monoNs : UInt64) (c : Ctx) : Ctx × Bool :=
  match formatSegmentPaths cfg answers wallMs (c.emit (.openSegment c.s.streamId c.s.fp)) with
  | (c, false) => (recorderRecheckMountAfterError cfg answers.mounts monoNs c.noteWriteError, false)
  | (c, true) =>
    if answers.fopen then (armSegment cfg wallMs monoNs c.fopen, true)
    else (recorderRecheckMountAfterError cfg answers.mounts monoNs c.fopenFailed.noteWriteError, false)

def Ctx.notePacket (data : Bytes) (c : Ctx) : Ctx :=
  let startCode : UInt64 := if payloadHasStartCode data then 0 else 4
  {c with
    s.bytesWritten := c.s.bytesWritten + UInt64.ofNat data.length + startCode
    s.packetsWritten := c.s.packetsWritten + 1}

def writeSegmentPacket (answers : WriteAnswers) (data : Bytes) (c : Ctx) : Ctx × Bool :=
  if c.s.fp = none then (c, false)
  else
    match writePayloadAnnexb answers data c with
    | (c, false) =>
      (recorderRecheckMountAfterError cfg answers.mounts answers.nowNs c.noteWriteError, false)
    | (c, true) => (c.notePacket data, true)

end StreamRelay.Recorder
