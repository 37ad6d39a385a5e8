import StreamRelay.Run
import StreamRelay.Recorder.Segment

/-! The event loop of the recorder thread: one function for each event kind, the
step over events and the closing of all streams when the loop ends. -/
namespace StreamRelay.Recorder

variable (cfg : Config)

def armedStream (ev : RecorderEvent) : RecorderStream :=
  resetStreamFileState {RecorderStream.zero with
    streamId := ev.streamId
    enabled := cfg.enabledStreams ev.streamId
    codec := ev.info.codec
    ext := codecExt ev.info.codec}

def processStreamStart (ev : RecorderEvent) (answers : Answers) (c : Ctx) : Ctx :=
  let c := (closeSegment cfg answers.finish true c).1
  let c := {c with s := armedStream cfg ev}
  if !c.s.enabled then c
  else if !codecSupported c.s.codec then {c with s.enabled := false}
  else recorderRequestIdr cfg .recordStart ev.monoNs true {c with s.active := true}

def processStreamStop (ev : RecorderEvent) (answers : Answers) (c : Ctx) : Ctx :=
  let c := (closeSegment cfg answers.finish true c).1
  {c with s := {RecorderStream.zero with streamId := ev.streamId}}

def shouldRollover (s : RecorderStream) (wallMs : UInt64) : Bool :=
  if s.fp = none ∨ cfg.segmentSec = 0 ∨ s.segmentStartWallMs = 0 then false
  else wallMs - s.segmentStartWallMs ≥ cfg.segmentSec.toUInt64 * 1000

def discardSegment (answers : Answers) (c : Ctx) : Ctx :=
  let c := (closeSegment cfg answers.discard false c).1
  {c with s.waitingKeyframe := true}

/-- The parameter sets and the packet that begin a segment, which is discarded
when one of them cannot be written. -/
def beginSegment (ev : RecorderEvent) (answers : Answers) (c : Ctx) : Ctx :=
  let sets := writeParamSets answers.write c
  if sets.2 then
    let packet := writeSegmentPacket cfg answers.write ev.data sets.1
    if packet.2 then packet.1 else discardSegment cfg answers packet.1
  else discardSegment cfg answers sets.1

/-- A segment opened while the stream waits for a key frame. -/
def videoBegin (ev : RecorderEvent) (answers : Answers) (c : Ctx) : Ctx :=
  let opened := openSegment cfg answers.open_ ev.wallMs ev.monoNs c
  if opened.2 then beginSegment cfg ev answers opened.1 else opened.1

/-- The branch of process_video for `s->waiting_keyframe`. -/
def videoWaiting (ev : RecorderEvent) (answers : Answers) (keyframe ready : Bool) (c : Ctx) : Ctx :=
  if !keyframe || !ready then
    recorderRequestIdr cfg (if ready then .recordWaitKeyframe else .recordWaitParams) ev.monoNs
      false c
  else videoBegin cfg ev answers c

/-- The rollover of process_video once the key frame for it is there. -/
def videoRollover (ev : RecorderEvent) (answers : Answers) (c : Ctx) : Ctx :=
  let closed := (closeSegment cfg answers.finish true c).1
  let opened := openSegment cfg answers.open_ ev.wallMs ev.monoNs closed
  if opened.2 then beginSegment cfg ev answers opened.1
  else {opened.1 with s.waitingKeyframe := true}

/-- The decision that a rollover is due. -/
def videoMark (ev : RecorderEvent) (keyframe ready : Bool) (c : Ctx) : Ctx :=
  if !c.s.rolloverPending && shouldRollover cfg c.s ev.wallMs then
    let c := {c with s.rolloverPending := true}
    if (!keyframe || !ready) && !recorderIdrRequestRecent c.s ev.monoNs periodicIdrMinGapNs then
      recorderRequestIdr cfg .recordRollover ev.monoNs true c
    else c
  else c

/-- The end of process_video: the packet goes to the segment that is open. -/
def videoAppend (ev : RecorderEvent) (answers : Answers) (c : Ctx) : Ctx :=
  if c.s.fp = none then c
  else
    let packet := writeSegmentPacket cfg answers.write ev.data c
    if packet.2 then packet.1
    else recorderRequestIdr cfg .recordWriteError ev.monoNs true (discardSegment cfg answers packet.1)

/-- The request repeated while a rollover waits for its key frame. -/
def videoAwaitRollover (ev : RecorderEvent) (ready : Bool) (c : Ctx) : Ctx :=
  if c.s.rolloverPending then
    recorderRequestIdr cfg
      (if ready then .recordWaitRolloverKeyframe else .recordWaitRolloverParams) ev.monoNs false c
  else c

def videoRecording (ev : RecorderEvent) (answers : Answers) (keyframe ready : Bool) (c : Ctx) : Ctx :=
  let c := videoMark cfg ev keyframe ready c
  if c.s.rolloverPending && (keyframe && ready) then videoRollover cfg ev answers c
  else
    videoAppend cfg ev answers
      (recorderMaybeRequestPeriodicIdr cfg ev.monoNs (videoAwaitRollover cfg ev ready c))

/-- The test at the head of process_video. -/
def takesVideo (s : RecorderStream) (ev : RecorderEvent) : Bool :=
  ev.data ≠ [] && s.active && s.enabled && codecSupported s.codec

def Ctx.analyze (ev : RecorderEvent) (answers : Answers) (c : Ctx) : Ctx :=
  {c with s := (analyzePayload answers.malloc c.s ev.data).1}

def processVideo (ev : RecorderEvent) (answers : Answers) (c : Ctx) : Ctx :=
  if !takesVideo c.s ev then c
  else
    let keyframe := (analyzePayload answers.malloc c.s ev.data).2.hasKeyframe
    let ready := paramsReady (c.analyze ev answers).s
    let storage := recorderStorageAvailable cfg answers.mounts ev.monoNs (c.analyze ev answers)
    if !storage.2 then recorderSkipUnmounted cfg ev.monoNs storage.1
    else if storage.1.s.waitingKeyframe then videoWaiting cfg ev answers keyframe ready storage.1
    else videoRecording cfg ev answers keyframe ready storage.1

def processEvent (ev : RecorderEvent) (answers : Answers) (c : Ctx) : Ctx :=
  match ev.type with
  | .streamStart => processStreamStart cfg ev answers c
  | .video => processVideo cfg ev answers c
  | .streamStop => processStreamStop cfg ev answers c

def validStream (stream : Nat) : Bool := stream ≠ 0 && stream ≤ cfg.maxStreams

def Machine.tick (m : Machine) : Machine := {m with w.event := m.w.event + 1}

/-- One round of the loop of recorder_thread_main. -/
def step (m : Machine) (input : Input) : Machine :=
  if validStream cfg input.event.streamId then
    (m.onStream input.event.streamId (processEvent cfg input.event input.answers)).tick
  else m.tick

/-- compressed_recorder_start, by what the mount table held and when. -/
def start (mounts : List MntEnt) (nowNs : UInt64) : Machine where
  r :=
    {nfsMounted := !cfg.requireNfsMount || pathHasNfsMount cfg.recordDir mounts
     lastMountCheckNs := nowNs, lastMountLogNs := 0, mountSkippedPackets := 0, writeErrors := 0
     segmentsClosed := 0}
  streams := fun _ => .zero
  w := .start

def freeParamSets (c : Ctx) : Ctx := {c with s.params := fun _ => []}

/-- The loop over the streams `i`, …, `max_streams` after the last event. -/
def closeStreams (answers : Nat → CloseAnswers) : List Nat → Machine → Machine
  | [], m => m
  | stream :: rest, m =>
    closeStreams answers rest
      (m.onStream stream fun c => freeParamSets (closeSegment cfg (answers stream) true c).1)

def shutdown (answers : Nat → CloseAnswers) (m : Machine) : Machine :=
  closeStreams cfg answers (List.range' 1 cfg.maxStreams) m

def run (mounts : List MntEnt) (nowNs : UInt64) (inputs : List Input) : Machine :=
  Run.run (step cfg) (start cfg mounts nowNs) inputs

section Samples

/-- Two streams, and a clock that counts from midnight. -/
def sampleConfig (requireNfsMount : Bool) : Config where
  recordDir := "/rec".toList
  maxStreams := 2
  segmentSec := 60
  idrIntervalSec := 0
  requireNfsMount := requireNfsMount
  enabledStreams := fun _ => true
  requestIdr := false
  localtime := fun sec =>
    ⟨124, 0, 1, UInt32.ofNat (sec / 3600), UInt32.ofNat (sec / 60 % 60), UInt32.ofNat (sec % 60)⟩
  maxStreams_pos := by decide
  maxStreams_le := by decide
  recordDir_fits := by decide

def sampleMounts : List MntEnt := [⟨"/rec".toList, "nfs".toList⟩]

def goodClose : CloseAnswers := ⟨.clean, true, true, sampleMounts, 0⟩

def goodAnswers : Answers where
  malloc := fun _ => true
  mounts := sampleMounts
  finish := goodClose
  open_ := ⟨fun _ => .existed, true, sampleMounts⟩
  write := ⟨fun _ => .clean, .clean, .clean, sampleMounts, 0⟩
  discard := goodClose

def startAt (stream ms : Nat) : Input :=
  ⟨⟨.streamStart, stream, UInt64.ofNat ms, UInt64.ofNat ms * 1000000, .zero, []⟩, goodAnswers⟩

def stopAt (stream ms : Nat) : Input :=
  ⟨⟨.streamStop, stream, UInt64.ofNat ms, UInt64.ofNat ms * 1000000, .zero, []⟩, goodAnswers⟩

def videoAt (stream ms : Nat) (data : Bytes) : Input :=
  ⟨⟨.video, stream, UInt64.ofNat ms, UInt64.ofNat ms * 1000000, .zero, data⟩, goodAnswers⟩

/-- Sequence and picture parameters and an IDR slice, each behind a start code. -/
def keyPacket : Bytes := [0, 0, 0, 1, 0x67, 1, 0, 0, 0, 1, 0x68, 1, 0, 0, 0, 1, 0x65, 1]

end Samples

end StreamRelay.Recorder
