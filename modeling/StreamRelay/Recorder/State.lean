import StreamRelay.Protocol
import StreamRelay.Stdio
import Mathlib

/-! State of the compressed recorder thread, the calls it makes to the
environment and the answers it gets. Paths are C strings; times and counters are
the machine words of the source, since several comparisons rely on wrap-around. -/
namespace StreamRelay.Recorder

abbrev CString := List Char

def pathMax : Nat := 4096

inductive RecorderEventType where
  | streamStart
  | video
  | streamStop
  deriving DecidableEq, Repr

structure RecorderEvent where
  type : RecorderEventType
  streamId : Nat
  wallMs : UInt64
  monoNs : UInt64
  info : StreamInfo
  data : Bytes
  deriving DecidableEq, Repr

/-- The calendar fields localtime_r fills in and strftime prints; times are
unsigned, so none of them is negative. -/
structure Tm where
  year : UInt32
  mon : UInt32
  mday : UInt32
  hour : UInt32
  min : UInt32
  sec : UInt32
  deriving DecidableEq, Repr

/-- What compressed_recorder_start leaves fixed in the recorder. The time zone is
the process's, so the calendar is a function of the second. -/
structure Config where
  recordDir : CString
  maxStreams : Nat
  segmentSec : UInt32
  idrIntervalSec : UInt32
  requireNfsMount : Bool
  enabledStreams : Nat → Bool
  requestIdr : Bool
  localtime : Nat → Tm
  maxStreams_pos : 0 < maxStreams
  maxStreams_le : maxStreams ≤ maxStreamsLimit
  recordDir_fits : recordDir.length + 4 < 512

def Config.rawDir (cfg : Config) : CString := cfg.recordDir ++ ['/', 'r', 'a', 'w']

inductive IdrReason where
  | recordStart
  | recordWaitKeyframe
  | recordWaitParams
  | recordRollover
  | recordWaitRolloverKeyframe
  | recordWaitRolloverParams
  | recordPeriodic
  | recordWriteError
  deriving DecidableEq, Repr

/-- The three slots of `params`. -/
instance paramSlotsNeZero : NeZero 3 := ⟨by decide⟩

/-- An absent parameter set is the empty list: stored ones start with a start code. -/
structure RecorderStream where
  streamId : Nat
  enabled : Bool
  active : Bool
  codec : UInt32
  ext : CString
  waitingKeyframe : Bool
  rolloverPending : Bool
  fp : Option Nat
  tmpPath : CString
  finalPath : CString
  segmentStartWallMs : UInt64
  segmentStartMonoNs : UInt64
  bytesWritten : UInt64
  packetsWritten : UInt64
  params : Fin 3 → Bytes
  lastIdrRequestNs : UInt64
  nextPeriodicIdrNs : UInt64
  idrRequestCount : UInt32

/-- The record after memset. -/
def RecorderStream.zero : RecorderStream where
  streamId := 0
  enabled := false
  active := false
  codec := 0
  ext := []
  waitingKeyframe := false
  rolloverPending := false
  fp := none
  tmpPath := []
  finalPath := []
  segmentStartWallMs := 0
  segmentStartMonoNs := 0
  bytesWritten := 0
  packetsWritten := 0
  params := fun _ => []
  lastIdrRequestNs := 0
  nextPeriodicIdrNs := 0
  idrRequestCount := 0

/-- The fields all streams share. -/
structure CompressedRecorder where
  nfsMounted : Bool
  lastMountCheckNs : UInt64
  lastMountLogNs : UInt64
  mountSkippedPackets : Nat
  writeErrors : Nat
  segmentsClosed : Nat
  deriving DecidableEq, Repr

/-- The segment a stream record describes, by the record's own fields. -/
structure Segment where
  file : Nat
  stream : Nat
  codec : UInt32
  startWallMs : UInt64
  tmp : CString
  final : CString
  deriving DecidableEq, Repr

inductive Part where
  | params
  | startCode
  | payload
  deriving DecidableEq, Repr

/-- Calls of the recorder thread, with the answers it got. `openSegment` marks
the entry of open_segment with the handle the record holds at that point. The
close, rename and unlink of close_segment carry the handle they are made for,
and a rename the bytes its source denotes at that moment. -/
inductive Call where
  | readMounts (found : Bool)
  | recheckMounts (found : Bool)
  | openSegment (stream : Nat) (held : Option Nat)
  | mkdir (path : CString) (ok : Bool)
  | fopen (path : CString) (file : Option Nat)
  | fwrite (file : Nat) (part : Part) (data : Bytes) (answer : Stdio.Answer)
  | fclose (file : Nat) (finalize ok : Bool)
  | rename (segment : Segment) (content : Option Bytes) (ok : Bool)
  | unlink (file : Nat) (path : CString)
  | requestIdr (stream : Nat) (reason : IdrReason) (nowNs : UInt64)
  deriving DecidableEq, Repr

def Call.file : Call → Option Nat
  | .fopen _ file => file
  | .fwrite file _ _ _ | .fclose file _ _ | .unlink file _ => some file
  | .rename segment _ _ => some segment.file
  | _ => none

/-- A call and the number of events processed before the one it belongs to. -/
structure Entry where
  event : Nat
  call : Call
  deriving DecidableEq, Repr

structure World where
  store : Stdio.Store CString UInt8
  event : Nat
  log : List Entry

def World.start : World := ⟨.empty, 0, []⟩

def World.emit (w : World) (call : Call) : World := {w with log := w.log ++ [⟨w.event, call⟩]}

structure MntEnt where
  dir : CString
  type : CString
  deriving DecidableEq, Repr

inductive MkdirAnswer where
  | created
  | existed
  | error
  deriving DecidableEq, Repr

/-- What the environment answers at each call site while one event is processed.
No call site is reached twice for one event, except the numbered ones. -/
structure CloseAnswers where
  fclose : Stdio.Answer
  rename : Bool
  unlink : Bool
  mounts : List MntEnt
  nowNs : UInt64

structure OpenAnswers where
  mkdir : Nat → MkdirAnswer
  fopen : Bool
  mounts : List MntEnt

structure WriteAnswers where
  params : Fin 3 → Stdio.Answer
  startCode : Stdio.Answer
  payload : Stdio.Answer
  mounts : List MntEnt
  nowNs : UInt64

structure Answers where
  malloc : Nat → Bool
  mounts : List MntEnt
  finish : CloseAnswers
  open_ : OpenAnswers
  write : WriteAnswers
  discard : CloseAnswers

structure Input where
  event : RecorderEvent
  answers : Answers

/-- What one event works on: the shared fields, its stream's record, the world. -/
structure Ctx where
  r : CompressedRecorder
  s : RecorderStream
  w : World

def Ctx.emit (c : Ctx) (call : Call) : Ctx := {c with w := c.w.emit call}

structure Machine where
  r : CompressedRecorder
  streams : Nat → RecorderStream
  w : World

def Machine.ctx (m : Machine) (stream : Nat) : Ctx := ⟨m.r, m.streams stream, m.w⟩

def Machine.install (m : Machine) (stream : Nat) (c : Ctx) : Machine :=
  ⟨c.r, Function.update m.streams stream c.s, c.w⟩

/-- Running a function of the source on `&r->streams[stream]`. -/
def Machine.onStream (m : Machine) (stream : Nat) (f : Ctx → Ctx) : Machine :=
  m.install stream (f (m.ctx stream))

end StreamRelay.Recorder
