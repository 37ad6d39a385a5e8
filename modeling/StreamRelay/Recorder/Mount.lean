import StreamRelay.Recorder.State

/-! The mount gate of the recorder and the directories it makes. The flag is
shared by all streams: a storage check sets it from the mount table, at most once
a second while it is down, and an error takes it down whatever the table says. -/
namespace StreamRelay.Recorder

def nfsMountCheckIntervalNs : UInt64 := 1000 * 1000 * 1000

def nfsMountLogIntervalNs : UInt64 := 10 * 1000 * 1000 * 1000

/-- The length without trailing slashes, but at least one. -/
def trimmedLength (text : CString) : Nat → Nat
  | 0 => 0
  | len + 1 => if 1 < len + 1 ∧ text.getD len '\x00' = '/' then trimmedLength text len else len + 1

def pathIsUnderMountpoint (path mountpoint : CString) : Bool :=
  if path = [] ∨ mountpoint = [] then false
  else
    let pathLen := trimmedLength path path.length
    let mountLen := trimmedLength mountpoint mountpoint.length
    if mountLen = 1 ∧ mountpoint.getD 0 '\x00' = '/' then path.getD 0 '\x00' = '/'
    else if pathLen < mountLen then false
    else if path.take mountLen ≠ mountpoint.take mountLen then false
    else pathLen = mountLen ∨ path.getD mountLen '\x00' = '/'

/-- A mount table that cannot be read is an empty one. -/
def pathHasNfsMount (path : CString) (mounts : List MntEnt) : Bool :=
  path ≠ [] && mounts.any fun ent =>
    (ent.type = "nfs".toList || ent.type = "nfs4".toList) && pathIsUnderMountpoint path ent.dir

def Ctx.noteWriteError (c : Ctx) : Ctx := {c with r.writeErrors := c.r.writeErrors + 1}

def Ctx.noteMountSkip (c : Ctx) : Ctx := {c with r.mountSkippedPackets := c.r.mountSkippedPackets + 1}

def Ctx.noteSegmentClosed (c : Ctx) : Ctx := {c with r.segmentsClosed := c.r.segmentsClosed + 1}

variable (cfg : Config)

def mountCheckDue (r : CompressedRecorder) (nowNs : UInt64) : Bool :=
  r.lastMountCheckNs = 0 || nowNs - r.lastMountCheckNs ≥ nfsMountCheckIntervalNs

def recorderStorageAvailable (mounts : List MntEnt) (nowNs : UInt64) (c : Ctx) : Ctx × Bool :=
  if !cfg.requireNfsMount then (c, true)
  else if c.r.nfsMounted then (c, true)
  else if mountCheckDue c.r nowNs then
    let found := pathHasNfsMount cfg.recordDir mounts
    (({c with r.lastMountCheckNs := nowNs, r.nfsMounted := found}).emit (.readMounts found), found)
  else (c, false)

def Ctx.awaitKeyframe (c : Ctx) : Ctx :=
  {c with s.waitingKeyframe := true, s.rolloverPending := false}

def logMountSkip (nowNs : UInt64) (c : Ctx) : Ctx :=
  if c.r.lastMountLogNs = 0 || nowNs - c.r.lastMountLogNs ≥ nfsMountLogIntervalNs then
    {c with r.lastMountLogNs := nowNs}
  else c

def recorderSkipUnmounted (nowNs : UInt64) (c : Ctx) : Ctx :=
  if !cfg.requireNfsMount then c.noteMountSkip.awaitKeyframe
  else logMountSkip nowNs c.noteMountSkip.awaitKeyframe

def recorderRecheckMountAfterError (mounts : List MntEnt) (nowNs : UInt64) (c : Ctx) : Ctx :=
  if !cfg.requireNfsMount then c
  else
    let mounted := pathHasNfsMount cfg.recordDir mounts
    ({c with r.lastMountCheckNs := nowNs, r.nfsMounted := false}).emit (.recheckMounts mounted)

/-- The prefixes of a path up to each of its slashes but a leading one. -/
def parentPaths (path : CString) : List CString :=
  ((List.range path.length).filter fun i => 0 < i ∧ path.getD i '\x00' = '/').map path.take

/-- The mkdir calls in order, until one fails otherwise than by EEXIST. -/
def mkdirEach (answers : Nat → MkdirAnswer) : Nat → List CString → Ctx → Ctx × Bool
  | _, [], c => (c, true)
  | i, path :: rest, c =>
    if answers i = .error then (c.emit (.mkdir path false), false)
    else mkdirEach answers (i + 1) rest (c.emit (.mkdir path true))

def mkdirP (answers : Nat → MkdirAnswer) (path : CString) (c : Ctx) : Ctx × Bool :=
  if path = [] then (c, false)
  else
    let tmp := path.take (pathMax - 1)
    let tmp := if tmp.getLast? = some '/' then tmp.dropLast else tmp
    mkdirEach answers 0 (parentPaths tmp ++ [tmp]) c

end StreamRelay.Recorder
