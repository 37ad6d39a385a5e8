import StreamRelay.Recorder.State

/-! When the recorder asks the sender for a key frame: with back-off while it
waits for one, and on a schedule spread over the streams while it records. -/
namespace StreamRelay.Recorder

def periodicIdrMinGapNs : UInt64 := 2 * 1000 * 1000 * 1000

variable (cfg : Config)

/-- The wait before the next unforced request, by the number of requests made. -/
def idrBackoffNs (count : UInt32) : UInt64 :=
  if count = 0 then 0
  else if count = 1 then 2 * 1000 * 1000 * 1000
  else if count = 2 then 5 * 1000 * 1000 * 1000
  else 10 * 1000 * 1000 * 1000

def recorderRequestIdr (reason : IdrReason) (nowNs : UInt64) (force : Bool) (c : Ctx) : Ctx :=
  if !cfg.requestIdr then c
  else if !force ∧ c.s.lastIdrRequestNs ≠ 0 ∧
      nowNs - c.s.lastIdrRequestNs < idrBackoffNs c.s.idrRequestCount then c
  else
    let c := c.emit (.requestIdr c.s.streamId reason nowNs)
    {c with s.lastIdrRequestNs := nowNs, s.idrRequestCount := c.s.idrRequestCount + 1}

def recorderIdrRequestRecent (s : RecorderStream) (nowNs gapNs : UInt64) : Bool :=
  s.lastIdrRequestNs ≠ 0 && s.lastIdrRequestNs ≤ nowNs && nowNs - s.lastIdrRequestNs < gapNs

def recorderIdrIntervalNs : UInt64 := cfg.idrIntervalSec.toUInt64 * 1000 * 1000 * 1000

def recorderPeriodicIdrOffsetNs (s : RecorderStream) : UInt64 :=
  if recorderIdrIntervalNs cfg = 0 then 0
  else
    let spread := if 0 < cfg.maxStreams then cfg.maxStreams else 1
    let index := if 0 < s.streamId then s.streamId - 1 else 0
    (UInt64.ofNat index * recorderIdrIntervalNs cfg) / UInt64.ofNat spread

/-- The 2 ^ 64 values of the counter: a loop that steps it and has not stopped
within so many rounds never does. -/
def counterValues : Nat := 2 ^ 64

/-- `while (next_ns < min_next_ns) next_ns += interval_ns`. -/
def raiseWhileBelow (intervalNs minNextNs : UInt64) : Nat → UInt64 → Option UInt64
  | 0, _ => none
  | fuel + 1, nextNs =>
    if nextNs < minNextNs then raiseWhileBelow intervalNs minNextNs fuel (nextNs + intervalNs)
    else some nextNs

/-- `do next_ns += interval_ns while (next_ns <= now_ns)`. -/
def raisePast (intervalNs nowNs : UInt64) : Nat → UInt64 → Option UInt64
  | 0, _ => none
  | fuel + 1, nextNs =>
    if nextNs + intervalNs ≤ nowNs then raisePast intervalNs nowNs fuel (nextNs + intervalNs)
    else some (nextNs + intervalNs)

def recorderNextPeriodicIdrNs (s : RecorderStream) (nowNs : UInt64) : UInt64 :=
  let intervalNs := recorderIdrIntervalNs cfg
  if intervalNs = 0 then 0
  else
    let baseNs := (nowNs / intervalNs) * intervalNs
    let nextNs := baseNs + recorderPeriodicIdrOffsetNs cfg s
    (raiseWhileBelow intervalNs (nowNs + periodicIdrMinGapNs) counterValues nextNs).getD nextNs

def Ctx.schedulePeriodicIdr (nowNs : UInt64) (c : Ctx) : Ctx :=
  {c with s.nextPeriodicIdrNs := recorderNextPeriodicIdrNs cfg c.s nowNs}

/-- The rest of the function, once the next time is scheduled. -/
def firePeriodicIdr (nowNs : UInt64) (c : Ctx) : Ctx :=
  if c.s.nextPeriodicIdrNs = 0 ∨ nowNs < c.s.nextPeriodicIdrNs then c
  else if recorderIdrRequestRecent c.s nowNs periodicIdrMinGapNs then
    c.schedulePeriodicIdr cfg nowNs
  else
    let c := recorderRequestIdr cfg .recordPeriodic nowNs true c
    let next := raisePast (recorderIdrIntervalNs cfg) nowNs counterValues c.s.nextPeriodicIdrNs
    {c with s.nextPeriodicIdrNs := next.getD c.s.nextPeriodicIdrNs}

def recorderMaybeRequestPeriodicIdr (nowNs : UInt64) (c : Ctx) : Ctx :=
  if recorderIdrIntervalNs cfg = 0 ∨ c.s.fp = none ∨ c.s.waitingKeyframe ∨ c.s.rolloverPending then c
  else if c.s.nextPeriodicIdrNs = 0 then
    firePeriodicIdr cfg nowNs (c.schedulePeriodicIdr cfg nowNs)
  else firePeriodicIdr cfg nowNs c

end StreamRelay.Recorder
