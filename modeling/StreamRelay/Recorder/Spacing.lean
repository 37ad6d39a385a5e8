import StreamRelay.Recorder.Requests
import StreamRelay.Recorder.Schedule
import StreamRelay.Recorder.Ownership

/-! The gap between the requests of one stream. The record has the time of the last request,
which tells exactly which requests come less than two seconds after another one. -/
namespace StreamRelay.Recorder

/-- A request for a bound reason comes two seconds after the one before it, or later. -/
def Spaced (bound : IdrReason → Prop) (requests : List (IdrReason × UInt64)) : Prop :=
  requests.IsChain fun before request => bound request.1 → before.2.toNat + 2000000000 ≤ request.2.toNat

instance (bound : IdrReason → Prop) [DecidablePred bound] (requests : List (IdrReason × UInt64)) :
    Decidable (Spaced bound requests) := inferInstanceAs (Decidable (List.IsChain _ _))

theorem spaced_snoc {bound : IdrReason → Prop} {requests : List (IdrReason × UInt64)}
    {request : IdrReason × UInt64} : Spaced bound (requests ++ [request]) ↔
      Spaced bound requests ∧ ∀ before ∈ requests.getLast?,
        bound request.1 → before.2.toNat + 2000000000 ≤ request.2.toNat := by
  unfold Spaced
  rw [List.isChain_append]
  simp

variable (cfg : Config)

/-- recorder_request_idr returns without a request. -/
def Quiet (nowNs : UInt64) (force : Bool) (s : RecorderStream) : Prop :=
  cfg.requestIdr = false ∨ (force = false ∧ s.lastIdrRequestNs ≠ 0 ∧
    nowNs - s.lastIdrRequestNs < idrBackoffNs s.idrRequestCount)

def Ctx.asked (reason : IdrReason) (nowNs : UInt64) (c : Ctx) : Ctx :=
  let c := c.emit (.requestIdr c.s.streamId reason nowNs)
  {c with s.lastIdrRequestNs := nowNs, s.idrRequestCount := c.s.idrRequestCount + 1}

/-- What the record knows of the requests of its stream. -/
structure Tracked (stream : Nat) (nowNs : UInt64) (c : Ctx) : Prop where
  streamId : c.s.streamId = stream
  last : cfg.requestIdr = true →
    ∃ reason, (idrRequests stream c.w.log).getLast? = some (reason, c.s.lastIdrRequestNs)
  past : c.s.lastIdrRequestNs.toNat ≤ nowNs.toNat
  early : 2000000000 ≤ nowNs.toNat ∨ c.s.nextPeriodicIdrNs = 0 ∨
    2000000000 ≤ c.s.nextPeriodicIdrNs.toNat

/-- The requests are spaced exactly if the condition holds. -/
structure Counts (bound : IdrReason → Prop) (stream : Nat) (nowNs : UInt64) (condition : Prop)
    (c : Ctx) : Prop where
  tracked : Tracked cfg stream nowNs c
  spaced : Spaced bound (idrRequests stream c.w.log) ↔ condition

variable {cfg} {stream : Nat} {nowNs : UInt64} {bound : IdrReason → Prop} {condition : Prop} {c : Ctx}

theorem recorderRequestIdr_quiet {reason : IdrReason} {force : Bool}
    (quiet : Quiet cfg nowNs force c.s) : recorderRequestIdr cfg reason nowNs force c = c := by
  unfold recorderRequestIdr
  rcases quiet with off | ⟨unforced, asked, soon⟩
  · rw [if_pos (by rw [off]; rfl)]
  · split
    · rfl
    · rw [if_pos ⟨by rw [unforced]; rfl, asked, soon⟩]

theorem recorderRequestIdr_asked {reason : IdrReason} {force : Bool}
    (loud : ¬Quiet cfg nowNs force c.s) :
    recorderRequestIdr cfg reason nowNs force c = c.asked reason nowNs := by
  have on : ¬(!cfg.requestIdr) = true := fun off => loud (.inl (by simpa using off))
  unfold recorderRequestIdr
  rw [if_neg on, if_neg ?_]
  · rfl
  · rintro ⟨unforced, asked, soon⟩
    exact loud (.inr ⟨by simpa using unforced, asked, soon⟩)

theorem asked_requests (reason : IdrReason) (own : c.s.streamId = stream) :
    idrRequests stream (c.asked reason nowNs).w.log =
      idrRequests stream c.w.log ++ [(reason, nowNs)] := by
  have log : (c.asked reason nowNs).w.log = (c.w.emit (.requestIdr stream reason nowNs)).log := by
    rw [← own]
    rfl
  rw [log, idrRequests_emit, Call.idrRequest, if_pos rfl]
  rfl

section Tracked

/-- A time of the schedule that is not in the first two seconds. -/
theorem recorderNextPeriodicIdrNs_early (s : RecorderStream) (nowNs : UInt64) :
    2000000000 ≤ nowNs.toNat ∨ recorderNextPeriodicIdrNs cfg s nowNs = 0 ∨
      2000000000 ≤ (recorderNextPeriodicIdrNs cfg s nowNs).toNat := by
  by_cases off : recorderIdrIntervalNs cfg = 0
  · exact .inr (.inl (by rw [recorderNextPeriodicIdrNs, if_pos off]))
  by_cases soon : nowNs.toNat < 2000000000
  · have positive : 0 < (recorderIdrIntervalNs cfg).toNat :=
      Nat.pos_of_ne_zero fun zero => off (UInt64.toNat_inj.mp zero)
    have small := cfg.idrIntervalSec.toNat_lt
    have interval := intervalNs_toNat cfg
    have gap : periodicIdrMinGapNs.toNat = 2000000000 := by decide
    have bound : (nowNs + periodicIdrMinGapNs).toNat = nowNs.toNat + 2000000000 := by
      rw [add_toNat (by omega), gap]
    unfold Config.intervalNs at interval
    obtain ⟨t, found, -, reached, -⟩ := @raiseWhileBelow_some (recorderIdrIntervalNs cfg)
      (nowNs + periodicIdrMinGapNs) positive (by omega) counterValues
      (nowNs / recorderIdrIntervalNs cfg * recorderIdrIntervalNs cfg +
        recorderPeriodicIdrOffsetNs cfg s) (by unfold counterValues; omega)
    refine .inr (.inr ?_)
    rw [recorderNextPeriodicIdrNs, if_neg off]
    dsimp only
    rw [found, Option.getD_some]
    omega
  · exact .inl (Nat.not_lt.mp soon)

theorem Tracked.unasked {c' : Ctx} (tracked : Tracked cfg stream nowNs c)
    (unasked : Unasked cfg nowNs c c') : Tracked cfg stream nowNs c' where
  streamId := unasked.streamId.trans tracked.streamId
  last on := by
    rw [unasked.requests, unasked.last]
    exact tracked.last on
  past := by
    rw [unasked.last]
    exact tracked.past
  early := by
    rcases unasked.next with same | none | scheduled
    · rw [same]
      exact tracked.early
    · exact .inr (.inl none)
    · rw [scheduled]
      exact recorderNextPeriodicIdrNs_early ..

theorem Tracked.later {laterNs : UInt64} (tracked : Tracked cfg stream nowNs c)
    (le : nowNs.toNat ≤ laterNs.toNat) : Tracked cfg stream laterNs c where
  streamId := tracked.streamId
  last := tracked.last
  past := Nat.le_trans tracked.past le
  early := tracked.early.imp_left fun late => Nat.le_trans late le

theorem tracked_asked (own : c.s.streamId = stream) (early : 2000000000 ≤ nowNs.toNat ∨
      c.s.nextPeriodicIdrNs = 0 ∨ 2000000000 ≤ c.s.nextPeriodicIdrNs.toNat) (reason : IdrReason) :
    Tracked cfg stream nowNs (c.asked reason nowNs) where
  streamId := own
  last _ := ⟨reason, by rw [asked_requests reason own, List.getLast?_concat]; rfl⟩
  past := Nat.le_refl _
  early := early

/-- What one more request needs. -/
theorem Tracked.spaced_asked (tracked : Tracked cfg stream nowNs c) (on : cfg.requestIdr = true)
    (reason : IdrReason) : Spaced bound (idrRequests stream (c.asked reason nowNs).w.log) ↔
      Spaced bound (idrRequests stream c.w.log) ∧
        (bound reason → c.s.lastIdrRequestNs.toNat + 2000000000 ≤ nowNs.toNat) := by
  obtain ⟨was, last⟩ := tracked.last on
  rw [asked_requests reason tracked.streamId, spaced_snoc, last]
  simp

end Tracked

theorem Counts.congr {condition' : Prop} (counts : Counts cfg bound stream nowNs condition c)
    (same : condition ↔ condition') : Counts cfg bound stream nowNs condition' c :=
  ⟨counts.tracked, counts.spaced.trans same⟩

theorem Counts.request (counts : Counts cfg bound stream nowNs condition c) (reason : IdrReason)
    (force : Bool) : Counts cfg bound stream nowNs (condition ∧ (Quiet cfg nowNs force c.s ∨
      (bound reason → c.s.lastIdrRequestNs.toNat + 2000000000 ≤ nowNs.toNat)))
      (recorderRequestIdr cfg reason nowNs force c) := by
  by_cases quiet : Quiet cfg nowNs force c.s
  · rw [recorderRequestIdr_quiet quiet]
    exact counts.congr (by simp [quiet])
  · have on : cfg.requestIdr = true := Bool.not_eq_false _ |>.mp fun off => quiet (.inl off)
    rw [recorderRequestIdr_asked quiet]
    refine ⟨tracked_asked counts.tracked.streamId counts.tracked.early reason, ?_⟩
    rw [counts.tracked.spaced_asked on, counts.spaced]
    simp [quiet]

theorem Counts.unasked {c' : Ctx} (counts : Counts cfg bound stream nowNs condition c)
    (unasked : Unasked cfg nowNs c c') : Counts cfg bound stream nowNs condition c' := by
  refine ⟨counts.tracked.unasked unasked, ?_⟩
  rw [unasked.requests]
  exact counts.spaced

theorem not_recent_iff {s : RecorderStream} (past : s.lastIdrRequestNs.toNat ≤ nowNs.toNat) :
    recorderIdrRequestRecent s nowNs periodicIdrMinGapNs = false ↔
      s.lastIdrRequestNs = 0 ∨ s.lastIdrRequestNs.toNat + 2000000000 ≤ nowNs.toNat := by
  have gap : periodicIdrMinGapNs.toNat = 2000000000 := by decide
  have apart : (nowNs - s.lastIdrRequestNs).toNat = nowNs.toNat - s.lastIdrRequestNs.toNat :=
    UInt64.toNat_sub_of_le _ _ (UInt64.le_iff_toNat_le.mpr past)
  by_cases none : s.lastIdrRequestNs = 0
  · simp [recorderIdrRequestRecent, none]
  · simp only [recorderIdrRequestRecent, none, ne_eq, not_false_eq_true, decide_true, Bool.true_and,
      UInt64.le_iff_toNat_le, past, UInt64.lt_iff_toNat_lt, apart, gap, decide_eq_false_iff_not,
      false_or]
    omega

/-- A request at its time comes late enough when none was made in the last two seconds. -/
theorem Counts.fire (counts : Counts cfg bound stream nowNs condition c) :
    Counts cfg bound stream nowNs condition (firePeriodicIdr cfg nowNs c) := by
  unfold firePeriodicIdr
  split
  · exact counts
  next due =>
    obtain ⟨scheduled, reached⟩ := not_or.mp due
    have reached : c.s.nextPeriodicIdrNs.toNat ≤ nowNs.toNat :=
      Nat.not_lt.mp fun before => reached (UInt64.lt_iff_toNat_lt.mpr before)
    have late : 2000000000 ≤ nowNs.toNat := by
      rcases counts.tracked.early with late | none | late
      · exact late
      · exact absurd none scheduled
      · exact Nat.le_trans late reached
    split
    · exact counts.unasked (schedulePeriodicIdr_unasked c)
    next recent =>
      have gap : c.s.lastIdrRequestNs.toNat + 2000000000 ≤ nowNs.toNat := by
        rcases (not_recent_iff counts.tracked.past).mp (Bool.not_eq_true _ |>.mp recent) with none | gap
        · rw [none]
          exact late
        · exact gap
      obtain ⟨tracked, spaced⟩ := counts.request .recordPeriodic true
      refine ⟨⟨tracked.streamId, tracked.last, tracked.past, .inl late⟩, spaced.trans ?_⟩
      exact and_iff_left (.inr fun _ => gap)

theorem Counts.periodic (counts : Counts cfg bound stream nowNs condition c) :
    Counts cfg bound stream nowNs condition (recorderMaybeRequestPeriodicIdr cfg nowNs c) :=
  maybeRequestPeriodicIdr_of_fire (Counts cfg bound stream nowNs condition)
    (fun counts => counts.unasked (schedulePeriodicIdr_unasked _)) Counts.fire counts

/-- Free requests leave it to the others whether the requests are spaced. -/
theorem counts_keeps : Keeps cfg nowNs (fun reason => ¬bound reason)
    (Counts cfg bound stream nowNs condition) where
  unasked unasked counts := counts.unasked unasked
  request free force _ counts := (counts.request _ force).congr (by simp [free])

section Video
variable (cfg)

/-- The requests that are not made for a new session or for an error. -/
def IdrReason.Paced (reason : IdrReason) : Prop :=
  reason ≠ .recordStart ∧ reason ≠ .recordWriteError

/-- No back-off holds the next unforced request off, although the last one was just made. -/
def Hasty (s : RecorderStream) (nowNs : UInt64) : Prop :=
  (s.idrRequestCount = 0 ∨ s.lastIdrRequestNs = 0) ∧
    nowNs.toNat < s.lastIdrRequestNs.toNat + 2000000000

/-- The request for a rollover takes the count of requests round to zero. -/
def Wraps (s : RecorderStream) (nowNs : UInt64) : Prop :=
  s.waitingKeyframe = false ∧ s.rolloverPending = false ∧
    recorderIdrRequestRecent s nowNs periodicIdrMinGapNs = false ∧ s.idrRequestCount + 1 = 0

/-- The stream goes on waiting for a key frame, and a request for one comes too soon. -/
def Presses (ev : RecorderEvent) (keyframe ready : Bool) (s : RecorderStream) : Prop :=
  (keyframe && ready) = false ∧ cfg.requestIdr = true ∧
    (s.waitingKeyframe = true ∨ s.rolloverPending = true ∨ shouldRollover cfg s ev.wallMs = true) ∧
    (Hasty s ev.monoNs ∨ Wraps s ev.monoNs)

/-- The packet is recorded, or would be, and presses for a key frame. -/
def PacketPresses (ev : RecorderEvent) (answers : Answers) (c : Ctx) : Prop :=
  takesVideo c.s ev = true ∧ storageUnavailable cfg c.r answers.mounts ev.monoNs = false ∧
    Presses cfg ev (analyzePayload answers.malloc c.s ev.data).2.hasKeyframe
      (paramsReady (c.analyze ev answers).s) c.s

variable {cfg} {ev : RecorderEvent} {keyframe ready : Bool}

theorem idrBackoffNs_ge {count : UInt32} (some : count ≠ 0) :
    2000000000 ≤ (idrBackoffNs count).toNat := by
  unfold idrBackoffNs
  rw [if_neg some]
  split
  · decide
  · split <;> decide

theorem quiet_or_late_iff {s : RecorderStream} (past : s.lastIdrRequestNs.toNat ≤ nowNs.toNat) :
    Quiet cfg nowNs false s ∨ s.lastIdrRequestNs.toNat + 2000000000 ≤ nowNs.toNat ↔
      ¬(cfg.requestIdr = true ∧ Hasty s nowNs) := by
  have apart : (nowNs - s.lastIdrRequestNs).toNat = nowNs.toNat - s.lastIdrRequestNs.toNat :=
    UInt64.toNat_sub_of_le _ _ (UInt64.le_iff_toNat_le.mpr past)
  constructor
  · rintro quiet ⟨on, unheld, soon⟩
    rcases quiet with (off | ⟨-, asked, held⟩) | late
    · rw [on] at off
      cases off
    · have zero := unheld.resolve_right asked
      rw [zero, UInt64.lt_iff_toNat_lt] at held
      exact absurd held (Nat.not_lt_zero _)
    · omega
  · intro calm
    by_cases late : s.lastIdrRequestNs.toNat + 2000000000 ≤ nowNs.toNat
    · exact .inr late
    cases on : cfg.requestIdr
    · exact .inl (.inl on)
    · have held := not_or.mp fun unheld => calm ⟨on, unheld, Nat.not_le.mp late⟩
      have long := idrBackoffNs_ge held.1
      refine .inl (.inr ⟨rfl, held.2, UInt64.lt_iff_toNat_lt.mpr ?_⟩)
      rw [apart]
      omega

/-- An unforced request is made, or held off, by the back-off. -/
theorem Counts.unforced {reason : IdrReason} (paced : bound reason)
    (counts : Counts cfg bound stream nowNs condition c) :
    Counts cfg bound stream nowNs (condition ∧ ¬(cfg.requestIdr = true ∧ Hasty c.s nowNs))
      (recorderRequestIdr cfg reason nowNs false c) := by
  refine (counts.request reason false).congr (and_congr_right fun _ => ?_)
  rw [← quiet_or_late_iff counts.tracked.past]
  simp [paced]

/-- A rollover that is due asks for its key frame by force, and then perhaps once more. -/
theorem Counts.due (counts : Counts cfg IdrReason.Paced stream ev.monoNs condition c)
    (fresh : recorderIdrRequestRecent c.s ev.monoNs periodicIdrMinGapNs = false) (ready : Bool) :
    Counts cfg IdrReason.Paced stream ev.monoNs (condition ∧ ¬(cfg.requestIdr = true ∧
      (Hasty c.s ev.monoNs ∨ c.s.idrRequestCount + 1 = 0)))
      (recorderRequestIdr cfg
        (if ready then .recordWaitRolloverKeyframe else .recordWaitRolloverParams) ev.monoNs false
        (recorderRequestIdr cfg .recordRollover ev.monoNs true c)) := by
  have paced : (if ready then IdrReason.recordWaitRolloverKeyframe
      else .recordWaitRolloverParams).Paced := by
    cases ready <;> exact ⟨nofun, nofun⟩
  have twice := (counts.request .recordRollover true).unforced paced
  refine twice.congr ?_
  rw [and_assoc]
  refine and_congr_right fun _ => ?_
  cases on : cfg.requestIdr
  · simp [Quiet, on]
  have loud : ¬Quiet cfg ev.monoNs true c.s := by
    rintro (off | ⟨unforced, -⟩)
    · rw [on] at off
      cases off
    · cases unforced
  have rollover : IdrReason.recordRollover.Paced := ⟨nofun, nofun⟩
  have last : (c.asked .recordRollover ev.monoNs).s.lastIdrRequestNs = ev.monoNs := rfl
  have count : (c.asked .recordRollover ev.monoNs).s.idrRequestCount = c.s.idrRequestCount + 1 := rfl
  have zero : ev.monoNs = 0 ↔ ev.monoNs.toNat = 0 := by
    rw [← UInt64.toNat_inj]
    rfl
  have before : c.s.lastIdrRequestNs = 0 ↔ c.s.lastIdrRequestNs.toNat = 0 := by
    rw [← UInt64.toNat_inj]
    rfl
  have past := counts.tracked.past
  have apart := (not_recent_iff past).mp fresh
  rw [recorderRequestIdr_asked loud]
  simp only [loud, rollover, Hasty, last, count, zero, before, true_and, false_or, forall_const]
    at apart ⊢
  constructor
  · rintro ⟨late, calm⟩ (⟨-, soon⟩ | wrapped)
    · omega
    · exact calm ⟨.inl wrapped, by omega⟩
  · intro calm
    have late : c.s.lastIdrRequestNs.toNat + 2000000000 ≤ ev.monoNs.toNat := by
      by_contra soon
      exact calm (.inl ⟨.inr (by omega), by omega⟩)
    refine ⟨late, fun ⟨again, _⟩ => ?_⟩
    rcases again with wrapped | zero
    · exact calm (.inr wrapped)
    · omega

theorem recorderRequestIdr_pending (reason : IdrReason) (nowNs : UInt64) (force : Bool) (c : Ctx) :
    (recorderRequestIdr cfg reason nowNs force c).s.rolloverPending = c.s.rolloverPending := by
  unfold recorderRequestIdr
  split
  · rfl
  · split <;> rfl

/-- What a packet asks for that finds a rollover due. -/
theorem awaitRollover_due (pending : c.s.rolloverPending = false)
    (due : shouldRollover cfg c.s ev.wallMs = true) (unready : (keyframe && ready) = false) :
    videoAwaitRollover cfg ev ready (videoMark cfg ev keyframe ready c) =
      recorderRequestIdr cfg
        (if ready then .recordWaitRolloverKeyframe else .recordWaitRolloverParams) ev.monoNs false
        (if recorderIdrRequestRecent c.s ev.monoNs periodicIdrMinGapNs then
          {c with s.rolloverPending := true}
        else recorderRequestIdr cfg .recordRollover ev.monoNs true {c with s.rolloverPending := true}) := by
  have missing : (!keyframe || !ready) = true := by
    rw [← Bool.not_and, unready]
    rfl
  have same : recorderIdrRequestRecent {c.s with rolloverPending := true} ev.monoNs
      periodicIdrMinGapNs = recorderIdrRequestRecent c.s ev.monoNs periodicIdrMinGapNs := rfl
  unfold videoMark
  rw [if_pos (by rw [pending, due]; rfl), missing]
  simp only [Bool.true_and]
  rw [same]
  cases recorderIdrRequestRecent c.s ev.monoNs periodicIdrMinGapNs
  · exact if_pos (recorderRequestIdr_pending ..)
  · exact if_pos rfl

/-- What process_video asks for while it goes on in a segment. -/
theorem Counts.rollover (counts : Counts cfg IdrReason.Paced stream ev.monoNs condition c)
    (unready : (keyframe && ready) = false) (recording : c.s.waitingKeyframe = false) :
    Counts cfg IdrReason.Paced stream ev.monoNs (condition ∧ ¬Presses cfg ev keyframe ready c.s)
      (videoAwaitRollover cfg ev ready (videoMark cfg ev keyframe ready c)) := by
  have paced : (if ready then IdrReason.recordWaitRolloverKeyframe
      else .recordWaitRolloverParams).Paced := by
    cases ready <;> exact ⟨nofun, nofun⟩
  cases pending : c.s.rolloverPending
  · cases due : shouldRollover cfg c.s ev.wallMs
    · have calm : ¬Presses cfg ev keyframe ready c.s := by simp [Presses, pending, due, recording]
      have same : videoAwaitRollover cfg ev ready (videoMark cfg ev keyframe ready c) = c := by
        simp [videoMark, videoAwaitRollover, pending, due]
      rw [same]
      exact counts.congr (by simp [calm])
    · have flagged : Unasked cfg ev.monoNs c {c with s.rolloverPending := true} :=
        .of_fields rfl rfl rfl rfl rfl
      have marked := counts.unasked flagged
      rw [awaitRollover_due pending due unready]
      cases recent : recorderIdrRequestRecent c.s ev.monoNs periodicIdrMinGapNs
      · refine (marked.due recent ready).congr ?_
        simp [Presses, Wraps, Hasty, unready, pending, due, recording, recent]
      · refine (marked.unforced paced).congr ?_
        simp [Presses, Wraps, Hasty, unready, pending, due, recent]
  · have same : videoMark cfg ev keyframe ready c = c := by simp [videoMark, pending]
    rw [same, videoAwaitRollover, if_pos pending]
    exact (counts.unforced paced).congr (by simp [Presses, Wraps, unready, pending])

theorem Counts.waiting (counts : Counts cfg IdrReason.Paced stream ev.monoNs condition c)
    (answers : Answers) (waiting : c.s.waitingKeyframe = true) :
    Counts cfg IdrReason.Paced stream ev.monoNs (condition ∧ ¬Presses cfg ev keyframe ready c.s)
      (videoWaiting cfg ev answers keyframe ready c) := by
  have paced : (if ready then IdrReason.recordWaitKeyframe else .recordWaitParams).Paced := by
    cases ready <;> exact ⟨nofun, nofun⟩
  unfold videoWaiting
  rw [← Bool.not_and]
  cases unready : keyframe && ready
  · exact (counts.unforced paced).congr (by simp [Presses, Wraps, unready, waiting])
  · have calm : ¬Presses cfg ev keyframe ready c.s := by simp [Presses, unready]
    exact (counts.unasked (videoBegin_unasked ..)).congr (by simp [calm])

theorem Counts.recording (counts : Counts cfg IdrReason.Paced stream ev.monoNs condition c)
    (answers : Answers) (recording : c.s.waitingKeyframe = false) :
    Counts cfg IdrReason.Paced stream ev.monoNs (condition ∧ ¬Presses cfg ev keyframe ready c.s)
      (videoRecording cfg ev answers keyframe ready c) := by
  have error : ¬IdrReason.recordWriteError.Paced := fun paced => paced.2 rfl
  unfold videoRecording
  dsimp only
  cases unready : keyframe && ready
  · rw [Bool.and_false, if_neg Bool.false_ne_true]
    exact counts_keeps.append answers error (counts.rollover unready recording).periodic
  · have calm : ¬Presses cfg ev keyframe ready c.s := by simp [Presses, unready]
    have found : (!keyframe || !ready) = false := by
      rw [← Bool.not_and, unready]
      rfl
    have marked : Counts cfg IdrReason.Paced stream ev.monoNs (condition ∧ ¬Presses cfg ev keyframe
        ready c.s) (videoMark cfg ev keyframe ready c) := by
      refine (counts.congr (by simp [calm])).unasked ?_
      unfold videoMark
      simp only [found, Bool.false_and, Bool.false_eq_true, if_false]
      split
      · exact .of_fields rfl rfl rfl rfl rfl
      · exact .refl c
    rw [Bool.and_true]
    split
    next pending => exact marked.unasked (videoRollover_unasked ..)
    next settled =>
      rw [videoAwaitRollover, if_neg settled]
      exact counts_keeps.append answers error marked.periodic

theorem storageAvailable_stream (mounts : List MntEnt) (nowNs : UInt64) (c : Ctx) :
    (recorderStorageAvailable cfg mounts nowNs c).1.s = c.s := by
  unfold recorderStorageAvailable
  split
  · rfl
  split
  · rfl
  · split <;> rfl

/-- The condition on the record before the packet is one on the record after its analysis. -/
theorem presses_stored (answers : Answers) :
    Presses cfg ev keyframe ready
        (recorderStorageAvailable cfg answers.mounts ev.monoNs (c.analyze ev answers)).1.s ↔
      Presses cfg ev keyframe ready c.s := by
  rw [storageAvailable_stream, analyze_segment]
  exact Iff.rfl

/-- One packet keeps the requests spaced exactly if it does not press. -/
theorem Counts.processVideo (answers : Answers)
    (counts : Counts cfg IdrReason.Paced stream ev.monoNs condition c) :
    Counts cfg IdrReason.Paced stream ev.monoNs (condition ∧ ¬PacketPresses cfg ev answers c)
      (processVideo cfg ev answers c) := by
  have stored := counts_keeps.stored answers c counts
  have storage := storageAvailable_eq cfg answers.mounts ev.monoNs (c.analyze ev answers)
  unfold Recorder.processVideo
  split
  next untaken =>
    have calm : ¬PacketPresses cfg ev answers c := by
      rintro ⟨taken, -⟩
      rw [taken] at untaken
      cases untaken
    exact counts.congr (by simp [calm])
  next taken =>
    have taken : takesVideo c.s ev = true := by simpa using taken
    dsimp only
    split
    next missing =>
      have calm : ¬PacketPresses cfg ev answers c := by
        rintro ⟨-, available, -⟩
        rw [storage] at missing
        simp [Ctx.analyze, available] at missing
      exact (stored.unasked (unasked_walk.skipUnmounted ..)).congr (by simp [calm])
    next available =>
      have available : storageUnavailable cfg c.r answers.mounts ev.monoNs = false := by
        rw [storage] at available
        simpa [Ctx.analyze] using available
      have presses : PacketPresses cfg ev answers c ↔
          Presses cfg ev (analyzePayload answers.malloc c.s ev.data).2.hasKeyframe
            (paramsReady (c.analyze ev answers).s)
            (recorderStorageAvailable cfg answers.mounts ev.monoNs (c.analyze ev answers)).1.s := by
        rw [presses_stored, PacketPresses]
        simp [taken, available]
      rw [presses]
      split
      next waiting => exact stored.waiting answers waiting
      next recording => exact stored.recording answers (Bool.not_eq_true _ |>.mp recording)

end Video

section Elsewhere

theorem recorderRequestIdr_elsewhere {reason : IdrReason} {force : Bool}
    (apart : c.s.streamId ≠ stream) :
    (recorderRequestIdr cfg reason nowNs force c).s.streamId = c.s.streamId ∧
      idrRequests stream (recorderRequestIdr cfg reason nowNs force c).w.log =
        idrRequests stream c.w.log := by
  by_cases quiet : Quiet cfg nowNs force c.s
  · rw [recorderRequestIdr_quiet quiet]
    exact ⟨rfl, rfl⟩
  · have log : (c.asked reason nowNs).w.log =
        (c.w.emit (.requestIdr c.s.streamId reason nowNs)).log := rfl
    rw [recorderRequestIdr_asked quiet, log, idrRequests_emit, Call.idrRequest, if_neg apart]
    exact ⟨rfl, List.append_nil _⟩

theorem elsewhere_keeps {other : Nat} (apart : other ≠ stream)
    (requests : List (IdrReason × UInt64)) : Keeps cfg nowNs (fun _ => True)
      (fun c => c.s.streamId = other ∧ idrRequests stream c.w.log = requests) where
  unasked unasked := fun ⟨own, same⟩ =>
    ⟨unasked.streamId.trans own, (unasked.requests stream).trans same⟩
  request _ force c := by
    rintro ⟨rfl, rfl⟩
    exact recorderRequestIdr_elsewhere apart

theorem periodic_elsewhere {other : Nat} (apart : other ≠ stream)
    {requests : List (IdrReason × UInt64)}
    (held : c.s.streamId = other ∧ idrRequests stream c.w.log = requests) :
    (recorderMaybeRequestPeriodicIdr cfg nowNs c).s.streamId = other ∧
      idrRequests stream (recorderMaybeRequestPeriodicIdr cfg nowNs c).w.log = requests := by
  refine maybeRequestPeriodicIdr_of_fire (fun c => c.s.streamId = other ∧
    idrRequests stream c.w.log = requests) (fun held => held) ?_ held
  rintro d ⟨rfl, rfl⟩
  unfold firePeriodicIdr
  split
  · exact ⟨rfl, rfl⟩
  split
  · exact ⟨rfl, rfl⟩
  · exact recorderRequestIdr_elsewhere apart

/-- The requests for a stream are made in its own events only. -/
theorem processEvent_elsewhere {ev : RecorderEvent} (answers : Answers)
    (apart : ev.streamId ≠ stream) (own : takesVideo c.s ev = true → c.s.streamId = ev.streamId) :
    idrRequests stream (processEvent cfg ev answers c).w.log = idrRequests stream c.w.log := by
  have closed : Unasked cfg ev.monoNs c (closeSegment cfg answers.finish true c).1 :=
    closeSegment_unasked ..
  unfold processEvent
  cases ev.type with
  | streamStart =>
    have same := closed.requests stream
    simp only [processStreamStart]
    split
    · exact same
    split
    · exact same
    · exact (recorderRequestIdr_elsewhere (c := {(closeSegment cfg answers.finish true c).1 with
        s := {armedStream cfg ev with active := true}}) apart).2.trans same
  | video =>
    cases taken : takesVideo c.s ev
    · simp [processVideo, taken]
    · have keeps : Keeps cfg ev.monoNs (fun _ => True) (fun d => d.s.streamId = ev.streamId ∧
          idrRequests stream d.w.log = idrRequests stream c.w.log) := elsewhere_keeps apart _
      have kept := keeps.processVideo answers c (fun _ _ => trivial) ⟨own taken, rfl⟩
        fun _ => periodic_elsewhere apart
      exact kept.2
  | streamStop => exact closed.requests stream

end Elsewhere

section Runs
variable (cfg)

/-- The times of the stream's events. -/
def eventTimes (stream : Nat) (inputs : List Input) : List UInt64 :=
  (inputs.filter fun input => input.event.streamId = stream).map fun input => input.event.monoNs

/-- While it is recorded, the stream is tracked. -/
structure Charged (bound : IdrReason → Prop) (stream : Nat) (nowNs : UInt64) (condition : Prop)
    (c : Ctx) : Prop where
  tracked : c.s.active = true → Tracked cfg stream nowNs c
  spaced : Spaced bound (idrRequests stream c.w.log) ↔ condition

/-- One packet of the stream keeps the requests spaced exactly if it does not press. -/
structure PressedBy (bound : IdrReason → Prop) (stream : Nat)
    (presses : RecorderEvent → Answers → Ctx → Prop) : Prop where
  start : ¬bound .recordStart
  taken : ∀ {ev answers c}, presses ev answers c → takesVideo c.s ev = true
  counts : ∀ {ev condition c} answers, Counts cfg bound stream ev.monoNs condition c →
    Counts cfg bound stream ev.monoNs (condition ∧ ¬presses ev answers c)
      (processVideo cfg ev answers c)

/-- The next event is a packet of the stream that presses. -/
def pressing (stream : Nat) (presses : RecorderEvent → Answers → Ctx → Prop) (m : Machine)
    (input : Input) : Prop :=
  input.event.streamId = stream ∧ input.event.type = .video ∧
    presses input.event input.answers (m.ctx stream)

variable {cfg} {presses : RecorderEvent → Answers → Ctx → Prop} {ev : RecorderEvent}

theorem processStreamStart_charged (start : ¬bound .recordStart) (own : ev.streamId = stream)
    (answers : Answers) (spaced : Spaced bound (idrRequests stream c.w.log) ↔ condition) :
    Charged cfg bound stream ev.monoNs condition (processStreamStart cfg ev answers c) := by
  have closed : Unasked cfg ev.monoNs c (closeSegment cfg answers.finish true c).1 :=
    closeSegment_unasked ..
  rw [← closed.requests] at spaced
  simp only [processStreamStart]
  split
  · exact ⟨fun active => absurd active Bool.false_ne_true, spaced⟩
  split
  · exact ⟨fun active => absurd active Bool.false_ne_true, spaced⟩
  generalize (closeSegment cfg answers.finish true c).1 = d at spaced ⊢
  have self : (armedStream cfg ev).streamId = stream := own
  by_cases quiet : Quiet cfg ev.monoNs true {armedStream cfg ev with active := true}
  · rw [recorderRequestIdr_quiet quiet]
    refine ⟨fun _ => ⟨own, fun on => ?_, Nat.zero_le _, .inr (.inl rfl)⟩, spaced⟩
    rcases quiet with off | ⟨forced, -⟩
    · rw [on] at off
      cases off
    · cases forced
  · rw [recorderRequestIdr_asked quiet]
    refine ⟨fun _ => tracked_asked own (.inr (.inl rfl)) _, ?_⟩
    rw [asked_requests .recordStart self, spaced_snoc]
    simpa [start] using spaced

theorem processEvent_charged (pressed : PressedBy cfg bound stream presses)
    (own : ev.streamId = stream) (answers : Answers)
    (charged : Charged cfg bound stream ev.monoNs condition c) :
    Charged cfg bound stream ev.monoNs (condition ∧ ¬(ev.type = .video ∧ presses ev answers c))
      (processEvent cfg ev answers c) := by
  unfold processEvent
  cases type : ev.type with
  | streamStart =>
    have kept : Charged cfg bound stream ev.monoNs condition (processStreamStart cfg ev answers c) :=
      processStreamStart_charged pressed.start own answers charged.spaced
    exact ⟨kept.tracked, kept.spaced.trans (by simp)⟩
  | video =>
    cases taken : takesVideo c.s ev
    · have calm : ¬presses ev answers c := fun pressing => by
        rw [pressed.taken pressing] at taken
        cases taken
      simpa [processVideo, taken, calm] using charged
    · obtain ⟨-, active, -⟩ := (takesVideo_iff _ _).mp taken
      have counts := pressed.counts answers ⟨charged.tracked active, charged.spaced⟩
      exact ⟨fun _ => counts.tracked, counts.spaced.trans (by simp)⟩
  | streamStop =>
    have closed : Unasked cfg ev.monoNs c (closeSegment cfg answers.finish true c).1 :=
      closeSegment_unasked ..
    refine ⟨fun active => absurd active Bool.false_ne_true, ?_⟩
    have requests : idrRequests stream (processStreamStop cfg ev answers c).w.log =
      idrRequests stream c.w.log := closed.requests stream
    rw [requests, charged.spaced]
    simp

theorem Charged.later {laterNs : UInt64} (charged : Charged cfg bound stream nowNs condition c)
    (le : nowNs ≤ laterNs) : Charged cfg bound stream laterNs condition c :=
  ⟨fun active => (charged.tracked active).later (UInt64.le_iff_toNat_le.mp le), charged.spaced⟩

/-- Only the record and the log count. -/
theorem Charged.same {c' : Ctx} (charged : Charged cfg bound stream nowNs condition c)
    (record : c'.s = c.s) (requests : idrRequests stream c'.w.log = idrRequests stream c.w.log) :
    Charged cfg bound stream nowNs condition c' := by
  refine ⟨fun active => ?_, by rw [requests, charged.spaced]⟩
  rw [record] at active
  obtain ⟨own, last, past, early⟩ := charged.tracked active
  exact ⟨by rw [record, own], by rw [record, requests]; exact last, by rw [record]; exact past,
    by rw [record]; exact early⟩

theorem step_own {m : Machine} {input : Input} (valid : validStream cfg stream = true)
    (own : input.event.streamId = stream) :
    ((step cfg m input).ctx stream).s =
        (processEvent cfg input.event input.answers (m.ctx stream)).s ∧
      (step cfg m input).w.log =
        (processEvent cfg input.event input.answers (m.ctx stream)).w.log := by
  subst own
  have moved : step cfg m input = (m.onStream input.event.streamId
      (processEvent cfg input.event input.answers)).tick := if_pos valid
  rw [moved]
  exact ⟨Machine.install_self .., rfl⟩

theorem step_other {m : Machine} {input : Input} (other : input.event.streamId ≠ stream) :
    ((step cfg m input).ctx stream).s = (m.ctx stream).s := by
  unfold step
  split
  · exact Machine.install_other _ _ _ _ other.symm
  · rfl

theorem step_elsewhere {m : Machine} {input : Input} (ledger : Ledger cfg m)
    (other : input.event.streamId ≠ stream) :
    idrRequests stream (step cfg m input).w.log = idrRequests stream m.w.log := by
  unfold step
  split
  · exact processEvent_elsewhere input.answers other
      fun taken => (ledger.taken cfg _ _ taken).streamId
  · rfl

theorem step_own_charged (pressed : PressedBy cfg bound stream presses) {m : Machine} {input : Input}
    (valid : validStream cfg stream = true) (own : input.event.streamId = stream)
    (charged : Charged cfg bound stream input.event.monoNs condition (m.ctx stream)) :
    Charged cfg bound stream input.event.monoNs (condition ∧ ¬pressing stream presses m input)
      ((step cfg m input).ctx stream) := by
  obtain ⟨record, log⟩ := step_own valid own (m := m)
  have after := processEvent_charged pressed own input.answers charged
  have held := after.same record (congrArg (idrRequests stream) log)
  simpa [pressing, own] using held

theorem step_other_charged {m : Machine} {input : Input} (ledger : Ledger cfg m)
    (other : input.event.streamId ≠ stream)
    (charged : Charged cfg bound stream nowNs condition (m.ctx stream)) :
    Charged cfg bound stream nowNs condition ((step cfg m input).ctx stream) :=
  charged.same (step_other other) (step_elsewhere ledger other)

theorem eventTimes_snoc (stream : Nat) (past : List Input) (input : Input) :
    eventTimes stream (past ++ [input]) = eventTimes stream past ++
      if input.event.streamId = stream then [input.event.monoNs] else [] := by
  unfold eventTimes
  rw [List.filter_append, List.map_append]
  split
  · next own => simp [own]
  · next other => simp [other]

theorem run_charged (pressed : PressedBy cfg bound stream presses)
    (valid : validStream cfg stream = true) (mounts : List MntEnt) (startNs : UInt64)
    (inputs : List Input) (ordered : (eventTimes stream inputs).Pairwise (· ≤ ·)) (nowNs : UInt64)
    (now : ∀ t ∈ eventTimes stream inputs, t ≤ nowNs) :
    Charged cfg bound stream nowNs
      (Run.Always (step cfg) (start cfg mounts startNs)
        (fun m input => ¬pressing stream presses m input) inputs)
      ((run cfg mounts startNs inputs).ctx stream) := by
  refine Run.history (step cfg) (start cfg mounts startNs)
    (fun past m => (eventTimes stream past).Pairwise (· ≤ ·) → ∀ nowNs,
      (∀ t ∈ eventTimes stream past, t ≤ nowNs) →
      Charged cfg bound stream nowNs (Run.Always (step cfg) (start cfg mounts startNs)
        (fun m input => ¬pressing stream presses m input) past) (m.ctx stream))
    ?_ ?_ inputs ordered nowNs now
  · refine fun _ nowNs _ => ⟨nofun, ?_⟩
    exact iff_of_true List.isChain_nil (Run.always_nil _ _ _)
  · intro past input before ordered nowNs now
    rw [eventTimes_snoc] at ordered now
    simp only [Run.always_snoc]
    obtain ⟨earlier, -, after⟩ := List.pairwise_append.mp ordered
    by_cases own : input.event.streamId = stream
    · rw [if_pos own] at after now
      have charged := before earlier input.event.monoNs fun t member => after t member _ (by simp)
      exact (step_own_charged pressed valid own charged).later (now _ (by simp))
    · rw [if_neg own, List.append_nil] at now
      have calm : ¬pressing stream presses (Run.run (step cfg) (start cfg mounts startNs) past) input :=
        fun pressing => own pressing.1
      simp only [calm, not_false_eq_true, and_true]
      exact step_other_charged (ledger_run cfg mounts startNs past) own (before earlier nowNs now)

theorem spaced_iff_always (pressed : PressedBy cfg bound stream presses)
    (valid : validStream cfg stream = true) (mounts : List MntEnt) (startNs : UInt64)
    (inputs : List Input) (ordered : (eventTimes stream inputs).Pairwise (· ≤ ·)) :
    Spaced bound (idrRequests stream (run cfg mounts startNs inputs).w.log) ↔
      Run.Always (step cfg) (start cfg mounts startNs)
        (fun m input => ¬pressing stream presses m input) inputs := by
  have last (t : UInt64) : t ≤ -1 := by
    rw [UInt64.le_iff_toNat_le]
    exact Nat.le_of_lt_succ t.toNat_lt
  exact (run_charged pressed valid mounts startNs inputs ordered (-1) fun t _ => last t).spaced

end Runs

section Requests

theorem packets_press : PressedBy cfg IdrReason.Paced stream (PacketPresses cfg) where
  start paced := paced.1 rfl
  taken pressing := pressing.1
  counts answers counts := counts.processVideo answers

/-- The requests of a stream are spaced exactly if no packet presses for a key frame. -/
theorem run_spaced_iff (cfg : Config) (stream : Nat) (valid : validStream cfg stream = true)
    (mounts : List MntEnt) (startNs : UInt64) (inputs : List Input)
    (ordered : (eventTimes stream inputs).Pairwise (· ≤ ·)) :
    Spaced IdrReason.Paced (idrRequests stream (run cfg mounts startNs inputs).w.log) ↔
      Run.Always (step cfg) (start cfg mounts startNs)
        (fun m input => ¬pressing stream (PacketPresses cfg) m input) inputs :=
  spaced_iff_always packets_press valid mounts startNs inputs ordered

/-- Segments of a second, with requests. -/
def hurriedConfig : Config := {sampleConfig false with segmentSec := 1, requestIdr := true}

def slicePacket : Bytes := [0, 0, 0, 1, 0x41, 1]

/-- A key frame half a second after the start, and a packet that finds the rollover due. -/
def hurriedInputs : List Input :=
  [startAt 1 10000, videoAt 1 10500 keyPacket, videoAt 1 11600 slicePacket]

/-- The segment that was opened since has the count of requests start again. -/
theorem reopened_hurries : 1 ≤ hurriedConfig.segmentSec.toNat ∧
    (eventTimes 1 hurriedInputs).Pairwise (· ≤ ·) ∧
    idrRequests 1 (run hurriedConfig [] 1 hurriedInputs).w.log =
      [(.recordStart, 10000000000), (.recordWaitRolloverKeyframe, 11600000000)] ∧
    ¬Spaced (fun reason => reason ≠ .recordStart ∧ reason ≠ .recordWriteError)
      (idrRequests 1 (run hurriedConfig [] 1 hurriedInputs).w.log) := by
  decide

theorem hurried_spaced_iff :
    Spaced IdrReason.Paced (idrRequests 1 (run hurriedConfig [] 1 hurriedInputs).w.log) ↔
      Run.Always (step hurriedConfig) (start hurriedConfig [] 1)
        (fun m input => ¬pressing 1 (PacketPresses hurriedConfig) m input) hurriedInputs :=
  run_spaced_iff hurriedConfig 1 (by decide) [] 1 hurriedInputs (by decide)

end Requests

end StreamRelay.Recorder
