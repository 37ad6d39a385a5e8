import StreamRelay.Recorder.Spacing

/-! Periodic requests over whole runs. The next time of a stream stays in its phase, every call
that comes to its end moves it past the event, and the request is made while nothing is awaited. -/
namespace StreamRelay.Recorder

variable (cfg : Config)

/-- The next time, when there is one, is in the phase of the stream. -/
structure OnSchedule (stream : Nat) (c : Ctx) : Prop where
  streamId : c.s.streamId = stream
  phase : c.s.nextPeriodicIdrNs = 0 ∨
    c.s.nextPeriodicIdrNs.toNat ≡ cfg.phaseNs stream [MOD cfg.intervalNs]

/-- The record once a next time that is not there has been computed. -/
def Ctx.scheduled (nowNs : UInt64) (c : Ctx) : Ctx :=
  if c.s.nextPeriodicIdrNs = 0 then c.schedulePeriodicIdr cfg nowNs else c

/-- recorder_maybe_request_periodic_idr takes none of its returns. -/
structure ReachesEnd (nowNs : UInt64) (c : Ctx) : Prop where
  wanted : ¬(recorderIdrIntervalNs cfg = 0 ∨ c.s.fp = none ∨ c.s.waitingKeyframe ∨
    c.s.rolloverPending)
  due : ¬((c.scheduled cfg nowNs).s.nextPeriodicIdrNs = 0 ∨
    nowNs < (c.scheduled cfg nowNs).s.nextPeriodicIdrNs)
  fresh : ¬recorderIdrRequestRecent (c.scheduled cfg nowNs).s nowNs periodicIdrMinGapNs

/-- Any periodic request that was added meets the condition. -/
def AddsCalmly (stream : Nat) (before : List (IdrReason × UInt64)) (calm : Prop) (c : Ctx) : Prop :=
  ∃ added, idrRequests stream c.w.log = before ++ added ∧
    ∀ request ∈ added, request.1 = .recordPeriodic → calm

/-- The stream awaits no key frame, and no rollover is pending or due. -/
def AwaitsNothing (ev : RecorderEvent) (s : RecorderStream) : Prop :=
  s.waitingKeyframe = false ∧ s.rolloverPending = false ∧ shouldRollover cfg s ev.wallMs = false

/-- What holds of the schedule of a stream as its recorder takes the next event. -/
structure Punctual (stream : Nat) (m : Machine) (input : Input) : Prop where
  phase : (m.streams stream).active = true → (m.streams stream).nextPeriodicIdrNs = 0 ∨
    (m.streams stream).nextPeriodicIdrNs.toNat ≡ cfg.phaseNs stream [MOD cfg.intervalNs]
  reached : input.event.streamId = stream → input.event.type = .video →
    CallsPeriodic input.event input.answers (m.ctx stream) cfg →
    ReachesEnd cfg input.event.monoNs (periodicCtx input.event input.answers (m.ctx stream) cfg) →
    ∃ t, (recorderMaybeRequestPeriodicIdr cfg input.event.monoNs
        (periodicCtx input.event input.answers (m.ctx stream) cfg)).s.nextPeriodicIdrNs = t ∧
      raisePast (recorderIdrIntervalNs cfg) input.event.monoNs counterValues
        ((periodicCtx input.event input.answers (m.ctx stream) cfg).scheduled cfg
          input.event.monoNs).s.nextPeriodicIdrNs = some t ∧
      input.event.monoNs.toNat < t.toNat ∧ t.toNat ≡ cfg.phaseNs stream [MOD cfg.intervalNs]
  calm : AddsCalmly stream (idrRequests stream m.w.log) (AwaitsNothing cfg input.event (m.streams stream))
    ((step cfg m input).ctx stream)

variable {cfg} {stream : Nat} {nowNs : UInt64} {c : Ctx}

theorem validStream_iff : validStream cfg stream = true ↔ 1 ≤ stream ∧ stream ≤ cfg.maxStreams := by
  simp [validStream, Nat.one_le_iff_ne_zero]

theorem maybeRequestPeriodicIdr_eq (cfg : Config) (nowNs : UInt64) (c : Ctx) :
    recorderMaybeRequestPeriodicIdr cfg nowNs c =
      if recorderIdrIntervalNs cfg = 0 ∨ c.s.fp = none ∨ c.s.waitingKeyframe ∨ c.s.rolloverPending
      then c else firePeriodicIdr cfg nowNs (c.scheduled cfg nowNs) := by
  unfold recorderMaybeRequestPeriodicIdr Ctx.scheduled
  split
  · rfl
  · split <;> rfl

theorem recorderRequestIdr_next (cfg : Config) (reason : IdrReason) (nowNs : UInt64) (force : Bool)
    (c : Ctx) : (recorderRequestIdr cfg reason nowNs force c).s.streamId = c.s.streamId ∧
      (recorderRequestIdr cfg reason nowNs force c).s.nextPeriodicIdrNs = c.s.nextPeriodicIdrNs := by
  unfold recorderRequestIdr
  split
  · exact ⟨rfl, rfl⟩
  · split <;> exact ⟨rfl, rfl⟩

/-- The last lines of the function. -/
theorem firePeriodicIdr_end (due : ¬(c.s.nextPeriodicIdrNs = 0 ∨ nowNs < c.s.nextPeriodicIdrNs))
    (fresh : ¬recorderIdrRequestRecent c.s nowNs periodicIdrMinGapNs) :
    (firePeriodicIdr cfg nowNs c).s.streamId = c.s.streamId ∧
      (firePeriodicIdr cfg nowNs c).s.nextPeriodicIdrNs =
        (raisePast (recorderIdrIntervalNs cfg) nowNs counterValues c.s.nextPeriodicIdrNs).getD
          c.s.nextPeriodicIdrNs := by
  obtain ⟨same, next⟩ := recorderRequestIdr_next cfg .recordPeriodic nowNs true c
  unfold firePeriodicIdr
  rw [if_neg due, if_neg fresh]
  refine ⟨same, ?_⟩
  dsimp only
  rw [next]

section Phase
variable (on : 0 < cfg.idrIntervalSec.toNat) (valid : validStream cfg stream = true)
  (fits : Fits cfg stream nowNs)
include on valid fits

theorem OnSchedule.unasked {c' : Ctx} (held : OnSchedule cfg stream c)
    (unasked : Unasked cfg nowNs c c') : OnSchedule cfg stream c' := by
  refine ⟨unasked.streamId.trans held.streamId, ?_⟩
  rcases unasked.next with same | none | scheduled
  · rw [same]
    exact held.phase
  · exact .inl none
  · obtain ⟨rfl, -⟩ := held
    have least := (recorderNextPeriodicIdrNs_isLeast on c.s (validStream_iff.mp valid) fits).2
    rw [scheduled]
    exact .inr least.1.2

theorem OnSchedule.scheduled (held : OnSchedule cfg stream c) :
    OnSchedule cfg stream (c.scheduled cfg nowNs) := by
  unfold Ctx.scheduled
  split
  · exact held.unasked on valid fits (schedulePeriodicIdr_unasked c)
  · exact held

theorem onSchedule_keeps : Keeps cfg nowNs (fun _ => True) (OnSchedule cfg stream) where
  unasked unasked held := held.unasked on valid fits unasked
  request {reason} _ force c held := by
    obtain ⟨same, next⟩ := recorderRequestIdr_next cfg reason nowNs force c
    exact ⟨same.trans held.streamId, by rw [next]; exact held.phase⟩

omit valid in
/-- The loop at the end stops, in the phase and after the event. -/
theorem OnSchedule.raised (held : OnSchedule cfg stream c)
    (due : ¬(c.s.nextPeriodicIdrNs = 0 ∨ nowNs < c.s.nextPeriodicIdrNs)) :
    ∃ t, raisePast (recorderIdrIntervalNs cfg) nowNs counterValues c.s.nextPeriodicIdrNs = some t ∧
      nowNs.toNat < t.toNat ∧ t.toNat ≡ cfg.phaseNs stream [MOD cfg.intervalNs] := by
  have interval := intervalNs_toNat cfg
  have positive := intervalNs_ge on
  have room := fits.next
  obtain ⟨some, reached⟩ := not_or.mp due
  have reached : c.s.nextPeriodicIdrNs.toNat ≤ nowNs.toNat :=
    Nat.not_lt.mp fun before => reached (UInt64.lt_iff_toNat_lt.mpr before)
  have all := nowNs.toNat_lt
  obtain ⟨t, found, same, past, -⟩ := @raisePast_some (recorderIdrIntervalNs cfg) nowNs
    (by omega) (by omega) counterValues c.s.nextPeriodicIdrNs reached (by unfold counterValues; omega)
  rw [interval] at same
  exact ⟨t, found, past, same.trans (held.phase.resolve_left some)⟩

theorem OnSchedule.periodic (held : OnSchedule cfg stream c) :
    OnSchedule cfg stream (recorderMaybeRequestPeriodicIdr cfg nowNs c) := by
  refine maybeRequestPeriodicIdr_of_fire (OnSchedule cfg stream)
    (fun held => held.unasked on valid fits (schedulePeriodicIdr_unasked _)) ?_ held
  intro c held
  by_cases due : c.s.nextPeriodicIdrNs = 0 ∨ nowNs < c.s.nextPeriodicIdrNs
  · rw [firePeriodicIdr, if_pos due]
    exact held
  by_cases recent : recorderIdrRequestRecent c.s nowNs periodicIdrMinGapNs
  · rw [firePeriodicIdr, if_neg due, if_pos recent]
    exact held.unasked on valid fits (schedulePeriodicIdr_unasked c)
  · obtain ⟨t, found, -, phase⟩ := held.raised on fits due
    obtain ⟨same, next⟩ := @firePeriodicIdr_end cfg nowNs c due recent
    rw [found, Option.getD_some] at next
    exact ⟨same.trans held.streamId, .inr (by rw [next]; exact phase)⟩

/-- A call that reaches its end has moved the next time past the event. -/
theorem OnSchedule.reached (held : OnSchedule cfg stream c) (ends : ReachesEnd cfg nowNs c) :
    ∃ t, (recorderMaybeRequestPeriodicIdr cfg nowNs c).s.nextPeriodicIdrNs = t ∧
      raisePast (recorderIdrIntervalNs cfg) nowNs counterValues
        (c.scheduled cfg nowNs).s.nextPeriodicIdrNs = some t ∧
      nowNs.toNat < t.toNat ∧ t.toNat ≡ cfg.phaseNs stream [MOD cfg.intervalNs] := by
  obtain ⟨t, found, past, phase⟩ := (held.scheduled on valid fits).raised on fits ends.due
  refine ⟨t, ?_, found, past, phase⟩
  rw [maybeRequestPeriodicIdr_eq, if_neg ends.wanted, (firePeriodicIdr_end ends.due ends.fresh).2,
    found, Option.getD_some]

end Phase

section Calm
variable {before : List (IdrReason × UInt64)} {calm : Prop} {ev : RecorderEvent}

theorem recorderRequestIdr_calmly {reason : IdrReason} (may : reason = .recordPeriodic → calm)
    (force : Bool) (adds : AddsCalmly stream before calm c) :
    AddsCalmly stream before calm (recorderRequestIdr cfg reason nowNs force c) := by
  by_cases quiet : Quiet cfg nowNs force c.s
  · rw [recorderRequestIdr_quiet quiet]
    exact adds
  by_cases own : c.s.streamId = stream
  · obtain ⟨added, log, each⟩ := adds
    rw [recorderRequestIdr_asked quiet]
    refine ⟨added ++ [(reason, nowNs)], ?_, ?_⟩
    · rw [asked_requests reason own, log, List.append_assoc]
    · intro request member periodic
      rcases List.mem_append.mp member with old | new
      · exact each request old periodic
      · obtain rfl := List.mem_singleton.mp new
        exact may periodic
  · rw [AddsCalmly, (recorderRequestIdr_elsewhere own).2]
    exact adds

theorem calm_keeps : Keeps cfg nowNs (fun reason => reason ≠ .recordPeriodic)
    (AddsCalmly stream before calm) where
  unasked unasked adds := by
    rw [AddsCalmly, unasked.requests]
    exact adds
  request free force _ adds := recorderRequestIdr_calmly (fun periodic => absurd periodic free) force adds

theorem videoMark_pending (keyframe ready : Bool) :
    (videoMark cfg ev keyframe ready c).s.rolloverPending =
      (c.s.rolloverPending || shouldRollover cfg c.s ev.wallMs) := by
  unfold videoMark
  split
  next due =>
    have due : shouldRollover cfg c.s ev.wallMs = true := by simp_all
    dsimp only
    rw [due, Bool.or_true]
    split
    · exact recorderRequestIdr_pending ..
    · rfl
  next calm =>
    cases pending : c.s.rolloverPending <;> simp_all

theorem videoAwaitRollover_pending (ready : Bool) :
    (videoAwaitRollover cfg ev ready c).s.rolloverPending = c.s.rolloverPending := by
  unfold videoAwaitRollover
  split
  · exact recorderRequestIdr_pending ..
  · rfl

/-- When the call for the periodic requests is not turned away, nothing is awaited. -/
theorem awaitsNothing_of_calls {answers : Answers} (calls : CallsPeriodic ev answers c cfg)
    (quiet : (periodicCtx ev answers c cfg).s.rolloverPending = false) : AwaitsNothing cfg ev c.s := by
  obtain ⟨-, -, recording, -⟩ := calls
  rw [storageAvailable_stream, analyze_segment] at recording
  have same : shouldRollover cfg (recorderStorageAvailable cfg answers.mounts ev.monoNs
      (c.analyze ev answers)).1.s ev.wallMs = shouldRollover cfg c.s ev.wallMs := by
    rw [storageAvailable_stream, analyze_segment]
    rfl
  have flag : (recorderStorageAvailable cfg answers.mounts ev.monoNs
      (c.analyze ev answers)).1.s.rolloverPending = c.s.rolloverPending := by
    rw [storageAvailable_stream, analyze_segment]
  rw [periodicCtx, videoAwaitRollover_pending, videoMark_pending, same, flag, Bool.or_eq_false_iff] at quiet
  exact ⟨recording, quiet.1, quiet.2⟩

theorem periodic_calmly {answers : Answers} (calls : CallsPeriodic ev answers c cfg)
    (adds : AddsCalmly stream before (AwaitsNothing cfg ev c.s) (periodicCtx ev answers c cfg)) :
    AddsCalmly stream before (AwaitsNothing cfg ev c.s)
      (recorderMaybeRequestPeriodicIdr cfg ev.monoNs (periodicCtx ev answers c cfg)) := by
  cases pending : (periodicCtx ev answers c cfg).s.rolloverPending
  · have calm := awaitsNothing_of_calls calls pending
    refine maybeRequestPeriodicIdr_of_fire (AddsCalmly stream before (AwaitsNothing cfg ev c.s))
      (fun adds => adds) ?_ adds
    intro d adds
    have asked : AddsCalmly stream before (AwaitsNothing cfg ev c.s)
        (recorderRequestIdr cfg .recordPeriodic ev.monoNs true d) :=
      recorderRequestIdr_calmly (fun _ => calm) true adds
    unfold firePeriodicIdr
    split
    · exact adds
    split
    · exact adds
    · exact asked
  · rw [maybeRequestPeriodicIdr_eq, if_pos (by simp [pending])]
    exact adds

/-- The periodic requests of an event are made while its stream awaits nothing. -/
theorem processEvent_calmly (answers : Answers) :
    AddsCalmly stream (idrRequests stream c.w.log) (AwaitsNothing cfg ev c.s)
      (processEvent cfg ev answers c) := by
  have start : AddsCalmly stream (idrRequests stream c.w.log) (AwaitsNothing cfg ev c.s) c :=
    ⟨[], (List.append_nil _).symm, by simp⟩
  have keeps : Keeps cfg ev.monoNs (fun reason => reason ≠ .recordPeriodic)
    (AddsCalmly stream (idrRequests stream c.w.log) (AwaitsNothing cfg ev c.s)) := calm_keeps
  have closed := keeps.unasked (closeSegment_unasked c answers.finish true) start
  unfold processEvent
  cases ev.type with
  | streamStart =>
    simp only [processStreamStart]
    split
    · exact closed
    split
    · exact closed
    · have armed : AddsCalmly stream (idrRequests stream c.w.log) (AwaitsNothing cfg ev c.s)
          {(closeSegment cfg answers.finish true c).1 with
            s := {armedStream cfg ev with active := true}} := closed
      have other : IdrReason.recordStart ≠ .recordPeriodic := by decide
      exact keeps.request other true armed
  | video => exact keeps.processVideo answers c (fun _ of => of.2) start fun calls => periodic_calmly calls
  | streamStop => exact closed

end Calm

section Runs
variable (on : 0 < cfg.idrIntervalSec.toNat) (valid : validStream cfg stream = true)
include on valid

theorem processEvent_onSchedule {ev : RecorderEvent} (own : ev.streamId = stream)
    (fits : Fits cfg stream ev.monoNs) (answers : Answers)
    (held : c.s.active = true → OnSchedule cfg stream c)
    (active : (processEvent cfg ev answers c).s.active = true) :
    OnSchedule cfg stream (processEvent cfg ev answers c) := by
  have keeps := onSchedule_keeps on valid fits
  revert active
  unfold processEvent
  cases ev.type with
  | streamStart =>
    simp only [processStreamStart]
    split
    · exact fun active => absurd active Bool.false_ne_true
    split
    · exact fun active => absurd active Bool.false_ne_true
    · exact fun _ => keeps.request trivial true ⟨own, .inl rfl⟩
  | video =>
    intro active
    cases taken : takesVideo c.s ev
    · simp only [processVideo, taken, Bool.not_false, if_true] at active ⊢
      exact held active
    · obtain ⟨-, recorded, -⟩ := (takesVideo_iff _ _).mp taken
      exact keeps.processVideo answers c (fun _ _ => trivial) (held recorded)
        fun _ held => held.periodic on valid fits
  | streamStop => exact fun active => absurd active Bool.false_ne_true

/-- The record of a stream is on schedule in every state a run reaches. -/
theorem run_onSchedule (mounts : List MntEnt) (startNs : UInt64) (inputs : List Input)
    (fits : ∀ t ∈ eventTimes stream inputs, Fits cfg stream t)
    (active : ((run cfg mounts startNs inputs).streams stream).active = true) :
    OnSchedule cfg stream ((run cfg mounts startNs inputs).ctx stream) := by
  refine Run.history (step cfg) (start cfg mounts startNs)
    (fun past m => (∀ t ∈ eventTimes stream past, Fits cfg stream t) →
      (m.streams stream).active = true → OnSchedule cfg stream (m.ctx stream))
    (fun _ => nofun) ?_ inputs fits active
  intro past input before fits active
  rw [eventTimes_snoc] at fits
  have held := before fun t member => fits t (List.mem_append_left _ member)
  by_cases own : input.event.streamId = stream
  · obtain ⟨record, -⟩ := @step_own cfg stream (Run.run (step cfg) (start cfg mounts startNs) past)
      input valid own
    have now : Fits cfg stream input.event.monoNs := fits _ (by simp [own])
    have ran : (processEvent cfg input.event input.answers
        ((Run.run (step cfg) (start cfg mounts startNs) past).ctx stream)).s.active = true :=
      record ▸ active
    obtain ⟨id, phase⟩ := processEvent_onSchedule on valid own now input.answers held ran
    exact ⟨by rw [record, id], by rw [record]; exact phase⟩
  · have record := @step_other cfg stream (Run.run (step cfg) (start cfg mounts startNs) past) input own
    have recorded : ((Run.run (step cfg) (start cfg mounts startNs) past).ctx stream).s.active = true :=
      record ▸ active
    obtain ⟨id, phase⟩ := held recorded
    exact ⟨by rw [record, id], by rw [record]; exact phase⟩

omit on in
theorem step_calmly {m : Machine} (ledger : Ledger cfg m) (input : Input) :
    AddsCalmly stream (idrRequests stream m.w.log)
      (AwaitsNothing cfg input.event (m.streams stream)) ((step cfg m input).ctx stream) := by
  by_cases own : input.event.streamId = stream
  · have log : ((step cfg m input).ctx stream).w.log =
        (processEvent cfg input.event input.answers (m.ctx stream)).w.log := (step_own valid own).2
    have added := @processEvent_calmly cfg stream (m.ctx stream) input.event input.answers
    rw [AddsCalmly, ← log] at added
    exact added
  · exact ⟨[], (step_elsewhere ledger own).trans (List.append_nil _).symm, nofun⟩

theorem run_punctual (mounts : List MntEnt) (startNs : UInt64) (past : List Input) (input : Input)
    (fits : ∀ t ∈ eventTimes stream (past ++ [input]), Fits cfg stream t) :
    Punctual cfg stream (run cfg mounts startNs past) input := by
  rw [eventTimes_snoc] at fits
  have held := run_onSchedule on valid mounts startNs past
    fun t member => fits t (List.mem_append_left _ member)
  refine ⟨fun active => (held active).phase, fun own _ calls ends => ?_,
    step_calmly valid (ledger_run cfg mounts startNs past) input⟩
  have now : Fits cfg stream input.event.monoNs := fits _ (by simp [own])
  obtain ⟨-, active, -⟩ := (takesVideo_iff _ _).mp calls.1
  have keeps := onSchedule_keeps on valid now
  have context := keeps.periodicCtx input.answers _ (fun _ _ => trivial) (held active)
  exact context.reached on valid now ends

end Runs

section Schedule

theorem periodic_pressed :
    PressedBy cfg (fun reason => reason = .recordPeriodic) stream (fun _ _ _ => False) where
  start := nofun
  taken := False.elim
  counts {ev condition c} answers counts := by
    have kept := counts_keeps.processVideo answers c (fun _ of => of.2) counts
      fun _ counts => counts.periodic
    exact kept.congr (by simp)

/-- The periodic schedule of a stream: the function that computes its times, its phase, its
requests in a run with times that do not decrease, and every event of such a run. -/
theorem periodic_schedule (cfg : Config) (on : 0 < cfg.idrIntervalSec.toNat) (stream : Nat)
    (valid : validStream cfg stream = true) :
    (∀ (s : RecorderStream) (nowNs : UInt64), s.streamId = stream → Fits cfg stream nowNs →
      (recorderPeriodicIdrOffsetNs cfg s).toNat = cfg.phaseNs stream ∧
      raiseWhileBelow (recorderIdrIntervalNs cfg) (nowNs + periodicIdrMinGapNs) counterValues
        (nowNs / recorderIdrIntervalNs cfg * recorderIdrIntervalNs cfg +
          recorderPeriodicIdrOffsetNs cfg s) = some (recorderNextPeriodicIdrNs cfg s nowNs) ∧
      IsLeast {t | nowNs.toNat + 2000000000 ≤ t ∧ t ≡ cfg.phaseNs stream [MOD cfg.intervalNs]}
        (recorderNextPeriodicIdrNs cfg s nowNs).toNat) ∧
    (∀ other, validStream cfg other = true →
      cfg.phaseNs stream ≡ cfg.phaseNs other [MOD cfg.intervalNs] → stream = other) ∧
    ∀ (mounts : List MntEnt) (startNs : UInt64) (inputs : List Input),
      (eventTimes stream inputs).Pairwise (· ≤ ·) →
      (∀ t ∈ eventTimes stream inputs, Fits cfg stream t) →
      Spaced (fun reason => reason = .recordPeriodic)
        (idrRequests stream (run cfg mounts startNs inputs).w.log) ∧
      ∀ past input rest, inputs = past ++ input :: rest →
        Punctual cfg stream (run cfg mounts startNs past) input := by
  refine ⟨?_, ?_, ?_⟩
  · rintro s nowNs rfl fits
    have own := validStream_iff.mp valid
    exact ⟨recorderPeriodicIdrOffsetNs_toNat on s own fits.offset,
      recorderNextPeriodicIdrNs_isLeast on s own fits⟩
  · intro other otherValid
    exact phaseNs_injective on (validStream_iff.mp valid) (validStream_iff.mp otherValid)
  · intro mounts startNs inputs ordered fits
    constructor
    · refine (spaced_iff_always periodic_pressed valid mounts startNs inputs ordered).mpr ?_
      exact fun _ _ _ _ pressing => pressing.2.2
    · rintro past input rest rfl
      refine run_punctual on valid mounts startNs past input fun t member => fits t ?_
      rw [List.append_cons, eventTimes, List.filter_append, List.map_append]
      exact List.mem_append_left _ member

/-- An interval of three seconds, of which the first stream has the start. -/
def periodicConfig : Config := {sampleConfig false with idrIntervalSec := 3, requestIdr := true}

def periodicInputs : List Input :=
  [startAt 1 1000, videoAt 1 1500 keyPacket, videoAt 1 6000 slicePacket]

theorem periodicInputs_scheduled :
    idrRequests 1 (run periodicConfig [] 1 periodicInputs).w.log =
      [(.recordStart, 1000000000), (.recordPeriodic, 6000000000)] ∧
    Spaced (fun reason => reason = .recordPeriodic)
      (idrRequests 1 (run periodicConfig [] 1 periodicInputs).w.log) ∧
    ∀ past input rest, periodicInputs = past ++ input :: rest →
      Punctual periodicConfig 1 (run periodicConfig [] 1 past) input := by
  have schedule := periodic_schedule periodicConfig (by decide) 1 (by decide)
  refine ⟨by decide, schedule.2.2 [] 1 periodicInputs (by decide) ?_⟩
  have times : eventTimes 1 periodicInputs = [1000000000, 1500000000, 6000000000] := by decide
  rw [times]
  intro t member
  simp only [List.mem_cons, List.not_mem_nil, or_false] at member
  rcases member with rfl | rfl | rfl <;> exact ⟨by decide, by decide⟩

end Schedule

end StreamRelay.Recorder
