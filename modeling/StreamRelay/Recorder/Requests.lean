import StreamRelay.Recorder.Walk

/-! The requests for key frames that the log has of a stream, and how everything else that
an event does leaves them and the time of the last one alone. -/
namespace StreamRelay.Recorder

def Call.idrRequest (stream : Nat) : Call → Option (IdrReason × UInt64)
  | .requestIdr id reason nowNs => if id = stream then some (reason, nowNs) else none
  | _ => none

/-- The requests for a stream, oldest first, with their times. -/
def idrRequests (stream : Nat) (log : List Entry) : List (IdrReason × UInt64) :=
  log.filterMap fun entry => entry.call.idrRequest stream

variable (cfg : Config)

/-- No request was made, and the next periodic one is where it was, forgotten or scheduled. -/
structure Unasked (nowNs : UInt64) (c c' : Ctx) : Prop where
  requests : ∀ stream, idrRequests stream c'.w.log = idrRequests stream c.w.log
  streamId : c'.s.streamId = c.s.streamId
  active : c'.s.active = c.s.active
  last : c'.s.lastIdrRequestNs = c.s.lastIdrRequestNs
  next : c'.s.nextPeriodicIdrNs = c.s.nextPeriodicIdrNs ∨ c'.s.nextPeriodicIdrNs = 0 ∨
    c'.s.nextPeriodicIdrNs = recorderNextPeriodicIdrNs cfg c.s nowNs

variable {cfg} {nowNs : UInt64}

theorem recorderNextPeriodicIdrNs_same {s s' : RecorderStream} (same : s'.streamId = s.streamId) :
    recorderNextPeriodicIdrNs cfg s' nowNs = recorderNextPeriodicIdrNs cfg s nowNs := by
  rw [recorderNextPeriodicIdrNs, recorderNextPeriodicIdrNs, recorderPeriodicIdrOffsetNs,
    recorderPeriodicIdrOffsetNs, same]

theorem Unasked.refl (c : Ctx) : Unasked cfg nowNs c c := ⟨fun _ => rfl, rfl, rfl, rfl, .inl rfl⟩

theorem Unasked.trans {a b c : Ctx} (one : Unasked cfg nowNs a b) (two : Unasked cfg nowNs b c) :
    Unasked cfg nowNs a c where
  requests stream := (two.requests stream).trans (one.requests stream)
  streamId := two.streamId.trans one.streamId
  active := two.active.trans one.active
  last := two.last.trans one.last
  next := by
    rcases two.next with same | none | scheduled
    · rw [same]
      exact one.next
    · exact .inr (.inl none)
    · exact .inr (.inr (scheduled.trans (recorderNextPeriodicIdrNs_same one.streamId)))

theorem idrRequests_emit (stream : Nat) (w : World) (call : Call) :
    idrRequests stream (w.emit call).log = idrRequests stream w.log ++ (call.idrRequest stream).toList := by
  rw [World.emit, idrRequests, List.filterMap_append]
  cases asked : call.idrRequest stream <;> simp [idrRequests, asked]

/-- One more call in the log, which is no request. -/
theorem Unasked.of_call {c c' : Ctx} (call : Call) (other : ∀ stream, call.idrRequest stream = none)
    (log : c'.w.log = (c.w.emit call).log) (streamId : c'.s.streamId = c.s.streamId)
    (active : c'.s.active = c.s.active) (last : c'.s.lastIdrRequestNs = c.s.lastIdrRequestNs)
    (next : c'.s.nextPeriodicIdrNs = c.s.nextPeriodicIdrNs) : Unasked cfg nowNs c c' where
  requests stream := by rw [log, idrRequests_emit, other, Option.toList_none, List.append_nil]
  streamId := streamId
  active := active
  last := last
  next := .inl next

/-- A change that neither the log nor these fields see. -/
theorem Unasked.of_fields {c c' : Ctx} (log : c'.w.log = c.w.log)
    (streamId : c'.s.streamId = c.s.streamId) (active : c'.s.active = c.s.active)
    (last : c'.s.lastIdrRequestNs = c.s.lastIdrRequestNs)
    (next : c'.s.nextPeriodicIdrNs = c.s.nextPeriodicIdrNs) : Unasked cfg nowNs c c' :=
  ⟨fun _ => by rw [log], streamId, active, last, .inl next⟩

theorem unasked_walk : Walk (Unasked cfg nowNs) where
  refl := .refl
  trans := .trans
  shared _ _ := .of_fields rfl rfl rfl rfl rfl
  call _ call other := by
    refine .of_call call (fun stream => ?_) rfl rfl rfl rfl rfl
    cases call with
    | requestIdr stream reason nowNs => exact absurd rfl (other stream reason nowNs)
    | _ => rfl
  store _ _ _ _ := .of_fields rfl rfl rfl rfl rfl
  paths _ _ _ := .of_fields rfl rfl rfl rfl rfl
  written _ _ _ := .of_fields rfl rfl rfl rfl rfl
  waits _ := .of_fields rfl rfl rfl rfl rfl

section Operations
variable (c : Ctx)

theorem clearSegment_unasked : Unasked cfg nowNs c (clearSegment c) :=
  ⟨fun _ => rfl, rfl, rfl, rfl, .inr (.inl rfl)⟩

theorem closeSegment_unasked (answers : CloseAnswers) (finalize : Bool) :
    Unasked cfg nowNs c (closeSegment cfg answers finalize c).1 := by
  unfold closeSegment
  split
  · exact .refl c
  · next file held =>
    have closed : Unasked cfg nowNs c (c.fclose answers file finalize) :=
      .of_call (.fclose ..) (fun _ => rfl) rfl rfl rfl rfl rfl
    dsimp only
    split
    · refine closed.trans (.trans ?_ (clearSegment_unasked _))
      unfold renameSegment
      split
      · exact .of_call (.rename ..) (fun _ => rfl) rfl rfl rfl rfl rfl
      · refine .trans ?_ (unasked_walk.recheck ..)
        exact .of_call (.rename ..) (fun _ => rfl) rfl rfl rfl rfl rfl
    · split
      · refine closed.trans (.trans ?_ (clearSegment_unasked _))
        unfold unlinkSegment
        split <;> exact .of_call (.unlink ..) (fun _ => rfl) rfl rfl rfl rfl rfl
      · exact closed.trans (clearSegment_unasked _)

theorem discardSegment_unasked (answers : Answers) :
    Unasked cfg nowNs c (discardSegment cfg answers c) :=
  .trans (closeSegment_unasked c ..) (.of_fields rfl rfl rfl rfl rfl)

theorem openSegment_unasked (answers : OpenAnswers) (wallMs : UInt64) :
    Unasked cfg nowNs c (openSegment cfg answers wallMs nowNs c).1 := by
  apply unasked_walk.openSegment answers wallMs nowNs c
  · exact fun d paths => paths
  · intro d paths
    have opened : Unasked cfg nowNs d d.fopen :=
      .of_call (.fopen ..) (fun _ => rfl) rfl rfl rfl rfl rfl
    have armed : Unasked cfg nowNs d.fopen (armSegment cfg wallMs nowNs d.fopen) :=
      ⟨fun _ => rfl, rfl, rfl, rfl, .inr (.inr rfl)⟩
    exact paths.trans (opened.trans armed)
  · intro d paths
    have refused : Unasked cfg nowNs d d.fopenFailed :=
      .of_call (.fopen ..) (fun _ => rfl) rfl rfl rfl rfl rfl
    exact paths.trans (refused.trans (unasked_walk.noteError ..))

theorem beginSegment_unasked (ev : RecorderEvent) (answers : Answers) :
    Unasked cfg nowNs c (beginSegment cfg ev answers c) :=
  unasked_walk.beginSegment ev answers (fun d => discardSegment_unasked d answers) c

theorem videoBegin_unasked (ev : RecorderEvent) (answers : Answers) :
    Unasked cfg ev.monoNs c (videoBegin cfg ev answers c) := by
  have opened : Unasked cfg ev.monoNs c (openSegment cfg answers.open_ ev.wallMs ev.monoNs c).1 :=
    openSegment_unasked ..
  unfold videoBegin
  dsimp only
  split
  · exact opened.trans (beginSegment_unasked ..)
  · exact opened

theorem videoRollover_unasked (ev : RecorderEvent) (answers : Answers) :
    Unasked cfg ev.monoNs c (videoRollover cfg ev answers c) := by
  have closed : Unasked cfg ev.monoNs c (closeSegment cfg answers.finish true c).1 :=
    closeSegment_unasked ..
  have opened := closed.trans
    (openSegment_unasked (closeSegment cfg answers.finish true c).1 answers.open_ ev.wallMs)
  unfold videoRollover
  dsimp only
  split
  · exact opened.trans (beginSegment_unasked ..)
  · exact opened.trans (.of_fields rfl rfl rfl rfl rfl)

theorem analyze_unasked (ev : RecorderEvent) (answers : Answers) :
    Unasked cfg nowNs c (c.analyze ev answers) := by
  have same : (c.analyze ev answers).s = {c.s with params := (c.analyze ev answers).s.params} := by
    simp only [Ctx.analyze]
    rw [analyzePayload_eq]
  refine .of_fields rfl ?_ ?_ ?_ ?_ <;> rw [same]

end Operations

theorem schedulePeriodicIdr_unasked (c : Ctx) :
    Unasked cfg nowNs c (c.schedulePeriodicIdr cfg nowNs) :=
  ⟨fun _ => rfl, rfl, rfl, rfl, .inr (.inr rfl)⟩

/-- What scheduling keeps, and what follows it, the whole function keeps. -/
theorem maybeRequestPeriodicIdr_of_fire (property : Ctx → Prop)
    (schedule : ∀ {c}, property c → property (c.schedulePeriodicIdr cfg nowNs))
    (fire : ∀ {c}, property c → property (firePeriodicIdr cfg nowNs c)) {c : Ctx}
    (held : property c) : property (recorderMaybeRequestPeriodicIdr cfg nowNs c) := by
  unfold recorderMaybeRequestPeriodicIdr
  split
  · exact held
  split
  · exact fire (schedule held)
  · exact fire held

section Video
variable (ev : RecorderEvent) (answers : Answers) (c : Ctx)

/-- The record at the call of recorder_maybe_request_periodic_idr in process_video. -/
def periodicCtx (cfg : Config) : Ctx :=
  let keyframe := (analyzePayload answers.malloc c.s ev.data).2.hasKeyframe
  let ready := paramsReady (c.analyze ev answers).s
  let storage := recorderStorageAvailable cfg answers.mounts ev.monoNs (c.analyze ev answers)
  videoAwaitRollover cfg ev ready (videoMark cfg ev keyframe ready storage.1)

/-- Whether process_video comes to that call. -/
def CallsPeriodic (cfg : Config) : Prop :=
  let keyframe := (analyzePayload answers.malloc c.s ev.data).2.hasKeyframe
  let ready := paramsReady (c.analyze ev answers).s
  let storage := recorderStorageAvailable cfg answers.mounts ev.monoNs (c.analyze ev answers)
  takesVideo c.s ev = true ∧ storage.2 = true ∧ storage.1.s.waitingKeyframe = false ∧
    ((videoMark cfg ev keyframe ready storage.1).s.rolloverPending && (keyframe && ready)) = false

/-- process_video comes to its call of recorder_maybe_request_periodic_idr with this record. -/
theorem processVideo_callsPeriodic {ev : RecorderEvent} {c : Ctx} (calls : CallsPeriodic ev answers c cfg) :
    processVideo cfg ev answers c = videoAppend cfg ev answers
      (recorderMaybeRequestPeriodicIdr cfg ev.monoNs (periodicCtx ev answers c cfg)) := by
  obtain ⟨taken, stored, recording, unready⟩ := calls
  simp only [processVideo, taken, stored, recording, videoRecording, unready, Bool.not_true,
    Bool.false_eq_true, if_false]
  rfl

/-- What the operations without requests keep, and so do the requests for a free reason. -/
structure Keeps (cfg : Config) (nowNs : UInt64) (free : IdrReason → Prop) (property : Ctx → Prop) :
    Prop where
  unasked : ∀ {c c' : Ctx}, Unasked cfg nowNs c c' → property c → property c'
  request : ∀ {reason}, free reason → ∀ force {c : Ctx}, property c →
    property (recorderRequestIdr cfg reason nowNs force c)

/-- The reasons with which process_video itself calls recorder_request_idr. -/
def IdrReason.ofVideo (reason : IdrReason) : Prop := reason ≠ .recordStart ∧ reason ≠ .recordPeriodic

variable {ev} {free : IdrReason → Prop} {property : Ctx → Prop}
  (keeps : Keeps cfg ev.monoNs free property)
include keeps

theorem Keeps.append (error : free .recordWriteError) {c : Ctx} (held : property c) :
    property (videoAppend cfg ev answers c) := by
  unfold videoAppend
  split
  · exact held
  · have packet : property (writeSegmentPacket cfg answers.write ev.data c).1 :=
      keeps.unasked (unasked_walk.writeSegmentPacket ..) held
    dsimp only
    split
    · exact packet
    · exact keeps.request error _ (keeps.unasked (discardSegment_unasked ..) packet)

theorem Keeps.stored (held : property c) :
    property (recorderStorageAvailable cfg answers.mounts ev.monoNs (c.analyze ev answers)).1 :=
  keeps.unasked (.trans (analyze_unasked ..) (unasked_walk.storageAvailable ..)) held

section All
variable (all : ∀ reason : IdrReason, reason.ofVideo → free reason)
include all

theorem Keeps.mark {c : Ctx} (held : property c) (keyframe ready : Bool) :
    property (videoMark cfg ev keyframe ready c) := by
  have flagged : Unasked cfg ev.monoNs c {c with s.rolloverPending := true} :=
    .of_fields rfl rfl rfl rfl rfl
  have pending := keeps.unasked flagged held
  unfold videoMark
  split
  · dsimp only
    split
    · exact keeps.request (all .recordRollover ⟨nofun, nofun⟩) _ pending
    · exact pending
  · exact held

theorem Keeps.await {c : Ctx} (held : property c) (ready : Bool) :
    property (videoAwaitRollover cfg ev ready c) := by
  unfold videoAwaitRollover
  split
  · refine keeps.request (all _ ?_) _ held
    cases ready <;> exact ⟨nofun, nofun⟩
  · exact held

theorem Keeps.periodicCtx (held : property c) : property (periodicCtx ev answers c cfg) :=
  keeps.await all (keeps.mark all (keeps.stored answers c held) _ _) _

/-- So does process_video, if the call for the periodic requests does. -/
theorem Keeps.processVideo (held : property c)
    (periodic : CallsPeriodic ev answers c cfg → property (Recorder.periodicCtx ev answers c cfg) →
      property (recorderMaybeRequestPeriodicIdr cfg ev.monoNs (Recorder.periodicCtx ev answers c cfg))) :
    property (processVideo cfg ev answers c) := by
  by_cases calls : CallsPeriodic ev answers c cfg
  · rw [processVideo_callsPeriodic answers calls]
    exact keeps.append answers (all _ ⟨nofun, nofun⟩) (periodic calls (keeps.periodicCtx answers c all held))
  have stored := keeps.stored answers c held
  unfold Recorder.processVideo
  split
  · exact held
  next taken =>
    dsimp only
    split
    · exact keeps.unasked (unasked_walk.skipUnmounted ..) stored
    next available =>
      split
      · unfold videoWaiting
        split
        · refine keeps.request (all _ ?_) _ stored
          split <;> exact ⟨nofun, nofun⟩
        · exact keeps.unasked (videoBegin_unasked ..) stored
      next recording =>
        have marked := keeps.mark all stored (analyzePayload answers.malloc c.s ev.data).2.hasKeyframe
          (paramsReady (c.analyze ev answers).s)
        unfold videoRecording
        dsimp only
        split
        · exact keeps.unasked (videoRollover_unasked ..) marked
        next unready =>
          refine absurd ⟨by simpa using taken, by simpa using available, ?_, ?_⟩ calls
          · exact Bool.not_eq_true _ |>.mp recording
          · exact Bool.not_eq_true _ |>.mp unready

end All

end Video

end StreamRelay.Recorder
