import StreamRelay.Since
import StreamRelay.Recorder.Periodic

/-! How long a segment lasts before a rollover begins. The record keeps both clocks of the
event that opened its segment; whether a rollover is due is asked of the wall clock alone. -/
namespace StreamRelay.Recorder

variable {cfg : Config} {ev : RecorderEvent} {base c c' c'' : Ctx}

/-- The record has the segment it had, or none. -/
structure SegmentStays (c c' : Ctx) : Prop where
  next : c.w.store.next ≤ c'.w.store.next
  segment : c'.s.fp = none ∨ c'.s.fp = c.s.fp ∧
    c'.s.segmentStartWallMs = c.s.segmentStartWallMs ∧ c'.s.segmentStartMonoNs = c.s.segmentStartMonoNs

/-- The segment of the record is the one it had before the event or one that the event opened. -/
structure SegmentKnown (ev : RecorderEvent) (base c : Ctx) : Prop where
  next : base.w.store.next ≤ c.w.store.next
  segment : ∀ file, c.s.fp = some file →
    (base.s.fp = some file ∧ c.s.segmentStartWallMs = base.s.segmentStartWallMs ∧
        c.s.segmentStartMonoNs = base.s.segmentStartMonoNs) ∨
      (base.w.store.next ≤ file ∧ c.s.segmentStartWallMs = ev.wallMs ∧
        c.s.segmentStartMonoNs = ev.monoNs)

theorem SegmentStays.refl (c : Ctx) : SegmentStays c c := ⟨Nat.le_refl _, .inr ⟨rfl, rfl, rfl⟩⟩

theorem SegmentStays.trans (one : SegmentStays c c') (two : SegmentStays c' c'') :
    SegmentStays c c'' where
  next := Nat.le_trans one.next two.next
  segment := by
    rcases two.segment with none | ⟨fp, wall, mono⟩
    · exact .inl none
    rcases one.segment with none | ⟨fp', wall', mono'⟩
    · exact .inl (fp.trans none)
    · exact .inr ⟨fp.trans fp', wall.trans wall', mono.trans mono'⟩

theorem SegmentStays.of_fields (next : c'.w.store.next = c.w.store.next) (fp : c'.s.fp = c.s.fp)
    (wall : c'.s.segmentStartWallMs = c.s.segmentStartWallMs)
    (mono : c'.s.segmentStartMonoNs = c.s.segmentStartMonoNs) : SegmentStays c c' :=
  ⟨Nat.le_of_eq next.symm, .inr ⟨fp, wall, mono⟩⟩

theorem SegmentKnown.refl (ev : RecorderEvent) (c : Ctx) : SegmentKnown ev c c :=
  ⟨Nat.le_refl _, fun _ held => .inl ⟨held, rfl, rfl⟩⟩

theorem SegmentKnown.stays (known : SegmentKnown ev base c) (stays : SegmentStays c c') :
    SegmentKnown ev base c' where
  next := Nat.le_trans known.next stays.next
  segment := by
    intro file held
    rcases stays.segment with none | ⟨fp, wall, mono⟩
    · rw [none] at held
      cases held
    · rw [wall, mono]
      exact known.segment file (fp.symm.trans held)

theorem stays_walk : Walk SegmentStays where
  refl := .refl
  trans := .trans
  shared _ _ := .of_fields rfl rfl rfl rfl
  call _ _ _ := .of_fields rfl rfl rfl rfl
  store _ _ _ _ := .of_fields rfl rfl rfl rfl
  paths _ _ _ := .of_fields rfl rfl rfl rfl
  written _ _ _ := .of_fields rfl rfl rfl rfl
  waits _ := .of_fields rfl rfl rfl rfl

section Operations
variable (c : Ctx)

theorem recorderRequestIdr_stays (reason : IdrReason) (nowNs : UInt64) (force : Bool) :
    SegmentStays c (recorderRequestIdr cfg reason nowNs force c) := by
  unfold recorderRequestIdr
  split
  · exact .refl c
  · split
    · exact .refl c
    · exact .of_fields rfl rfl rfl rfl

theorem periodicIdr_stays (nowNs : UInt64) :
    SegmentStays c (recorderMaybeRequestPeriodicIdr cfg nowNs c) := by
  refine maybeRequestPeriodicIdr_of_fire (SegmentStays c)
    (fun stays => stays.trans (.of_fields rfl rfl rfl rfl)) ?_ (.refl c)
  intro d stays
  refine stays.trans ?_
  unfold firePeriodicIdr
  split
  · exact .refl d
  split
  · exact .of_fields rfl rfl rfl rfl
  · exact (recorderRequestIdr_stays d ..).trans (.of_fields rfl rfl rfl rfl)

theorem closeSegment_stays (answers : CloseAnswers) (finalize : Bool) :
    SegmentStays c (closeSegment cfg answers finalize c).1 := by
  refine ⟨?_, .inl (closeSegment_idle cfg answers finalize c).1⟩
  unfold closeSegment
  split
  · exact Nat.le_refl _
  · dsimp only
    split
    · unfold renameSegment recorderRecheckMountAfterError
      split
      · exact Nat.le_refl _
      · dsimp only
        split <;> exact Nat.le_refl _
    · split
      · unfold unlinkSegment
        split <;> exact Nat.le_refl _
      · exact Nat.le_refl _

theorem discardSegment_stays (answers : Answers) : SegmentStays c (discardSegment cfg answers c) :=
  .trans (closeSegment_stays c ..) (.of_fields rfl rfl rfl rfl)

theorem beginSegment_stays (ev : RecorderEvent) (answers : Answers) :
    SegmentStays c (beginSegment cfg ev answers c) :=
  stays_walk.beginSegment ev answers (fun d => discardSegment_stays d answers) c

end Operations

/-- The segment that open_segment opens has the clocks of the event. -/
theorem SegmentKnown.openSegment (known : SegmentKnown ev base c) (answers : OpenAnswers) :
    SegmentKnown ev base (openSegment cfg answers ev.wallMs ev.monoNs c).1 := by
  apply stays_walk.openSegment answers ev.wallMs ev.monoNs c
  · exact fun d paths => known.stays paths
  · intro d paths
    have before := Nat.le_trans known.next paths.next
    refine ⟨Nat.le_succ_of_le before, ?_⟩
    rintro file ⟨⟩
    exact .inr ⟨before, rfl, rfl⟩
  · intro d paths
    have lost : SegmentStays d d.fopenFailed := ⟨Nat.le_refl _, .inl rfl⟩
    exact (known.stays paths).stays (lost.trans (stays_walk.noteError ..))

theorem SegmentKnown.videoBegin (known : SegmentKnown ev base c) (answers : Answers) :
    SegmentKnown ev base (videoBegin cfg ev answers c) := by
  have opened : SegmentKnown ev base (Recorder.openSegment cfg answers.open_ ev.wallMs ev.monoNs c).1 :=
    known.openSegment answers.open_
  unfold Recorder.videoBegin
  dsimp only
  split
  · exact opened.stays (beginSegment_stays ..)
  · exact opened

theorem SegmentKnown.videoRollover (known : SegmentKnown ev base c) (answers : Answers) :
    SegmentKnown ev base (videoRollover cfg ev answers c) := by
  have closed : SegmentStays c (closeSegment cfg answers.finish true c).1 := closeSegment_stays ..
  have opened : SegmentKnown ev base (Recorder.openSegment cfg answers.open_ ev.wallMs ev.monoNs
      (closeSegment cfg answers.finish true c).1).1 := (known.stays closed).openSegment answers.open_
  unfold Recorder.videoRollover
  dsimp only
  split
  · exact opened.stays (beginSegment_stays ..)
  · exact opened.stays (.of_fields rfl rfl rfl rfl)

theorem videoMark_stays (ev : RecorderEvent) (keyframe ready : Bool) (c : Ctx) :
    SegmentStays c (videoMark cfg ev keyframe ready c) := by
  have flagged : SegmentStays c {c with s.rolloverPending := true} := .of_fields rfl rfl rfl rfl
  unfold videoMark
  split
  · dsimp only
    split
    · exact flagged.trans (recorderRequestIdr_stays ..)
    · exact flagged
  · exact .refl c

theorem videoAppend_stays (ev : RecorderEvent) (answers : Answers) (c : Ctx) :
    SegmentStays c (videoAppend cfg ev answers c) := by
  unfold videoAppend
  split
  · exact .refl c
  · have packet : SegmentStays c (writeSegmentPacket cfg answers.write ev.data c).1 :=
      stays_walk.writeSegmentPacket ..
    dsimp only
    split
    · exact packet
    · exact packet.trans ((discardSegment_stays ..).trans (recorderRequestIdr_stays ..))

theorem videoAwaitRollover_stays (cfg : Config) (ev : RecorderEvent) (ready : Bool) (c : Ctx) :
    SegmentStays c (videoAwaitRollover cfg ev ready c) := by
  unfold videoAwaitRollover
  split
  · exact recorderRequestIdr_stays ..
  · exact .refl c

theorem SegmentKnown.videoRecording (known : SegmentKnown ev base c) (answers : Answers)
    (keyframe ready : Bool) :
    SegmentKnown ev base (videoRecording cfg ev answers keyframe ready c) := by
  have marked : SegmentKnown ev base (videoMark cfg ev keyframe ready c) :=
    known.stays (videoMark_stays ..)
  unfold Recorder.videoRecording
  dsimp only
  split
  · exact marked.videoRollover answers
  · have awaited := marked.stays
      (videoAwaitRollover_stays cfg ev ready (videoMark cfg ev keyframe ready c))
    exact (awaited.stays (periodicIdr_stays ..)).stays (videoAppend_stays ..)

theorem processVideo_known (ev : RecorderEvent) (answers : Answers) (c : Ctx) :
    SegmentKnown ev c (processVideo cfg ev answers c) := by
  have analyzed : SegmentStays c (c.analyze ev answers) := by
    refine .of_fields rfl ?_ ?_ ?_ <;> rw [analyze_segment]
  have available : SegmentStays (c.analyze ev answers)
      (recorderStorageAvailable cfg answers.mounts ev.monoNs (c.analyze ev answers)).1 :=
    stays_walk.storageAvailable ..
  have stored := (SegmentKnown.refl ev c).stays (analyzed.trans available)
  unfold processVideo
  split
  · exact .refl ev c
  · dsimp only
    split
    · exact stored.stays (stays_walk.skipUnmounted ..)
    split
    · unfold videoWaiting
      split
      · exact stored.stays (recorderRequestIdr_stays ..)
      · exact stored.videoBegin answers
    · exact stored.videoRecording answers _ _

/-- A session begins and ends without a segment. -/
theorem processEvent_known (ev : RecorderEvent) (answers : Answers) (c : Ctx) (file : Nat)
    (held : (processEvent cfg ev answers c).s.fp = some file) :
    (c.s.fp = some file ∧
        (processEvent cfg ev answers c).s.segmentStartWallMs = c.s.segmentStartWallMs ∧
        (processEvent cfg ev answers c).s.segmentStartMonoNs = c.s.segmentStartMonoNs) ∨
      (c.w.store.next ≤ file ∧
        (processEvent cfg ev answers c).s.segmentStartWallMs = ev.wallMs ∧
        (processEvent cfg ev answers c).s.segmentStartMonoNs = ev.monoNs) := by
  unfold processEvent at held ⊢
  cases type : ev.type with
  | streamStart =>
    simp only [type, start_idle] at held
    cases held
  | video =>
    simp only [type] at held ⊢
    exact (processVideo_known ev answers c).segment file held
  | streamStop =>
    simp only [type] at held
    cases held

section Runs
variable (cfg)

/-- The stream has this file open. -/
def Machine.Holds (m : Machine) (stream file : Nat) : Prop := (m.streams stream).fp = some file

/-- The event that opened the segment a stream has after these events. -/
def SegmentOpenedBy (mounts : List MntEnt) (startNs : UInt64) (stream : Nat) (past : List Input)
    (opening : Input) : Prop :=
  ∃ file, Run.Since (step cfg) (start cfg mounts startNs) (fun m => m.Holds stream file) past opening

variable {cfg} {stream : Nat}

theorem SegmentOpenedBy.unique {mounts : List MntEnt} {startNs : UInt64} {past : List Input}
    {opening other : Input} (opened : SegmentOpenedBy cfg mounts startNs stream past opening)
    (again : SegmentOpenedBy cfg mounts startNs stream past other) : opening = other := by
  obtain ⟨file, since⟩ := opened
  obtain ⟨file', since'⟩ := again
  obtain rfl := Option.some.inj (since.now.symm.trans since'.now)
  exact since.unique since'

/-- An open segment was opened by an event of the run, with whose clocks the record starts. -/
theorem run_opened (valid : validStream cfg stream = true) (mounts : List MntEnt) (startNs : UInt64)
    (past : List Input) {file : Nat} (held : (run cfg mounts startNs past).Holds stream file) :
    ∃ opening, SegmentOpenedBy cfg mounts startNs stream past opening ∧
      ((run cfg mounts startNs past).streams stream).segmentStartWallMs = opening.event.wallMs ∧
      ((run cfg mounts startNs past).streams stream).segmentStartMonoNs = opening.event.monoNs := by
  have invariant := Run.history (step cfg) (start cfg mounts startNs)
    (fun past m => ∀ file, m.Holds stream file → ∃ opening,
      Run.Since (step cfg) (start cfg mounts startNs) (fun m => m.Holds stream file) past opening ∧
      (m.streams stream).segmentStartWallMs = opening.event.wallMs ∧
      (m.streams stream).segmentStartMonoNs = opening.event.monoNs)
    ?_ ?_ past file held
  · obtain ⟨opening, since, clocks⟩ := invariant
    exact ⟨opening, ⟨file, since⟩, clocks⟩
  · rintro file ⟨⟩
  · intro past input before file held
    have ledger := ledger_run cfg mounts startNs past
    have now : (fun m : Machine => m.Holds stream file)
        (Run.run (step cfg) (start cfg mounts startNs) (past ++ [input])) := by
      rw [Run.run_snoc]
      exact held
    by_cases own : input.event.streamId = stream
    · have record := (@step_own cfg stream (run cfg mounts startNs past) input valid own).1
      have holds : (processEvent cfg input.event input.answers
          ((run cfg mounts startNs past).ctx stream)).s.fp = some file :=
        (congrArg RecorderStream.fp record).symm.trans held
      have wall := congrArg RecorderStream.segmentStartWallMs record
      have mono := congrArg RecorderStream.segmentStartMonoNs record
      rcases processEvent_known _ _ _ file holds with ⟨kept, sameWall, sameMono⟩ | ⟨new, clocks⟩
      · obtain ⟨opening, since, before⟩ := before file kept
        exact ⟨opening, since.continues now, (wall.trans sameWall).trans before.1,
          (mono.trans sameMono).trans before.2⟩
      · have fresh : ¬(run cfg mounts startNs past).Holds stream file :=
          fun old => Nat.not_lt.mpr new (ledger.lt stream file old)
        exact ⟨input, .begins fresh now, wall.trans clocks.1, mono.trans clocks.2⟩
    · have record := @step_other cfg stream (run cfg mounts startNs past) input own
      have kept : (run cfg mounts startNs past).Holds stream file :=
        (congrArg RecorderStream.fp record).symm.trans held
      obtain ⟨opening, since, before⟩ := before file kept
      exact ⟨opening, since.continues now,
        (congrArg RecorderStream.segmentStartWallMs record).trans before.1,
        (congrArg RecorderStream.segmentStartMonoNs record).trans before.2⟩

section Rollover
variable (cfg)

/-- A packet comes to the test whether a rollover is due: its stream records into a segment and
does not wait for a key frame to roll over at. -/
structure TestsRollover (m : Machine) (stream : Nat) (input : Input) : Prop where
  own : input.event.streamId = stream
  video : input.event.type = .video
  taken : takesVideo (m.streams stream) input.event = true
  stored : storageUnavailable cfg m.r input.answers.mounts input.event.monoNs = false
  recording : (m.streams stream).waitingKeyframe = false
  calm : (m.streams stream).rolloverPending = false
  holds : (m.streams stream).fp ≠ none

/-- process_video sets `rollover_pending` for this packet. -/
def StartsRollover (m : Machine) (stream : Nat) (input : Input) : Prop :=
  let c := m.ctx stream
  let keyframe := (analyzePayload input.answers.malloc c.s input.event.data).2.hasKeyframe
  let ready := paramsReady (c.analyze input.event input.answers).s
  let storage := recorderStorageAvailable cfg input.answers.mounts input.event.monoNs
    (c.analyze input.event input.answers)
  input.event.streamId = stream ∧ input.event.type = .video ∧ takesVideo c.s input.event = true ∧
    storage.2 = true ∧ storage.1.s.waitingKeyframe = false ∧ storage.1.s.rolloverPending = false ∧
    (videoMark cfg input.event keyframe ready storage.1).s.rolloverPending = true

theorem startsRollover_iff (m : Machine) (stream : Nat) (input : Input) :
    StartsRollover cfg m stream input ↔ TestsRollover cfg m stream input ∧
      shouldRollover cfg (m.streams stream) input.event.wallMs = true := by
  have record : (recorderStorageAvailable cfg input.answers.mounts input.event.monoNs
      ((m.ctx stream).analyze input.event input.answers)).1.s =
        {m.streams stream with
          params := ((m.ctx stream).analyze input.event input.answers).s.params} :=
    (storageAvailable_stream ..).trans (analyze_segment ..)
  have due : shouldRollover cfg {m.streams stream with
      params := ((m.ctx stream).analyze input.event input.answers).s.params} input.event.wallMs =
        shouldRollover cfg (m.streams stream) input.event.wallMs := rfl
  have stored : (recorderStorageAvailable cfg input.answers.mounts input.event.monoNs
      ((m.ctx stream).analyze input.event input.answers)).2 =
        !storageUnavailable cfg m.r input.answers.mounts input.event.monoNs := storageAvailable_eq ..
  unfold StartsRollover
  dsimp only
  rw [videoMark_pending, record, stored, due]
  constructor
  · rintro ⟨own, video, taken, available, recording, calm, marked⟩
    rw [calm, Bool.false_or] at marked
    refine ⟨⟨own, video, taken, by simpa using available, recording, calm, fun idle => ?_⟩, marked⟩
    simp [shouldRollover, idle] at marked
  · rintro ⟨tests, marked⟩
    exact ⟨tests.own, tests.video, tests.taken, by simp [tests.stored], tests.recording, tests.calm,
      by rw [marked, Bool.or_true]⟩

/-- The clocks that an event carries, of which either may be meant by how long a segment lasts. -/
inductive Clock where
  | wall
  | mono
  deriving DecidableEq, Repr

def Clock.readingNs : Clock → RecorderEvent → Nat
  | .wall, ev => ev.wallMs.toNat * 1000000
  | .mono, ev => ev.monoNs.toNat

def Config.segmentNs : Nat := cfg.segmentSec.toNat * 1000000000

/-- `segment_sec` seconds or more lie between the events. -/
def Lasts (clock : Clock) (opening ev : RecorderEvent) : Prop :=
  clock.readingNs opening + cfg.segmentNs ≤ clock.readingNs ev

/-- A rollover starts only when the segment has lasted `segment_sec` seconds. -/
def RolloversTimely (mounts : List MntEnt) (startNs : UInt64) (stream : Nat) (inputs : List Input)
    (clock : Clock) : Prop :=
  ∀ past input rest, inputs = past ++ input :: rest →
    StartsRollover cfg (run cfg mounts startNs past) stream input →
    ∃ opening, SegmentOpenedBy cfg mounts startNs stream past opening ∧
      Lasts cfg clock opening.event input.event

/-- For a packet that comes too early by the clock, the difference of the wall clock to the opening
is not taken for a long time either, as it is when the wall clock was set back. -/
def WallSteady (mounts : List MntEnt) (startNs : UInt64) (stream : Nat) (inputs : List Input)
    (clock : Clock) : Prop :=
  ∀ past input rest, inputs = past ++ input :: rest →
    TestsRollover cfg (run cfg mounts startNs past) stream input →
    ∀ opening, SegmentOpenedBy cfg mounts startNs stream past opening →
      ¬Lasts cfg clock opening.event input.event →
      cfg.segmentSec = 0 ∨ opening.event.wallMs = 0 ∨
        input.event.wallMs - opening.event.wallMs < cfg.segmentSec.toUInt64 * 1000

variable {cfg}

/-- What should_rollover comes to, by the event that opened the segment. -/
theorem shouldRollover_iff {m : Machine} {opening ev : RecorderEvent}
    (holds : (m.streams stream).fp ≠ none)
    (opened : (m.streams stream).segmentStartWallMs = opening.wallMs) :
    shouldRollover cfg (m.streams stream) ev.wallMs = true ↔
      ¬(cfg.segmentSec = 0 ∨ opening.wallMs = 0 ∨
        ev.wallMs - opening.wallMs < cfg.segmentSec.toUInt64 * 1000) := by
  unfold shouldRollover
  rw [opened]
  split
  next off => simp [off.resolve_left holds, ← or_assoc]
  next on =>
    obtain ⟨-, seconds, zero⟩ := (not_or.mp on).imp_right not_or.mp
    simp [seconds, zero]

theorem TestsRollover.valid {mounts : List MntEnt} {startNs : UInt64} {past : List Input}
    {input : Input} (tests : TestsRollover cfg (run cfg mounts startNs past) stream input) :
    validStream cfg stream = true := by
  obtain ⟨file, held⟩ := Option.ne_none_iff_exists'.mp tests.holds
  exact (ledger_run cfg mounts startNs past).valid stream file held

/-- For a packet tested there is an opening, and all that should_rollover asks is about it. -/
theorem TestsRollover.opened {mounts : List MntEnt} {startNs : UInt64} {past : List Input}
    {input : Input} (tests : TestsRollover cfg (run cfg mounts startNs past) stream input) :
    ∃ opening, SegmentOpenedBy cfg mounts startNs stream past opening ∧
      (StartsRollover cfg (run cfg mounts startNs past) stream input ↔
        ¬(cfg.segmentSec = 0 ∨ opening.event.wallMs = 0 ∨
          input.event.wallMs - opening.event.wallMs < cfg.segmentSec.toUInt64 * 1000)) := by
  obtain ⟨file, held⟩ := Option.ne_none_iff_exists'.mp tests.holds
  obtain ⟨opening, opened, wall, -⟩ := run_opened tests.valid mounts startNs past held
  refine ⟨opening, opened, ?_⟩
  rw [startsRollover_iff, and_iff_right tests, shouldRollover_iff tests.holds wall]

/-- By either clock, in every run whatever the clocks do, rollovers start in time exactly when no
packet that comes too early finds the wall clock's unsigned difference long enough. -/
theorem rolloversTimely_iff (cfg : Config) (mounts : List MntEnt) (startNs : UInt64) (stream : Nat)
    (inputs : List Input) (clock : Clock) :
    RolloversTimely cfg mounts startNs stream inputs clock ↔
      WallSteady cfg mounts startNs stream inputs clock := by
  constructor
  · intro timely past input rest split tests opening opened early
    obtain ⟨first, opened', starts⟩ := tests.opened
    obtain rfl := opened.unique opened'
    by_contra due
    obtain ⟨other, again, lasts⟩ := timely past input rest split (starts.mpr due)
    obtain rfl := opened.unique again
    exact early lasts
  · intro steady past input rest split starting
    have tests := ((startsRollover_iff cfg _ stream input).mp starting).1
    obtain ⟨opening, opened, starts⟩ := tests.opened
    refine ⟨opening, opened, ?_⟩
    by_contra early
    exact starts.mp starting (steady past input rest split tests opening opened early)

/-- A wall clock that is never found behind the opening does no harm to the times it tells. -/
theorem wallSteady_of_forward {mounts : List MntEnt} {startNs : UInt64} {inputs : List Input}
    (forward : ∀ past input rest, inputs = past ++ input :: rest →
      TestsRollover cfg (run cfg mounts startNs past) stream input →
      ∀ opening, SegmentOpenedBy cfg mounts startNs stream past opening →
        opening.event.wallMs ≤ input.event.wallMs) :
    WallSteady cfg mounts startNs stream inputs .wall := by
  intro past input rest split tests opening opened early
  have ahead := forward past input rest split tests opening opened
  have small := cfg.segmentSec.toNat_lt
  have limit : (cfg.segmentSec.toUInt64 * 1000).toNat = cfg.segmentSec.toNat * 1000 := by
    have thousand : (1000 : UInt64).toNat = 1000 := rfl
    rw [UInt64.toNat_mul, UInt32.toNat_toUInt64, thousand]
    exact Nat.mod_eq_of_lt (by omega)
  refine .inr (.inr (UInt64.lt_iff_toNat_lt.mpr ?_))
  rw [UInt64.toNat_sub_of_le _ _ ahead, limit]
  have before : opening.event.wallMs.toNat ≤ input.event.wallMs.toNat :=
    UInt64.le_iff_toNat_le.mp ahead
  simp only [Lasts, Clock.readingNs, Config.segmentNs] at early
  omega

/-- The wall clock is set back by a millisecond in the second after a segment was opened. -/
def setBackInputs : List Input :=
  let packet := videoAt 1 6000 slicePacket
  [startAt 1 1000, videoAt 1 5000 keyPacket, {packet with event.wallMs := 4999}]

/-- It starts a rollover, by either clock long before the minute of a segment is over. -/
theorem setBack_rolls_over :
    ¬RolloversTimely (sampleConfig false) [] 1 1 setBackInputs .wall ∧
      ¬RolloversTimely (sampleConfig false) [] 1 1 setBackInputs .mono := by
  have tests : TestsRollover (sampleConfig false)
      (run (sampleConfig false) [] 1 (setBackInputs.take 2)) 1 (setBackInputs.getLast (by decide)) :=
    ⟨rfl, rfl, by decide, by decide, by decide, by decide, by decide⟩
  have starts : StartsRollover (sampleConfig false)
      (run (sampleConfig false) [] 1 (setBackInputs.take 2)) 1 (setBackInputs.getLast (by decide)) :=
    (startsRollover_iff ..).mpr ⟨tests, by decide⟩
  have held : (run (sampleConfig false) [] 1 (setBackInputs.take 2)).Holds 1 0 := by
    show _ = _
    decide
  obtain ⟨opening, opened, wall, mono⟩ := run_opened (by decide) [] 1 (setBackInputs.take 2) held
  have wall : 5000 = opening.event.wallMs := .trans (by decide) wall
  have mono : 5000000000 = opening.event.monoNs := .trans (by decide) mono
  constructor
  · intro timely
    obtain ⟨other, again, lasts⟩ := timely (setBackInputs.take 2) _ [] rfl starts
    obtain rfl := opened.unique again
    simp only [Lasts, Clock.readingNs, ← wall] at lasts
    exact absurd lasts (by decide)
  · intro timely
    obtain ⟨other, again, lasts⟩ := timely (setBackInputs.take 2) _ [] rfl starts
    obtain rfl := opened.unique again
    simp only [Lasts, Clock.readingNs, ← mono] at lasts
    exact absurd lasts (by decide)

end Rollover

end Runs

end StreamRelay.Recorder
