import StreamRelay.Recorder.Calls
import StreamRelay.Recorder.Ledger

/-! Segment ownership. A stream that waits for a key frame should hold no file, so
that open_segment never overwrites a handle. One path breaks this: a packet
skipped for want of storage sets the flag while the segment stays open. -/
namespace StreamRelay.Recorder

variable (cfg : Config)

def Waits (s : RecorderStream) : Prop := s.waitingKeyframe = true → s.fp = none

/-- The calls with which no open file is lost. -/
def Call.Spares (call : Call) : Prop :=
  ∀ stream held, call = .openSegment stream held → held = none

theorem spares_other : AdmitsOther Call.Spares where
  soft := by
    rintro call soft stream held rfl
    exact soft.elim
  closing := by
    rintro call closing stream held rfl
    exact closing.elim

theorem spares_admits (ev : RecorderEvent) (answers : Answers) :
    Admits cfg Call.Spares ev answers where
  toAdmitsOther := spares_other
  quiet := by
    rintro call quiet stream held rfl
    exact quiet.elim
  fopen := by
    rintro - codec file - stream held same
    cases same
  fwrite := by
    rintro file part data answer - stream held same
    cases same

section Waits

variable {c c' : Ctx}

theorem Waits.soft (waits : Waits c.s) (soft : Soft c c') : Waits c'.s := by
  intro waiting
  rw [soft.segment.fp]
  exact waits (soft.waiting ▸ waiting)

theorem Waits.of_none {s : RecorderStream} (idle : s.fp = none) : Waits s := fun _ => idle

theorem Waits.of_recording {s : RecorderStream} (recording : s.waitingKeyframe = false) :
    Waits s := by
  intro waiting
  rw [recording] at waiting
  cases waiting

theorem discardSegment_waits (answers : Answers) (c : Ctx) :
    Waits (discardSegment cfg answers c).s :=
  .of_none (closeSegment_idle cfg answers.discard false c).1

theorem beginSegment_waits (ev : RecorderEvent) (answers : Answers) (file : Nat)
    (holds : c.s.fp = some file) (recording : c.s.waitingKeyframe = false)
    (nonempty : ev.data ≠ []) : Waits (beginSegment cfg ev answers c).s := by
  obtain ⟨writes, -, result⟩ := beginSegment_cases cfg ev answers c file holds nonempty
  rcases result with ⟨-, -, soft⟩ | ⟨d, same, -⟩
  · refine .of_recording ?_
    rw [soft.waiting, (fwrites_frame file c writes).2.1, recording]
  · rw [same]
    exact discardSegment_waits cfg answers d

/-- Opening from a stream that holds nothing. -/
theorem openBegin_waits (idle : c.s.fp = none) (ext : c.s.ext = codecExt c.s.codec)
    (valid : c.s.streamId ≤ maxStreamsLimit) (ev : RecorderEvent) (answers : Answers)
    (nonempty : ev.data ≠ []) :
    let opened := openSegment cfg answers.open_ ev.wallMs ev.monoNs c
    (opened.2 = false → opened.1.s.fp = none) ∧
      (opened.2 = true → Waits (beginSegment cfg ev answers opened.1).s) := by
  rcases openSegment_cases cfg answers.open_ ev.wallMs ev.monoNs c ext valid with
    ⟨result, failed⟩ | ⟨result, opened⟩
  · refine ⟨fun _ => ?_, fun done => absurd (done.symm.trans result) (by decide)⟩
    rcases failed.segment with kept | lost
    · exact kept.fp.trans idle
    · exact lost
  · exact ⟨fun failed => absurd (failed.symm.trans result) (by decide),
      fun _ => beginSegment_waits cfg ev answers _ opened.fp opened.waiting nonempty⟩

theorem videoAppend_waits (ev : RecorderEvent) (answers : Answers)
    (recording : c.s.waitingKeyframe = false) (nonempty : ev.data ≠ []) :
    Waits (videoAppend cfg ev answers c).s := by
  unfold videoAppend
  cases holds : c.s.fp with
  | none => exact .of_none holds
  | some file =>
    obtain ⟨writes, -, result⟩ :=
      writeSegmentPacket_cases cfg answers.write ev.data c file holds nonempty
    rcases result with ⟨result, -, -, soft⟩ | ⟨result, -, soft⟩
    · simp only [reduceCtorEq, if_false, result, if_true]
      refine .of_recording ?_
      rw [soft.waiting, (fwrites_frame file c writes).2.1, recording]
    · simp only [reduceCtorEq, if_false, result, Bool.false_eq_true]
      exact (discardSegment_waits cfg answers _).soft (requestIdr_soft cfg _ _ _ _)

end Waits

/-- What recorder_storage_available finds missing, as a condition on the state. -/
def storageUnavailable (r : CompressedRecorder) (mounts : List MntEnt) (nowNs : UInt64) : Bool :=
  cfg.requireNfsMount && !r.nfsMounted &&
    !(mountCheckDue r nowNs && pathHasNfsMount cfg.recordDir mounts)

theorem storageAvailable_eq (mounts : List MntEnt) (nowNs : UInt64) (c : Ctx) :
    (recorderStorageAvailable cfg mounts nowNs c).2 = !storageUnavailable cfg c.r mounts nowNs := by
  unfold recorderStorageAvailable storageUnavailable
  cases cfg.requireNfsMount <;> cases c.r.nfsMounted <;> cases mountCheckDue c.r nowNs <;> simp

/-- A packet of a stream with an open segment that is skipped for want of storage. -/
def SkipsOpen (m : Machine) (input : Input) : Prop :=
  validStream cfg input.event.streamId = true ∧ input.event.type = .video ∧
    takesVideo (m.streams input.event.streamId) input.event = true ∧
    (m.streams input.event.streamId).fp ≠ none ∧
    storageUnavailable cfg m.r input.answers.mounts input.event.monoNs = true

/-- A packet keeps the flag in step with the handle unless it is skipped with the
segment open. -/
theorem processVideo_waits {stream : Nat} {c : Ctx} (ev : RecorderEvent) (answers : Answers)
    (armed : takesVideo c.s ev = true → Armed stream c.s) (valid : stream ≤ maxStreamsLimit)
    (waits : Waits c.s) :
    Waits (processVideo cfg ev answers c).s ↔
      ¬ (takesVideo c.s ev = true ∧ c.s.fp ≠ none ∧
        storageUnavailable cfg c.r answers.mounts ev.monoNs = true) := by
  have analyzed := analyze_segment c ev answers
  have analyzedWaits : Waits (c.analyze ev answers).s := by
    rw [analyzed]
    exact waits
  have fp (d : Ctx) (soft : Soft (c.analyze ev answers) d) : d.s.fp = c.s.fp := by
    rw [soft.segment.fp, analyzed]
  have waiting (d : Ctx) (soft : Soft (c.analyze ev answers) d) :
      d.s.waitingKeyframe = c.s.waitingKeyframe := by
    rw [soft.waiting, analyzed]
  have rearmed (d : Ctx) (soft : Soft (c.analyze ev answers) d) (taken : takesVideo c.s ev = true) :
      Armed stream d.s := by
    have was := armed taken
    refine Armed.same ⟨?_, ?_, ?_⟩ soft.stream <;> rw [analyzed]
    exacts [was.1, was.2, was.3]
  have stored : (recorderStorageAvailable cfg answers.mounts ev.monoNs (c.analyze ev answers)).2 =
      !storageUnavailable cfg c.r answers.mounts ev.monoNs := storageAvailable_eq ..
  rcases processVideo_cases cfg ev answers c with ⟨untaken, same⟩ | ⟨taken, lacking, d, before, after⟩ |
    ⟨taken, flag, soft⟩ | ⟨taken, has, flag, -, -, d, soft, same⟩ |
    ⟨taken, has, -, -, -, d, soft, same⟩ | ⟨taken, has, flag, d, soft, same⟩
  · rw [same, untaken]
    simpa using waits
  · rw [lacking] at stored
    have unavailable : storageUnavailable cfg c.r answers.mounts ev.monoNs = true := by
      simpa using stored.symm
    have after_fp : (processVideo cfg ev answers c).s.fp = c.s.fp :=
      after.segment.fp.trans (fp d before)
    have after_waiting : (processVideo cfg ev answers c).s.waitingKeyframe = true := after.waiting
    constructor
    · rintro kept ⟨-, holding, -⟩
      exact holding (after_fp ▸ kept after_waiting)
    · intro unheld
      refine .of_none (after_fp.trans ?_)
      by_contra holding
      exact unheld ⟨taken, holding, unavailable⟩
  · refine iff_of_true (analyzedWaits.soft soft) ?_
    rintro ⟨-, holding, -⟩
    exact holding (waits flag)
  all_goals
    rw [has] at stored
    have available : storageUnavailable cfg c.r answers.mounts ev.monoNs = false := by
      simpa using stored.symm
    refine iff_of_true ?_ (by rw [available]; simp)
    have nonempty := ((takesVideo_iff _ _).mp taken).1
    have ready := rearmed d soft taken
    rw [same]
  · have opened := openBegin_waits cfg ((fp d soft).trans (waits flag)) ready.ext
      (ready.streamId ▸ valid) ev answers nonempty
    unfold videoBegin
    simp only
    split
    · next result => exact opened.2 result
    · next result => exact .of_none (opened.1 (by simpa using result))
  · obtain ⟨idle, kept⟩ := closeSegment_idle cfg answers.finish true d
    have opened := openBegin_waits cfg idle (ready.same kept).ext
      ((ready.same kept).streamId ▸ valid) ev answers nonempty
    unfold videoRollover
    simp only
    split
    · next result => exact opened.2 result
    · next result => exact .of_none (opened.1 (by simpa using result))
  · exact videoAppend_waits cfg ev answers ((waiting d soft).trans flag) nonempty

theorem start_idle (ev : RecorderEvent) (answers : Answers) (c : Ctx) :
    (processStreamStart cfg ev answers c).s.fp = none := by
  simp only [processStreamStart]
  split
  · rfl
  split
  · rfl
  · exact (requestIdr_soft cfg _ _ _ _).segment.fp

def AllWait (m : Machine) : Prop := ∀ stream, Waits (m.streams stream)

/-- One step keeps waiting streams without a file exactly if it skips no packet of
an open segment. -/
theorem step_waits {m : Machine} (ledger : Ledger cfg m) (waits : AllWait m) (input : Input) :
    AllWait (step cfg m input) ↔ ¬ SkipsOpen cfg m input := by
  unfold step SkipsOpen
  cases valid : validStream cfg input.event.streamId
  · exact iff_of_true waits (by simp)
  simp only [if_true, true_and]
  have others (c : Ctx) : AllWait (m.install input.event.streamId c).tick ↔ Waits c.s := by
    constructor
    · intro all
      have own := all input.event.streamId
      rwa [Machine.tick_streams, Machine.install_self] at own
    · intro own stream
      rw [Machine.tick_streams]
      by_cases same : stream = input.event.streamId
      · rw [same, Machine.install_self]
        exact own
      · rw [Machine.install_other _ _ _ _ same]
        exact waits stream
  rw [Machine.onStream, others]
  unfold processEvent
  cases type : input.event.type with
  | streamStart =>
    refine iff_of_true (.of_none (start_idle cfg _ _ _)) ?_
    rintro ⟨video, -⟩
    cases video
  | streamStop =>
    refine iff_of_true (.of_none rfl) ?_
    rintro ⟨video, -⟩
    cases video
  | video =>
    simp only [true_and]
    exact processVideo_waits cfg input.event input.answers (ledger.taken cfg _ _)
      (valid_le cfg _ valid) (waits input.event.streamId)

theorem step_spares {m : Machine} (ledger : Ledger cfg m) (waits : AllWait m) (input : Input)
    (spared : ∀ entry ∈ m.w.log, entry.call.Spares) :
    ∀ entry ∈ (step cfg m input).w.log, entry.call.Spares := by
  obtain ⟨calls, log, each, -⟩ := step_emits cfg ledger input (spares_admits cfg _ _)
    (fun _ _ _ waiting stream held same => by
      cases same
      exact waits input.event.streamId waiting)
    (fun _ _ _ same => by cases same; rfl)
  intro entry member
  rw [log] at member
  rcases List.mem_append.mp member with before | new
  · exact spared entry before
  · obtain ⟨call, listed, rfl⟩ := List.mem_map.mp new
    exact each call listed

/-- The segment files a log has opened. -/
def WasOpened (log : List Entry) (file : Nat) : Prop :=
  ∃ entry ∈ log, ∃ path, entry.call = .fopen path (some file)

/-- No handle is lost: a waiting stream holds none, open_segment was never entered
with one, and if the thread ends here every file opened has been closed once and
then renamed to its own final name or unlinked. -/
structure Owned (m : Machine) : Prop where
  waits : ∀ stream, (m.streams stream).waitingKeyframe = true → (m.streams stream).fp = none
  spared : ∀ entry ∈ m.w.log, ∀ stream held, entry.call = .openSegment stream held → held = none
  settled : ∀ answers file, WasOpened (shutdown cfg answers m).w.log file →
    Settled cfg file (entriesOf (shutdown cfg answers m).w.log file)

theorem owned_of_spared {m : Machine} (ledger : Ledger cfg m) (waits : AllWait m)
    (spared : ∀ entry ∈ m.w.log, entry.call.Spares) : Owned cfg m := by
  refine ⟨waits, spared, ?_⟩
  rintro answers file ⟨entry, member, path, opened⟩
  obtain ⟨last, done⟩ := shutdown_ledger cfg answers m ledger
  have own : entry ∈ entriesOf (shutdown cfg answers m).w.log file :=
    List.mem_filter.mpr ⟨member, by simp [opened, Call.file]⟩
  have bound : file < (shutdown cfg answers m).w.store.next := by
    by_contra past
    rw [last.fresh file (Nat.not_lt.mp past)] at own
    cases own
  rcases done file bound with settled | ⟨-, -, event, stream, marker⟩
  · exact settled
  · obtain ⟨calls, log, each, -, -⟩ := closeStreams_emits cfg spares_other answers
      (List.range' 1 cfg.maxStreams) m
    rw [shutdown, log] at marker
    rcases List.mem_append.mp marker with before | new
    · cases spared _ before stream (some file) rfl
    · obtain ⟨call, listed, same⟩ := List.mem_map.mp new
      cases each call listed stream (some file) (congrArg Entry.call same)

/-- The segments of all streams are owned in every state of a run exactly if no
packet of an open segment is skipped for want of storage. -/
theorem owned_iff (mounts : List MntEnt) (nowNs : UInt64) (inputs : List Input) :
    (∀ past rest, inputs = past ++ rest → Owned cfg (run cfg mounts nowNs past)) ↔
      Run.Always (step cfg) (start cfg mounts nowNs) (fun m input => ¬ SkipsOpen cfg m input)
        inputs := by
  have initial : AllWait (start cfg mounts nowNs) := fun _ waiting => by cases waiting
  constructor
  · rintro owned past input rest rfl skips
    have ledger := ledger_run cfg mounts nowNs past
    have before := (owned past (input :: rest) rfl).waits
    have after := (owned (past ++ [input]) rest (by simp)).waits
    rw [run, Run.run_snoc] at after
    exact (step_waits cfg ledger before input).mp after skips
  · rintro always past rest rfl
    obtain ⟨ledger, waits, spared⟩ := Run.history_while (step cfg) (start cfg mounts nowNs) _
      (fun _ m => Ledger cfg m ∧ AllWait m ∧ ∀ entry ∈ m.w.log, entry.call.Spares)
      ⟨ledger_start cfg mounts nowNs, initial, fun _ member => by cases member⟩
      (fun _ input kept allowed =>
        ⟨ledger_step cfg _ input kept.1, (step_waits cfg kept.1 kept.2.1 input).mpr allowed,
          step_spares cfg kept.1 kept.2.1 input kept.2.2⟩)
      past (Run.always_before _ _ always)
    exact owned_of_spared cfg ledger waits spared

/-- A write error of stream 2 takes the shared flag down while stream 1 records. -/
def skippingInputs : List Input :=
  let failing := {goodAnswers with
    write := {goodAnswers.write with payload := ⟨false, 0⟩, nowNs := 1300000000}}
  [startAt 1 1000, videoAt 1 1100 keyPacket, startAt 2 1200,
    {videoAt 2 1300 keyPacket with answers := failing}, videoAt 1 1500 keyPacket,
    videoAt 1 2400 keyPacket]

set_option maxRecDepth 10000 in
/-- The handle of stream 1's first file is overwritten and the file never closed. -/
theorem not_owned_skipping :
    let m := run (sampleConfig true) sampleMounts 1 skippingInputs
    ⟨5, .openSegment 1 (some 0)⟩ ∈ m.w.log ∧
      (∀ finalize ok, Call.fclose 0 finalize ok ∉
        (shutdown (sampleConfig true) (fun _ => goodClose) m).w.log.map Entry.call) ∧
      ¬ Owned (sampleConfig true) m := by
  have lost : ⟨5, .openSegment 1 (some 0)⟩ ∈
      (run (sampleConfig true) sampleMounts 1 skippingInputs).w.log := by decide
  refine ⟨lost, by decide, fun owned => ?_⟩
  cases owned.spared _ lost 1 (some 0) rfl

end StreamRelay.Recorder
