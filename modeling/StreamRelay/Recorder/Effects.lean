import StreamRelay.Recorder.Process
import StreamRelay.Recorder.Naming

/-! What each operation of the recorder does to the world, said once. An
operation is soft when it touches no file and no segment field; the others are
described by the calls they make, in order. -/
namespace StreamRelay.Recorder

/-- The availability flag after a call. -/
def gateAfter (mounted : Bool) : Call → Bool
  | .readMounts found => found
  | .recheckMounts _ => false
  | _ => mounted

/-- The calls made between two contexts, and the flag they leave. -/
structure Emits (c : Ctx) (calls : List Call) (c' : Ctx) : Prop where
  log : c'.w.log = c.w.log ++ calls.map (Entry.mk c.w.event)
  event : c'.w.event = c.w.event
  gate : c'.r.nfsMounted = calls.foldl gateAfter c.r.nfsMounted

theorem Emits.none {c c' : Ctx} (world : c'.w.log = c.w.log) (event : c'.w.event = c.w.event)
    (gate : c'.r.nfsMounted = c.r.nfsMounted) : Emits c [] c' :=
  ⟨by simpa using world, event, gate⟩

theorem Emits.refl (c : Ctx) : Emits c [] c := .none rfl rfl rfl

theorem Emits.trans {a b c : Ctx} {first second : List Call} (one : Emits a first b)
    (two : Emits b second c) : Emits a (first ++ second) c where
  log := by rw [two.log, one.log, one.event, List.map_append, List.append_assoc]
  event := by rw [two.event, one.event]
  gate := by rw [two.gate, one.gate, List.foldl_append]

/-- What a record says about its stream. -/
structure SameStream (s s' : RecorderStream) : Prop where
  streamId : s'.streamId = s.streamId
  codec : s'.codec = s.codec
  ext : s'.ext = s.ext
  active : s'.active = s.active
  enabled : s'.enabled = s.enabled
  params : s'.params = s.params

theorem SameStream.refl (s : RecorderStream) : SameStream s s := ⟨rfl, rfl, rfl, rfl, rfl, rfl⟩

theorem SameStream.trans {a b c : RecorderStream} (one : SameStream a b) (two : SameStream b c) :
    SameStream a c where
  streamId := two.streamId.trans one.streamId
  codec := two.codec.trans one.codec
  ext := two.ext.trans one.ext
  active := two.active.trans one.active
  enabled := two.enabled.trans one.enabled
  params := two.params.trans one.params

/-- What a record says about the segment it holds. -/
structure SameSegment (s s' : RecorderStream) : Prop where
  fp : s'.fp = s.fp
  tmpPath : s'.tmpPath = s.tmpPath
  finalPath : s'.finalPath = s.finalPath
  segmentStartWallMs : s'.segmentStartWallMs = s.segmentStartWallMs

theorem SameSegment.refl (s : RecorderStream) : SameSegment s s := ⟨rfl, rfl, rfl, rfl⟩

theorem SameSegment.trans {a b c : RecorderStream} (one : SameSegment a b) (two : SameSegment b c) :
    SameSegment a c where
  fp := two.fp.trans one.fp
  tmpPath := two.tmpPath.trans one.tmpPath
  finalPath := two.finalPath.trans one.finalPath
  segmentStartWallMs := two.segmentStartWallMs.trans one.segmentStartWallMs

/-- The shared counters that files are accounted for in. -/
structure SameCounts (r r' : CompressedRecorder) : Prop where
  writeErrors : r'.writeErrors = r.writeErrors
  segmentsClosed : r'.segmentsClosed = r.segmentsClosed

def Call.IsSoft : Call → Prop
  | .readMounts _ | .recheckMounts _ | .requestIdr .. => True
  | _ => False

/-- Calls on no file, apart from the marker of open_segment. -/
def Call.IsQuiet : Call → Prop
  | .openSegment .. => False
  | call => call.file = none

theorem Call.IsSoft.quiet {call : Call} (soft : call.IsSoft) : call.IsQuiet := by
  cases call <;> first | rfl | exact soft.elim

/-- No file, stream, segment or counter differs, and the wait for a key frame goes on. -/
structure Soft (c c' : Ctx) : Prop where
  calls : ∃ calls, Emits c calls c' ∧ ∀ call ∈ calls, call.IsSoft
  store : c'.w.store = c.w.store
  stream : SameStream c.s c'.s
  segment : SameSegment c.s c'.s
  waiting : c'.s.waitingKeyframe = c.s.waitingKeyframe
  counts : SameCounts c.r c'.r

theorem Soft.of_fields {c c' : Ctx} (world : c'.w = c.w) (stream : SameStream c.s c'.s)
    (segment : SameSegment c.s c'.s) (waiting : c'.s.waitingKeyframe = c.s.waitingKeyframe)
    (counts : SameCounts c.r c'.r) (gate : c'.r.nfsMounted = c.r.nfsMounted) : Soft c c' :=
  ⟨⟨[], .none (by rw [world]) (by rw [world]) gate, by simp⟩, by rw [world], stream, segment,
    waiting, counts⟩

theorem Soft.refl (c : Ctx) : Soft c c := .of_fields rfl (.refl _) (.refl _) rfl ⟨rfl, rfl⟩ rfl

theorem Soft.trans {a b c : Ctx} (one : Soft a b) (two : Soft b c) : Soft a c := by
  obtain ⟨first, firstEmits, firstSoft⟩ := one.calls
  obtain ⟨second, secondEmits, secondSoft⟩ := two.calls
  refine ⟨⟨first ++ second, firstEmits.trans secondEmits, ?_⟩, two.store.trans one.store,
    one.stream.trans two.stream, one.segment.trans two.segment, two.waiting.trans one.waiting,
    two.counts.1.trans one.counts.1, two.counts.2.trans one.counts.2⟩
  intro call member
  rcases List.mem_append.mp member with left | right
  · exact firstSoft call left
  · exact secondSoft call right

/-- One soft call, with fields changed that none of the above speaks of. -/
theorem Soft.of_call {c c' : Ctx} (call : Call) (soft : call.IsSoft) (emits : Emits c [call] c')
    (store : c'.w.store = c.w.store) (stream : SameStream c.s c'.s)
    (segment : SameSegment c.s c'.s) (waiting : c'.s.waitingKeyframe = c.s.waitingKeyframe)
    (counts : SameCounts c.r c'.r) : Soft c c' :=
  ⟨⟨[call], emits, by simpa using soft⟩, store, stream, segment, waiting, counts⟩

variable (cfg : Config)

section Soft

theorem storageAvailable_soft (mounts : List MntEnt) (nowNs : UInt64) (c : Ctx) :
    Soft c (recorderStorageAvailable cfg mounts nowNs c).1 := by
  unfold recorderStorageAvailable
  split
  · exact .refl c
  split
  · exact .refl c
  split
  · exact .of_call (.readMounts _) trivial ⟨rfl, rfl, rfl⟩ rfl (.refl _) (.refl _) rfl ⟨rfl, rfl⟩
  · exact .refl c

theorem recheck_soft (mounts : List MntEnt) (nowNs : UInt64) (c : Ctx) :
    Soft c (recorderRecheckMountAfterError cfg mounts nowNs c) := by
  unfold recorderRecheckMountAfterError
  split
  · exact .refl c
  · exact .of_call (.recheckMounts _) trivial ⟨rfl, rfl, rfl⟩ rfl (.refl _) (.refl _) rfl ⟨rfl, rfl⟩

/-- Skipping a packet is soft up to the return to waiting. -/
theorem skipUnmounted_soft (nowNs : UInt64) (c : Ctx) :
    Soft c.noteMountSkip.awaitKeyframe (recorderSkipUnmounted cfg nowNs c) := by
  unfold recorderSkipUnmounted logMountSkip
  split
  · exact .refl _
  split
  · exact .of_fields rfl (.refl _) (.refl _) rfl ⟨rfl, rfl⟩ rfl
  · exact .refl _

theorem requestIdr_soft (reason : IdrReason) (nowNs : UInt64) (force : Bool) (c : Ctx) :
    Soft c (recorderRequestIdr cfg reason nowNs force c) := by
  unfold recorderRequestIdr
  split
  · exact .refl c
  split
  · exact .refl c
  · exact .of_call (.requestIdr ..) trivial ⟨rfl, rfl, rfl⟩ rfl
      ⟨rfl, rfl, rfl, rfl, rfl, rfl⟩ ⟨rfl, rfl, rfl, rfl⟩ rfl ⟨rfl, rfl⟩

theorem schedule_soft (nowNs : UInt64) (c : Ctx) : Soft c (c.schedulePeriodicIdr cfg nowNs) :=
  .of_fields rfl ⟨rfl, rfl, rfl, rfl, rfl, rfl⟩ ⟨rfl, rfl, rfl, rfl⟩ rfl
    ⟨rfl, rfl⟩ rfl

theorem fire_soft (nowNs : UInt64) (c : Ctx) : Soft c (firePeriodicIdr cfg nowNs c) := by
  unfold firePeriodicIdr
  split
  · exact .refl c
  split
  · exact schedule_soft cfg nowNs c
  · exact (requestIdr_soft cfg _ _ _ c).trans (.of_fields rfl ⟨rfl, rfl, rfl, rfl, rfl, rfl⟩ ⟨rfl, rfl, rfl, rfl⟩ rfl
    ⟨rfl, rfl⟩ rfl)

theorem periodicIdr_soft (nowNs : UInt64) (c : Ctx) :
    Soft c (recorderMaybeRequestPeriodicIdr cfg nowNs c) := by
  unfold recorderMaybeRequestPeriodicIdr
  split
  · exact .refl c
  split
  · exact (schedule_soft cfg nowNs c).trans (fire_soft cfg nowNs _)
  · exact fire_soft cfg nowNs c

theorem mark_soft (ev : RecorderEvent) (keyframe ready : Bool) (c : Ctx) :
    Soft c (videoMark cfg ev keyframe ready c) := by
  unfold videoMark
  have pending : Soft c {c with s.rolloverPending := true} :=
    .of_fields rfl ⟨rfl, rfl, rfl, rfl, rfl, rfl⟩ ⟨rfl, rfl, rfl, rfl⟩ rfl
    ⟨rfl, rfl⟩ rfl
  split
  · simp only
    split
    · exact pending.trans (requestIdr_soft cfg _ _ _ _)
    · exact pending
  · exact .refl c

end Soft

section Open

def Ctx.record (c : Ctx) (calls : List Call) : Ctx :=
  {c with w.log := c.w.log ++ calls.map (Entry.mk c.w.event)}

def Call.KeepsGate (call : Call) : Prop := ∀ mounted, gateAfter mounted call = mounted

theorem foldl_gate (calls : List Call) (keeps : ∀ call ∈ calls, call.KeepsGate) (mounted : Bool) :
    calls.foldl gateAfter mounted = mounted := by
  induction calls with
  | nil => rfl
  | cons call calls ih =>
    rw [List.foldl_cons, keeps call (by simp)]
    exact ih fun later member => keeps later (by simp [member])

/-- Calls that leave the flag, beside any change that does. -/
theorem Emits.of_log {c c' : Ctx} (calls : List Call) (keeps : ∀ call ∈ calls, call.KeepsGate)
    (log : c'.w.log = c.w.log ++ calls.map (Entry.mk c.w.event)) (event : c'.w.event = c.w.event)
    (gate : c'.r.nfsMounted = c.r.nfsMounted) : Emits c calls c' :=
  ⟨log, event, by rw [foldl_gate calls keeps, gate]⟩

theorem mkdirEach_record (answers : Nat → MkdirAnswer) (i : Nat) (paths : List CString) (c : Ctx) :
    ∃ calls, (mkdirEach answers i paths c).1 = c.record calls ∧
      ∀ call ∈ calls, ∃ path ok, call = .mkdir path ok := by
  induction paths generalizing i c with
  | nil => exact ⟨[], by simp [mkdirEach, Ctx.record], by simp⟩
  | cons path rest ih =>
    unfold mkdirEach
    split
    · exact ⟨[.mkdir path false], rfl, by simp⟩
    · obtain ⟨calls, same, made⟩ := ih (i + 1) (c.emit (.mkdir path true))
      refine ⟨.mkdir path true :: calls, ?_, ?_⟩
      · rw [same]
        simp [Ctx.record, Ctx.emit, World.emit]
      · intro call member
        rcases List.mem_cons.mp member with rfl | member
        · exact ⟨path, true, rfl⟩
        · exact made call member

theorem mkdirP_record (answers : Nat → MkdirAnswer) (path : CString) (c : Ctx) :
    ∃ calls, (mkdirP answers path c).1 = c.record calls ∧
      ∀ call ∈ calls, ∃ path ok, call = .mkdir path ok := by
  unfold mkdirP
  split
  · exact ⟨[], by simp [Ctx.record], by simp⟩
  · exact mkdirEach_record _ _ _ _

/-- The two results of format_segment_paths; the buffers are never too short. -/
theorem formatSegmentPaths_cases (answers : OpenAnswers) (wallMs : UInt64) (c : Ctx)
    (ext : c.s.ext = codecExt c.s.codec) (valid : c.s.streamId ≤ maxStreamsLimit) :
    ∃ calls, (∀ call ∈ calls, ∃ path ok, call = .mkdir path ok) ∧
      (formatSegmentPaths cfg answers wallMs c = (c.record calls, false) ∨
        formatSegmentPaths cfg answers wallMs c =
          ({c.record calls with
            s.finalPath := segmentName cfg c.s.streamId (codecExt c.s.codec) wallMs
            s.tmpPath := segmentName cfg c.s.streamId (codecExt c.s.codec) wallMs ++ tmpSuffix},
            true)) := by
  have fits := segmentName_fits cfg c.s.streamId c.s.codec wallMs valid
  have final : (segmentName cfg c.s.streamId (codecExt c.s.codec) wallMs).length < pathMax := by
    rw [List.length_append] at fits
    omega
  have dir : (segmentDir cfg c.s.streamId).length < pathMax := by
    rw [segmentName_eq, List.length_append] at final
    omega
  obtain ⟨calls, same, made⟩ := mkdirP_record answers.mkdir (segmentDir cfg c.s.streamId) c
  refine ⟨calls, made, ?_⟩
  unfold formatSegmentPaths
  simp only [Nat.not_le.mpr dir, if_false]
  split
  · next d failed =>
    rw [failed] at same
    exact .inl (by rw [← same])
  · next d made =>
    rw [made] at same
    simp only at same
    subst same
    refine .inr ?_
    simp only [Ctx.record, ext, Nat.not_le.mpr final, Nat.not_le.mpr fits, or_self, if_false]

/-- What a failed open_segment leaves: no file was opened, and the handle the
record held is either still there or lost to the failed fopen. -/
structure OpenFailed (c c' : Ctx) : Prop where
  calls : ∃ quiet, (∀ call ∈ quiet, call.IsQuiet) ∧
    Emits c (.openSegment c.s.streamId c.s.fp :: quiet) c'
  store : c'.w.store = c.w.store
  stream : SameStream c.s c'.s
  segment : SameSegment c.s c'.s ∨ c'.s.fp = none
  waiting : c'.s.waitingKeyframe = c.s.waitingKeyframe
  writeErrors : c'.r.writeErrors = c.r.writeErrors + 1
  segmentsClosed : c'.r.segmentsClosed = c.r.segmentsClosed

structure Opened (wallMs : UInt64) (c c' : Ctx) : Prop where
  calls : ∃ quiet, (∀ call ∈ quiet, call.IsQuiet) ∧
    Emits c (.openSegment c.s.streamId c.s.fp :: quiet ++
      [.fopen c'.s.tmpPath (some c.w.store.next)]) c'
  store : c'.w.store = c.w.store.create c'.s.tmpPath
  stream : SameStream c.s c'.s
  fp : c'.s.fp = some c.w.store.next
  finalPath : c'.s.finalPath = segmentName cfg c.s.streamId (codecExt c.s.codec) wallMs
  tmpPath : c'.s.tmpPath = c'.s.finalPath ++ tmpSuffix
  segmentStartWallMs : c'.s.segmentStartWallMs = wallMs
  waiting : c'.s.waitingKeyframe = false
  counts : SameCounts c.r c'.r

/-- Failing: the error is counted and the mount table consulted. -/
theorem OpenFailed.of_noted {c d : Ctx} (mounts : List MntEnt) (nowNs : UInt64) (quiet : List Call)
    (allQuiet : ∀ call ∈ quiet, call.IsQuiet)
    (emits : Emits c (.openSegment c.s.streamId c.s.fp :: quiet) d)
    (store : d.w.store = c.w.store) (stream : SameStream c.s d.s)
    (segment : SameSegment c.s d.s ∨ d.s.fp = none)
    (waiting : d.s.waitingKeyframe = c.s.waitingKeyframe) (counts : SameCounts c.r d.r) :
    OpenFailed c (recorderRecheckMountAfterError cfg mounts nowNs d.noteWriteError) := by
  have soft := recheck_soft cfg mounts nowNs d.noteWriteError
  obtain ⟨calls, more, softCalls⟩ := soft.calls
  have noted : Emits d [] d.noteWriteError := .none rfl rfl rfl
  have whole := (emits.trans noted).trans more
  rw [List.append_nil, List.cons_append] at whole
  refine ⟨⟨quiet ++ calls, ?_, whole⟩, soft.store.trans store, stream.trans soft.stream, ?_,
    soft.waiting.trans waiting, ?_, soft.counts.2.trans counts.2⟩
  · intro call member
    rcases List.mem_append.mp member with left | right
    · exact allQuiet call left
    · exact (softCalls call right).quiet
  · rcases segment with same | lost
    · exact .inl (same.trans soft.segment)
    · exact .inr (soft.segment.fp.trans lost)
  · rw [soft.counts.1]
    exact congrArg (· + 1) counts.1

theorem openSegment_cases (answers : OpenAnswers) (wallMs monoNs : UInt64) (c : Ctx)
    (ext : c.s.ext = codecExt c.s.codec) (valid : c.s.streamId ≤ maxStreamsLimit) :
    ((openSegment cfg answers wallMs monoNs c).2 = false ∧
        OpenFailed c (openSegment cfg answers wallMs monoNs c).1) ∨
      ((openSegment cfg answers wallMs monoNs c).2 = true ∧
        Opened cfg wallMs c (openSegment cfg answers wallMs monoNs c).1) := by
  obtain ⟨mkdirs, made, paths⟩ := formatSegmentPaths_cases cfg answers wallMs
    (c.emit (.openSegment c.s.streamId c.s.fp)) ext valid
  have quiet : ∀ call ∈ mkdirs, call.IsQuiet := by
    intro call member
    obtain ⟨path, ok, rfl⟩ := made call member
    rfl
  have keeps (calls : List Call) (sound : ∀ call ∈ calls, ∃ path file, call = .fopen path file) :
      ∀ call ∈ Call.openSegment c.s.streamId c.s.fp :: mkdirs ++ calls, call.KeepsGate := by
    intro call member mounted
    simp only [List.cons_append, List.mem_cons, List.mem_append] at member
    rcases member with rfl | member | member
    · rfl
    · obtain ⟨path, ok, rfl⟩ := made call member
      rfl
    · obtain ⟨path, file, rfl⟩ := sound call member
      rfl
  unfold openSegment
  rcases paths with failed | formatted
  · rw [failed]
    refine .inl ⟨rfl, OpenFailed.of_noted cfg _ _ mkdirs quiet ?_ rfl (.refl _) (.inl (.refl _)) rfl
      ⟨rfl, rfl⟩⟩
    refine .of_log _ (by simpa using keeps [] (by simp)) ?_ rfl rfl
    simp [Ctx.record, Ctx.emit, World.emit]
  · rw [formatted]
    simp only
    split
    · refine .inr ⟨rfl, ⟨mkdirs, quiet, .of_log _ (keeps _ (by simp)) ?_ rfl rfl⟩, rfl,
        ⟨rfl, rfl, rfl, rfl, rfl, rfl⟩, rfl, rfl, rfl, rfl, rfl, rfl, rfl⟩
      simp [Ctx.record, Ctx.emit, World.emit, Ctx.fopen, armSegment]
    · let refused : Call :=
        .fopen (segmentName cfg c.s.streamId (codecExt c.s.codec) wallMs ++ tmpSuffix) none
      refine .inl ⟨rfl, OpenFailed.of_noted cfg _ _ (mkdirs ++ [refused]) ?_
        (.of_log _ (keeps [refused] (by simp [refused])) ?_ rfl rfl) rfl
        ⟨rfl, rfl, rfl, rfl, rfl, rfl⟩ (.inr rfl) rfl ⟨rfl, rfl⟩⟩
      · intro call member
        rcases List.mem_append.mp member with left | right
        · exact quiet call left
        · obtain rfl := List.mem_singleton.mp right
          rfl
      · simp [Ctx.record, Ctx.emit, World.emit, Ctx.fopenFailed, refused]

end Open

section Close

theorem closeSegment_none (answers : CloseAnswers) (finalize : Bool) (c : Ctx)
    (idle : c.s.fp = none) : closeSegment cfg answers finalize c = (c, true) := by
  unfold closeSegment
  rw [idle]

/-- Whatever its paths, the stream holds nothing after a close. -/
theorem closeSegment_idle (answers : CloseAnswers) (finalize : Bool) (c : Ctx) :
    (closeSegment cfg answers finalize c).1.s.fp = none ∧
      SameStream c.s (closeSegment cfg answers finalize c).1.s := by
  cases holds : c.s.fp with
  | none =>
    rw [closeSegment_none cfg answers finalize c holds]
    exact ⟨holds, .refl _⟩
  | some file =>
    simp only [closeSegment, holds]
    split
    · unfold renameSegment
      split
      · exact ⟨rfl, rfl, rfl, rfl, rfl, rfl, rfl⟩
      · generalize before : Ctx.noteWriteError _ = d
        have soft := recheck_soft cfg answers.mounts answers.nowNs d
        have same : SameStream c.s d.s := by
          subst before
          exact ⟨rfl, rfl, rfl, rfl, rfl, rfl⟩
        have whole := same.trans soft.stream
        refine ⟨soft.segment.fp.trans ?_, whole.1, whole.2, whole.3, whole.4, whole.5, whole.6⟩
        subst before
        rfl
    split
    · unfold unlinkSegment
      split <;> exact ⟨rfl, rfl, rfl, rfl, rfl, rfl, rfl⟩
    · exact ⟨rfl, rfl, rfl, rfl, rfl, rfl, rfl⟩

/-- A finalizing close of a segment with both its paths. -/
structure Finalized (answers : CloseAnswers) (file : Nat) (renamed : Bool) (c c' : Ctx) : Prop where
  calls : ∃ rest, (∀ call ∈ rest, call.IsSoft) ∧
    Emits c (.fclose file true answers.fclose.ok ::
      .rename (c.s.segment file) ((c.w.store.close file answers.fclose).bytes c.s.tmpPath) renamed ::
        rest) c'
  store : c'.w.store =
    if renamed then (c.w.store.close file answers.fclose).rename c.s.tmpPath c.s.finalPath
    else c.w.store.close file answers.fclose
  present : renamed = true → ((c.w.store.close file answers.fclose).bytes c.s.tmpPath).isSome
  stream : SameStream c.s c'.s
  fp : c'.s.fp = none
  waiting : c'.s.waitingKeyframe = c.s.waitingKeyframe
  segmentsClosed : c'.r.segmentsClosed = c.r.segmentsClosed + renamed.toNat
  writeErrors : c'.r.writeErrors = c.r.writeErrors + (!renamed).toNat

structure Discarded (answers : CloseAnswers) (file : Nat) (c c' : Ctx) : Prop where
  calls : Emits c [.fclose file false answers.fclose.ok, .unlink file c.s.tmpPath] c'
  store : c'.w.store =
    if answers.unlink then (c.w.store.close file answers.fclose).unlink c.s.tmpPath
    else c.w.store.close file answers.fclose
  stream : SameStream c.s c'.s
  fp : c'.s.fp = none
  waiting : c'.s.waitingKeyframe = c.s.waitingKeyframe
  counts : SameCounts c.r c'.r

theorem closeSegment_finalize (answers : CloseAnswers) (c : Ctx) (file : Nat)
    (held : c.s.fp = some file) (tmp : c.s.tmpPath ≠ []) (final : c.s.finalPath ≠ []) :
    ∃ renamed, Finalized answers file renamed c (closeSegment cfg answers true c).1 := by
  simp only [closeSegment, held, ne_eq, tmp, not_false_eq_true, final, and_self, if_true,
    renameSegment]
  split
  · next both =>
    refine ⟨true, ⟨[], by simp, .of_log _ ?_ ?_ rfl rfl⟩, rfl, fun _ => both.2,
      ⟨rfl, rfl, rfl, rfl, rfl, rfl⟩, rfl, rfl, rfl, rfl⟩
    · intro call member mounted
      simp only [List.mem_cons, List.not_mem_nil, or_false] at member
      rcases member with rfl | rfl <;> rfl
    · simp [clearSegment, Ctx.noteSegmentClosed, Ctx.emit, World.emit, Ctx.fclose,
        RecorderStream.segment]
  · next failed =>
    refine ⟨false, ?_⟩
    generalize same : ((c.fclose answers file true).emit (.rename ((c.fclose answers file
      true).s.segment file) ((c.fclose answers file true).w.store.bytes (c.fclose answers file
      true).s.tmpPath) false)).noteWriteError = d
    have soft := recheck_soft cfg answers.mounts answers.nowNs d
    obtain ⟨calls, more, softCalls⟩ := soft.calls
    have first : Emits c [.fclose file true answers.fclose.ok, .rename (c.s.segment file)
        ((c.w.store.close file answers.fclose).bytes c.s.tmpPath) false] d := by
      subst same
      refine .of_log _ ?_ ?_ rfl rfl
      · intro call member mounted
        simp only [List.mem_cons, List.not_mem_nil, or_false] at member
        rcases member with rfl | rfl <;> rfl
      · simp [Ctx.noteWriteError, Ctx.emit, World.emit, Ctx.fclose, RecorderStream.segment]
    have whole := first.trans more
    refine ⟨⟨calls, softCalls, ⟨whole.log, whole.event, whole.gate⟩⟩, ?_, by simp, ?_, ?_, ?_, ?_, ?_⟩
    · refine soft.store.trans ?_
      subst same
      rfl
    · have before : SameStream c.s d.s := by
        subst same
        exact ⟨rfl, rfl, rfl, rfl, rfl, rfl⟩
      have after := before.trans soft.stream
      exact ⟨after.1, after.2, after.3, after.4, after.5, after.6⟩
    · refine soft.segment.fp.trans ?_
      subst same
      rfl
    · refine soft.waiting.trans ?_
      subst same
      rfl
    · refine soft.counts.segmentsClosed.trans ?_
      subst same
      rfl
    · refine soft.counts.writeErrors.trans ?_
      subst same
      rfl

theorem closeSegment_discard (answers : CloseAnswers) (c : Ctx) (file : Nat)
    (held : c.s.fp = some file) (tmp : c.s.tmpPath ≠ []) :
    Discarded answers file c (closeSegment cfg answers false c).1 := by
  have keeps : ∀ call ∈ [Call.fclose file false answers.fclose.ok, .unlink file c.s.tmpPath],
      call.KeepsGate := by
    intro call member mounted
    simp only [List.mem_cons, List.not_mem_nil, or_false] at member
    rcases member with rfl | rfl <;> rfl
  simp only [closeSegment, held, Bool.false_eq_true, false_and, if_false, Bool.not_false, ne_eq, tmp,
    not_false_eq_true, and_self, if_true, unlinkSegment]
  cases unlinks : answers.unlink <;>
    refine ⟨.of_log _ keeps ?_ rfl rfl, by rw [unlinks]; rfl, ⟨rfl, rfl, rfl, rfl, rfl, rfl⟩, rfl,
      rfl, rfl, rfl⟩ <;>
    simp [clearSegment, Ctx.emit, World.emit, Ctx.fclose]

end Close

section Write

/-- The Annex-B form of a payload, as write_payload_annexb gives it to the file. -/
def annexB (data : Bytes) : Bytes := if payloadHasStartCode data then data else startCode4 ++ data

def paramSetBytes (s : RecorderStream) : Bytes := (paramSlots s.codec).flatMap s.params

/-- Several writes to one file, with nothing else done. -/
def Ctx.fwrites (file : Nat) (c : Ctx) (writes : List Write) : Ctx := writes.foldl (Ctx.fwrite file) c

theorem fwrites_frame (file : Nat) (c : Ctx) (writes : List Write) :
    (c.fwrites file writes).r = c.r ∧ (c.fwrites file writes).s = c.s ∧
      (c.fwrites file writes).w.event = c.w.event := by
  induction writes generalizing c with
  | nil => exact ⟨rfl, rfl, rfl⟩
  | cons write writes ih => exact ih (c.fwrite file write)

theorem fwrites_emits (file : Nat) (c : Ctx) (writes : List Write) :
    Emits c (writes.map fun w => .fwrite file w.part w.data w.answer) (c.fwrites file writes) := by
  induction writes generalizing c with
  | nil => exact .refl c
  | cons write writes ih =>
    have first : Emits c [.fwrite file write.part write.data write.answer] (c.fwrite file write) :=
      ⟨rfl, rfl, rfl⟩
    exact first.trans (ih (c.fwrite file write))

/-- Every write but the last succeeded. -/
def FailsLast (writes : List Write) : Prop :=
  ∃ before last, writes = before ++ [last] ∧ (∀ w ∈ before, w.answer.ok = true) ∧
    last.answer.ok = false

theorem FailsLast.cons {write : Write} {writes : List Write} (fails : FailsLast writes)
    (ok : write.answer.ok = true) : FailsLast (write :: writes) := by
  obtain ⟨before, last, rfl, allOk, bad⟩ := fails
  exact ⟨write :: before, last, rfl, by simpa [ok] using allOk, bad⟩

theorem FailsLast.append {first second : List Write} (fails : FailsLast second)
    (allOk : ∀ w ∈ first, w.answer.ok = true) : FailsLast (first ++ second) := by
  induction first with
  | nil => exact fails
  | cons write first ih =>
    exact (ih fun w member => allOk w (by simp [member])).cons (allOk write (by simp))

/-- How a group of writes ends: all of them done, or at the first that failed. -/
def Concludes (writes : List Write) (ok : Bool) (data : Bytes) : Prop :=
  (ok = true ∧ (∀ w ∈ writes, w.answer.ok = true) ∧ writes.flatMap Write.data = data) ∨
    (ok = false ∧ FailsLast writes)

theorem writeAll_writes (part : Part) (answer : Stdio.Answer) (data : Bytes) (c : Ctx) (file : Nat)
    (held : c.s.fp = some file) (nonempty : data ≠ []) :
    writeAll part answer data c = (c.fwrites file [⟨part, data, answer⟩], answer.ok) ∧
      Concludes [⟨part, data, answer⟩] answer.ok data := by
  refine ⟨by simp [writeAll, held, nonempty, Ctx.fwrites], ?_⟩
  cases ok : answer.ok
  · exact .inr ⟨rfl, [], _, rfl, by simp, ok⟩
  · exact .inl ⟨rfl, by simp [ok], by simp⟩

theorem writeParamSetsFrom_writes (answers : WriteAnswers) (slots : List (Fin 3)) (c : Ctx)
    (file : Nat) (held : c.s.fp = some file) :
    ∃ writes, (writeParamSetsFrom answers slots c).1 = c.fwrites file writes ∧
      (∀ w ∈ writes, w.part = .params ∧ ∃ i, w.answer = answers.params i) ∧
      Concludes writes (writeParamSetsFrom answers slots c).2 (slots.flatMap c.s.params) := by
  induction slots generalizing c with
  | nil => exact ⟨[], rfl, by simp, .inl ⟨rfl, by simp, rfl⟩⟩
  | cons i slots ih =>
    unfold writeParamSetsFrom
    by_cases absent : c.s.params i = []
    · simpa [absent] using ih c held
    rw [if_neg absent]
    obtain ⟨written, ends⟩ := writeAll_writes .params (answers.params i) (c.s.params i) c file held
      absent
    cases ok : (answers.params i).ok
    · rw [ok] at written
      rw [written]
      exact ⟨_, rfl, by simp, .inr ⟨rfl, [], _, rfl, by simp, ok⟩⟩
    · rw [ok] at written
      rw [written]
      have frame := fwrites_frame file c [⟨.params, c.s.params i, answers.params i⟩]
      obtain ⟨writes, same, origin, later⟩ :=
        ih (c.fwrites file [⟨.params, c.s.params i, answers.params i⟩]) (by rw [frame.2.1, held])
      refine ⟨⟨.params, c.s.params i, answers.params i⟩ :: writes, same, ?_, ?_⟩
      · intro w member
        rcases List.mem_cons.mp member with rfl | member
        · exact ⟨rfl, i, rfl⟩
        · exact origin w member
      · rcases later with ⟨done, allOk, data⟩ | ⟨failed, last⟩
        · refine .inl ⟨done, ?_, ?_⟩
          · simpa [ok] using allOk
          · rw [List.flatMap_cons, data, frame.2.1, List.flatMap_cons]
        · exact .inr ⟨failed, last.cons ok⟩

theorem writeParamSets_writes (answers : WriteAnswers) (c : Ctx) (file : Nat)
    (held : c.s.fp = some file) :
    ∃ writes, (writeParamSets answers c).1 = c.fwrites file writes ∧
      (∀ w ∈ writes, w.part = .params ∧ ∃ i, w.answer = answers.params i) ∧
      Concludes writes (writeParamSets answers c).2 (paramSetBytes c.s) := by
  rw [writeParamSets, if_neg (by simp [held])]
  exact writeParamSetsFrom_writes answers _ c file held

theorem writePayloadAnnexb_writes (answers : WriteAnswers) (data : Bytes) (c : Ctx) (file : Nat)
    (held : c.s.fp = some file) (nonempty : data ≠ []) :
    ∃ writes, (writePayloadAnnexb answers data c).1 = c.fwrites file writes ∧
      (∀ w ∈ writes, w.part ≠ .params ∧ (w.answer = answers.startCode ∨ w.answer = answers.payload)) ∧
      Concludes writes (writePayloadAnnexb answers data c).2 (annexB data) := by
  unfold writePayloadAnnexb
  rw [if_neg (by simp [held, nonempty]), annexB]
  split
  · obtain ⟨written, ends⟩ := writeAll_writes .payload answers.payload data c file held nonempty
    rw [written]
    exact ⟨_, rfl, by simp, ends⟩
  · obtain ⟨written, _⟩ := writeAll_writes .startCode answers.startCode startCode4 c file held
      (by decide)
    cases ok : answers.startCode.ok
    · rw [ok] at written
      rw [written]
      exact ⟨_, rfl, by simp, .inr ⟨rfl, [], _, rfl, by simp, ok⟩⟩
    · rw [ok] at written
      rw [written]
      have frame := fwrites_frame file c [⟨.startCode, startCode4, answers.startCode⟩]
      obtain ⟨packet, ends⟩ := writeAll_writes .payload answers.payload data
        (c.fwrites file [⟨.startCode, startCode4, answers.startCode⟩]) file
        (by rw [frame.2.1, held]) nonempty
      simp only [packet]
      refine ⟨[⟨.startCode, startCode4, answers.startCode⟩, ⟨.payload, data, answers.payload⟩], rfl,
        by simp, ?_⟩
      rcases ends with ⟨done, allOk, -⟩ | ⟨failed, last⟩
      · refine .inl ⟨done, ?_, by simp⟩
        simpa [ok] using allOk
      · exact .inr ⟨failed, last.cons ok⟩

/-- The answers that a write of the kind can get. -/
def WriteAnswers.Gives (answers : WriteAnswers) (part : Part) (answer : Stdio.Answer) : Prop :=
  (part = .params ∧ ∃ i, answer = answers.params i) ∨
    (part ≠ .params ∧ (answer = answers.startCode ∨ answer = answers.payload))

/-- The two results of write_segment_packet on an open segment. -/
theorem writeSegmentPacket_cases (answers : WriteAnswers) (data : Bytes) (c : Ctx) (file : Nat)
    (held : c.s.fp = some file) (nonempty : data ≠ []) :
    ∃ writes, (∀ w ∈ writes, w.part ≠ .params ∧ answers.Gives w.part w.answer) ∧
      (((writeSegmentPacket cfg answers data c).2 = true ∧ (∀ w ∈ writes, w.answer.ok = true) ∧
          writes.flatMap Write.data = annexB data ∧
          Soft (c.fwrites file writes) (writeSegmentPacket cfg answers data c).1) ∨
        ((writeSegmentPacket cfg answers data c).2 = false ∧ FailsLast writes ∧
          Soft (c.fwrites file writes).noteWriteError (writeSegmentPacket cfg answers data c).1)) := by
  obtain ⟨writes, same, origin, ends⟩ := writePayloadAnnexb_writes answers data c file held nonempty
  refine ⟨writes, fun w member => ⟨(origin w member).1, .inr (origin w member)⟩, ?_⟩
  unfold writeSegmentPacket
  rw [if_neg (by simp [held])]
  rcases ends with ⟨done, allOk, written⟩ | ⟨failed, bad⟩
  · have both : writePayloadAnnexb answers data c = (c.fwrites file writes, true) :=
      Prod.ext same done
    rw [both]
    exact .inl ⟨rfl, allOk, written, .of_fields rfl ⟨rfl, rfl, rfl, rfl, rfl, rfl⟩
      ⟨rfl, rfl, rfl, rfl⟩ rfl ⟨rfl, rfl⟩ rfl⟩
  · have both : writePayloadAnnexb answers data c = (c.fwrites file writes, false) :=
      Prod.ext same failed
    rw [both]
    exact .inr ⟨rfl, bad, recheck_soft cfg _ _ _⟩

end Write

section Video

/-- The writes that begin a segment, and what is done when one of them fails. The
failure of a parameter set is the one that is not counted. -/
theorem beginSegment_cases (ev : RecorderEvent) (answers : Answers) (c : Ctx) (file : Nat)
    (held : c.s.fp = some file) (nonempty : ev.data ≠ []) :
    ∃ writes, (∀ w ∈ writes, answers.write.Gives w.part w.answer) ∧
      (((∀ w ∈ writes, w.answer.ok = true) ∧
          writes.flatMap Write.data = paramSetBytes c.s ++ annexB ev.data ∧
          Soft (c.fwrites file writes) (beginSegment cfg ev answers c)) ∨
        ∃ d, beginSegment cfg ev answers c = discardSegment cfg answers d ∧
          (FailsLast writes ∧ Soft (c.fwrites file writes).noteWriteError d ∨
            FailsLast writes ∧ (∀ w ∈ writes, w.part = .params) ∧ Soft (c.fwrites file writes) d)) := by
  obtain ⟨sets, same, origin, ends⟩ := writeParamSets_writes answers.write c file held
  rcases ends with ⟨done, allOk, written⟩ | ⟨failed, last⟩
  · have frame := fwrites_frame file c sets
    obtain ⟨packet, packetOrigin, result⟩ := writeSegmentPacket_cases cfg answers.write ev.data
      (c.fwrites file sets) file (by rw [frame.2.1, held]) nonempty
    have joined : (c.fwrites file sets).fwrites file packet = c.fwrites file (sets ++ packet) := by
      simp [Ctx.fwrites]
    rw [joined] at result
    refine ⟨sets ++ packet, ?_, ?_⟩
    · intro w member
      rcases List.mem_append.mp member with left | right
      · exact .inl (origin w left)
      · exact (packetOrigin w right).2
    rcases result with ⟨wrote, packetOk, data, soft⟩ | ⟨failed, last, soft⟩
    · refine .inl ⟨?_, by rw [List.flatMap_append, written, data], ?_⟩
      · intro w member
        rcases List.mem_append.mp member with left | right
        · exact allOk w left
        · exact packetOk w right
      · simpa only [beginSegment, done, same, wrote, if_true] using soft
    · refine .inr ⟨_, ?_, .inl ⟨last.append allOk, soft⟩⟩
      simp only [beginSegment, done, same, failed, if_true, Bool.false_eq_true, if_false]
  · refine ⟨sets, fun w member => .inl (origin w member), .inr ⟨c.fwrites file sets, ?_,
      .inr ⟨last, fun w member => (origin w member).1, .refl _⟩⟩⟩
    simp only [beginSegment, same, failed, Bool.false_eq_true, if_false]

/-- What process_video does with a packet, by the branch it takes. -/
inductive VideoOutcome (ev : RecorderEvent) (answers : Answers) (c c' : Ctx) : Prop where
  | ignored (untaken : takesVideo c.s ev = false) (same : c' = c)
  | skipped (taken : takesVideo c.s ev = true)
      (unavailable : (recorderStorageAvailable cfg answers.mounts ev.monoNs
        (c.analyze ev answers)).2 = false)
      (d : Ctx) (before : Soft (c.analyze ev answers) d) (after : Soft d.awaitKeyframe c')
  | waits (taken : takesVideo c.s ev = true) (waiting : c.s.waitingKeyframe = true)
      (soft : Soft (c.analyze ev answers) c')
  | begins (taken : takesVideo c.s ev = true)
      (available : (recorderStorageAvailable cfg answers.mounts ev.monoNs
        (c.analyze ev answers)).2 = true)
      (waiting : c.s.waitingKeyframe = true) (keyframe : hasKeyframe c.s.codec ev.data = true)
      (ready : paramsReady (c.analyze ev answers).s = true) (d : Ctx)
      (soft : Soft (c.analyze ev answers) d) (same : c' = videoBegin cfg ev answers d)
  | rolls (taken : takesVideo c.s ev = true)
      (available : (recorderStorageAvailable cfg answers.mounts ev.monoNs
        (c.analyze ev answers)).2 = true)
      (recording : c.s.waitingKeyframe = false) (keyframe : hasKeyframe c.s.codec ev.data = true)
      (ready : paramsReady (c.analyze ev answers).s = true) (d : Ctx)
      (soft : Soft (c.analyze ev answers) d) (same : c' = videoRollover cfg ev answers d)
  | appends (taken : takesVideo c.s ev = true)
      (available : (recorderStorageAvailable cfg answers.mounts ev.monoNs
        (c.analyze ev answers)).2 = true)
      (recording : c.s.waitingKeyframe = false)
      (d : Ctx) (soft : Soft (c.analyze ev answers) d) (same : c' = videoAppend cfg ev answers d)

theorem processVideo_cases (ev : RecorderEvent) (answers : Answers) (c : Ctx) :
    VideoOutcome cfg ev answers c (processVideo cfg ev answers c) := by
  unfold processVideo
  cases taken : takesVideo c.s ev
  · exact .ignored taken (by simp)
  simp only [Bool.not_true, Bool.false_eq_true, if_false]
  have stored := storageAvailable_soft cfg answers.mounts ev.monoNs (c.analyze ev answers)
  have key : (analyzePayload answers.malloc c.s ev.data).2.hasKeyframe =
      hasKeyframe c.s.codec ev.data := by rw [analyzePayload_eq]
  have kept : (c.analyze ev answers).s.waitingKeyframe = c.s.waitingKeyframe := by
    simp only [Ctx.analyze]
    rw [analyzePayload_eq]
  have same := stored.waiting.trans kept
  cases available : (recorderStorageAvailable cfg answers.mounts ev.monoNs (c.analyze ev answers)).2
  · refine .skipped taken available _ (stored.trans ?_) (skipUnmounted_soft cfg ev.monoNs _)
    exact .of_fields rfl (.refl _) (.refl _) rfl ⟨rfl, rfl⟩ rfl
  simp only [Bool.not_true, Bool.false_eq_true, if_false, key, same]
  generalize (recorderStorageAvailable cfg answers.mounts ev.monoNs (c.analyze ev answers)).1 = d
    at stored same
  cases waiting : c.s.waitingKeyframe
  · simp only [Bool.false_eq_true, if_false, videoRecording]
    have marked := stored.trans (mark_soft cfg ev (hasKeyframe c.s.codec ev.data)
      (paramsReady (c.analyze ev answers).s) d)
    split
    · next now =>
      simp only [Bool.and_eq_true] at now
      exact .rolls taken available waiting now.2.1 now.2.2 _ marked rfl
    · refine .appends taken available waiting _ (marked.trans ?_) rfl
      refine .trans ?_ (periodicIdr_soft cfg ev.monoNs _)
      unfold videoAwaitRollover
      split
      · exact requestIdr_soft cfg _ _ _ _
      · exact .refl _
  · simp only [if_true, videoWaiting]
    split
    · exact .waits taken waiting (stored.trans (requestIdr_soft cfg _ _ _ _))
    · next now =>
      simp only [Bool.or_eq_true, Bool.not_eq_true', not_or, Bool.not_eq_false] at now
      exact .begins taken available waiting now.1 now.2 d stored rfl

end Video

end StreamRelay.Recorder
