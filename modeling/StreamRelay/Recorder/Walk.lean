import StreamRelay.Recorder.Effects

/-! Relations between the context before an operation and the one after it. Most operations of
the recorder only consult the mount table, log calls, write to the open file or keep their own
books; what a relation says of these few steps it says of all of them. -/
namespace StreamRelay.Recorder

/-- The steps of which the operations below are made. -/
structure Walk (R : Ctx → Ctx → Prop) : Prop where
  refl : ∀ c, R c c
  trans : ∀ {a b c}, R a b → R b c → R a c
  shared : ∀ c r, R c {c with r := r}
  call : ∀ c call, (∀ stream reason nowNs, call ≠ .requestIdr stream reason nowNs) → R c (c.emit call)
  store : ∀ c file data answer, R c {c with w.store := c.w.store.write file data answer}
  paths : ∀ c final tmp, R c {c with s.finalPath := final, s.tmpPath := tmp}
  written : ∀ c bytes packets, R c {c with s.bytesWritten := bytes, s.packetsWritten := packets}
  waits : ∀ c, R c c.awaitKeyframe

variable {cfg : Config} {R : Ctx → Ctx → Prop} (walk : Walk R)
include walk

theorem Walk.storageAvailable (mounts : List MntEnt) (nowNs : UInt64) (c : Ctx) :
    R c (recorderStorageAvailable cfg mounts nowNs c).1 := by
  unfold recorderStorageAvailable
  split
  · exact walk.refl c
  split
  · exact walk.refl c
  split
  · exact walk.trans (walk.shared c _) (walk.call _ _ (by simp))
  · exact walk.refl c

theorem Walk.recheck (mounts : List MntEnt) (nowNs : UInt64) (c : Ctx) :
    R c (recorderRecheckMountAfterError cfg mounts nowNs c) := by
  unfold recorderRecheckMountAfterError
  split
  · exact walk.refl c
  · exact walk.trans (walk.shared c _) (walk.call _ _ (by simp))

theorem Walk.noteError (mounts : List MntEnt) (nowNs : UInt64) (c : Ctx) :
    R c (recorderRecheckMountAfterError cfg mounts nowNs c.noteWriteError) :=
  walk.trans (walk.shared c _) (walk.recheck ..)

theorem Walk.skipUnmounted (nowNs : UInt64) (c : Ctx) : R c (recorderSkipUnmounted cfg nowNs c) := by
  have skipped : R c c.noteMountSkip.awaitKeyframe :=
    walk.trans (walk.shared c _) (walk.waits c.noteMountSkip)
  unfold recorderSkipUnmounted logMountSkip
  split
  · exact skipped
  split
  · exact walk.trans skipped (walk.shared _ _)
  · exact skipped

theorem Walk.writeAll (part : Part) (answer : Stdio.Answer) (data : Bytes) (c : Ctx) :
    R c (writeAll part answer data c).1 := by
  unfold Recorder.writeAll
  split
  · exact walk.refl c
  split
  · exact walk.refl c
  · exact walk.trans (walk.store c _ _ _) (walk.call _ _ (by simp))

theorem Walk.writeParamSetsFrom (answers : WriteAnswers) (slots : List (Fin 3)) (c : Ctx) :
    R c (writeParamSetsFrom answers slots c).1 := by
  induction slots generalizing c with
  | nil => exact walk.refl c
  | cons i slots ih =>
    unfold Recorder.writeParamSetsFrom
    split
    · exact ih c
    · have first := walk.writeAll .params (answers.params i) (c.s.params i) c
      split
      · next d failed => rwa [failed] at first
      · next d wrote =>
        rw [wrote] at first
        exact walk.trans first (ih d)

theorem Walk.writeParamSets (answers : WriteAnswers) (c : Ctx) : R c (writeParamSets answers c).1 := by
  unfold Recorder.writeParamSets
  split
  · exact walk.refl c
  · exact walk.writeParamSetsFrom ..

theorem Walk.writePayloadAnnexb (answers : WriteAnswers) (data : Bytes) (c : Ctx) :
    R c (writePayloadAnnexb answers data c).1 := by
  unfold Recorder.writePayloadAnnexb
  split
  · exact walk.refl c
  split
  · exact walk.writeAll ..
  · have first := walk.writeAll .startCode answers.startCode startCode4 c
    split
    · next d failed => rwa [failed] at first
    · next d wrote =>
      rw [wrote] at first
      exact walk.trans first (walk.writeAll ..)

theorem Walk.writeSegmentPacket (answers : WriteAnswers) (data : Bytes) (c : Ctx) :
    R c (writeSegmentPacket cfg answers data c).1 := by
  unfold Recorder.writeSegmentPacket
  split
  · exact walk.refl c
  · have first := walk.writePayloadAnnexb answers data c
    split
    · next d failed =>
      rw [failed] at first
      exact walk.trans first (walk.noteError ..)
    · next d wrote =>
      rw [wrote] at first
      exact walk.trans first (walk.written d _ _)

/-- The first writes of a segment, which is discarded when one of them fails. -/
theorem Walk.beginSegment (ev : RecorderEvent) (answers : Answers)
    (discard : ∀ c, R c (discardSegment cfg answers c)) (c : Ctx) :
    R c (beginSegment cfg ev answers c) := by
  have sets := walk.writeParamSets answers.write c
  unfold Recorder.beginSegment
  dsimp only
  split
  · have packet : R c (Recorder.writeSegmentPacket cfg answers.write ev.data
        (Recorder.writeParamSets answers.write c).1).1 :=
      walk.trans sets (walk.writeSegmentPacket ..)
    split
    · exact packet
    · exact walk.trans packet (discard _)
  · exact walk.trans sets (discard _)

theorem Walk.mkdirEach (answers : Nat → MkdirAnswer) (i : Nat) (paths : List CString) (c : Ctx) :
    R c (mkdirEach answers i paths c).1 := by
  induction paths generalizing i c with
  | nil => exact walk.refl c
  | cons path rest ih =>
    have made (ok : Bool) : R c (c.emit (.mkdir path ok)) := walk.call c _ (by simp)
    unfold Recorder.mkdirEach
    split
    · exact made false
    · exact walk.trans (made true) (ih ..)

theorem Walk.formatSegmentPaths (answers : OpenAnswers) (wallMs : UInt64) (c : Ctx) :
    R c (formatSegmentPaths cfg answers wallMs c).1 := by
  have made : R c (mkdirP answers.mkdir (segmentDir cfg c.s.streamId) c).1 := by
    unfold mkdirP
    split
    · exact walk.refl c
    · exact walk.mkdirEach ..
  unfold Recorder.formatSegmentPaths
  dsimp only
  split
  · exact walk.refl c
  split
  · next d failed => rwa [failed] at made
  · next d ok =>
    rw [ok] at made
    split <;> exact walk.trans made (walk.paths d _ _)

/-- open_segment goes through its paths, and then its file is there or it is not. -/
theorem Walk.openSegment (answers : OpenAnswers) (wallMs monoNs : UInt64) {goal : Ctx → Prop} (c : Ctx)
    (failed : ∀ d, R c d → goal d)
    (opened : ∀ d, R c d → goal (armSegment cfg wallMs monoNs d.fopen))
    (refused : ∀ d, R c d → goal (recorderRecheckMountAfterError cfg answers.mounts monoNs
      d.fopenFailed.noteWriteError)) :
    goal (openSegment cfg answers wallMs monoNs c).1 := by
  have marked : R c (c.emit (.openSegment c.s.streamId c.s.fp)) := walk.call c _ (by simp)
  have paths : R c (Recorder.formatSegmentPaths cfg answers wallMs
      (c.emit (.openSegment c.s.streamId c.s.fp))).1 :=
    walk.trans marked (walk.formatSegmentPaths ..)
  unfold Recorder.openSegment
  split
  · next d result =>
    rw [result] at paths
    exact failed _ (walk.trans paths (walk.noteError ..))
  · next d result =>
    rw [result] at paths
    split
    · exact opened d paths
    · exact refused d paths

end StreamRelay.Recorder
