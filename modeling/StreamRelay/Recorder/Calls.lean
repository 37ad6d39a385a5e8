import StreamRelay.Recorder.Custody

/-! Which calls an event can make at all, and how the counters account for them.
One pass over the operations serves every property of single calls. -/
namespace StreamRelay.Recorder

/-- The failures that write_errors is to count: of a packet's write or of a rename. -/
def Call.isCounted : Call → Bool
  | .fwrite _ part _ answer => part ≠ .params && !answer.ok
  | .rename _ _ ok => !ok
  | _ => false

def Call.isPublished : Call → Bool
  | .rename _ _ ok => ok
  | _ => false

variable (cfg : Config) (P : Call → Prop)

/-- Permitted calls, with what they do to the two counters. -/
def Emitting (c c' : Ctx) : Prop :=
  ∃ calls, Emits c calls c' ∧ (∀ call ∈ calls, P call) ∧
    c.r.writeErrors + calls.countP Call.isCounted ≤ c'.r.writeErrors ∧
    c'.r.segmentsClosed = c.r.segmentsClosed + calls.countP Call.isPublished

/-- The calls on files that neither open one nor write to it. -/
def Call.IsClosing : Call → Prop
  | .fclose .. | .rename .. | .unlink .. => True
  | _ => False

/-- What is done outside the opening of segments and the writing to them. -/
structure AdmitsOther : Prop where
  soft : ∀ call, call.IsSoft → P call
  closing : ∀ call, call.IsClosing → P call

/-- What one event can do, apart from open_segment's marker. -/
structure Admits (ev : RecorderEvent) (answers : Answers) : Prop extends AdmitsOther P where
  quiet : ∀ call, call.IsQuiet → P call
  fopen : ev.type = .video → ∀ codec file, codecSupported codec = true →
    P (.fopen (segmentName cfg ev.streamId (codecExt codec) ev.wallMs ++ tmpSuffix) (some file))
  fwrite : ∀ file part data answer, answers.write.Gives part answer →
    P (.fwrite file part data answer)

variable {P} {c c' c'' : Ctx}

theorem Emitting.fields (world : c'.w = c.w) (gate : c'.r.nfsMounted = c.r.nfsMounted)
    (errors : c.r.writeErrors ≤ c'.r.writeErrors)
    (closed : c'.r.segmentsClosed = c.r.segmentsClosed) : Emitting P c c' :=
  ⟨[], .none (by rw [world]) (by rw [world]) gate, by simp, errors, closed⟩

theorem Emitting.refl (c : Ctx) : Emitting P c c := .fields rfl rfl (Nat.le_refl _) rfl

/-- A change of the record alone. -/
theorem Emitting.stream (c : Ctx) (s : RecorderStream) : Emitting P c {c with s := s} :=
  .fields rfl rfl (Nat.le_refl _) rfl

theorem Emitting.trans (one : Emitting P c c') (two : Emitting P c' c'') : Emitting P c c'' := by
  obtain ⟨first, firstEmits, firstEach, firstErrors, firstClosed⟩ := one
  obtain ⟨second, secondEmits, secondEach, secondErrors, secondClosed⟩ := two
  refine ⟨first ++ second, firstEmits.trans secondEmits, ?_, ?_, ?_⟩
  · intro call member
    rcases List.mem_append.mp member with left | right
    · exact firstEach call left
    · exact secondEach call right
  · rw [List.countP_append]
    omega
  · rw [List.countP_append]
    omega

theorem countP_none {calls : List Call} (p : Call → Bool) (none : ∀ call ∈ calls, p call = false) :
    calls.countP p = 0 := by
  rw [List.countP_eq_zero]
  intro call member
  simp [none call member]

theorem Call.IsQuiet.uncounted {call : Call} (quiet : call.IsQuiet) :
    call.isCounted = false ∧ call.isPublished = false := by
  cases call <;> first | exact ⟨rfl, rfl⟩ | cases quiet

theorem Soft.emitting (soft : Soft c c') (permitted : ∀ call, call.IsSoft → P call) :
    Emitting P c c' := by
  obtain ⟨calls, emits, each⟩ := soft.calls
  refine ⟨calls, emits, fun call member => permitted call (each call member), ?_, ?_⟩
  · rw [countP_none _ fun call member => (each call member).quiet.uncounted.1, soft.counts.writeErrors,
      Nat.add_zero]
  · rw [countP_none _ fun call member => (each call member).quiet.uncounted.2,
      soft.counts.segmentsClosed, Nat.add_zero]

theorem closeSegment_emitting (admits : AdmitsOther P) (closing : CloseAnswers) (finalize : Bool) (c : Ctx) :
    Emitting P c (closeSegment cfg closing finalize c).1 := by
  cases holds : c.s.fp with
  | none =>
    rw [closeSegment_none cfg closing finalize c holds]
    exact .refl c
  | some file =>
    have bare (open_ended : ¬ (finalize = true ∧ c.s.tmpPath ≠ [] ∧ c.s.finalPath ≠ []))
        (unnamed : ¬ ((!finalize) = true ∧ c.s.tmpPath ≠ [])) :
        Emitting P c (closeSegment cfg closing finalize c).1 := by
      simp only [closeSegment, holds, if_neg open_ended, if_neg unnamed]
      refine ⟨[.fclose file finalize closing.fclose.ok], ⟨rfl, rfl, rfl⟩, ?_, Nat.le_refl _, rfl⟩
      simpa using admits.closing (.fclose ..) trivial
    cases finalize with
    | true =>
      by_cases both : c.s.tmpPath ≠ [] ∧ c.s.finalPath ≠ []
      · obtain ⟨renamed, finalized⟩ := closeSegment_finalize cfg closing c file holds both.1 both.2
        obtain ⟨rest, soft, emits⟩ := finalized.calls
        refine ⟨_, emits, ?_, ?_, ?_⟩
        · intro call member
          simp only [List.mem_cons] at member
          rcases member with rfl | rfl | member
          · exact admits.closing _ trivial
          · exact admits.closing _ trivial
          · exact admits.soft call (soft call member)
        · rw [List.countP_cons, List.countP_cons,
            countP_none _ fun call member => (soft call member).quiet.uncounted.1,
            finalized.writeErrors]
          cases renamed <;> simp [Call.isCounted]
        · rw [List.countP_cons, List.countP_cons,
            countP_none _ fun call member => (soft call member).quiet.uncounted.2,
            finalized.segmentsClosed]
          cases renamed <;> simp [Call.isPublished]
      · exact bare (by simpa using both) (by simp)
    | false =>
      by_cases named : c.s.tmpPath = []
      · exact bare (by simp) (by simp [named])
      · have discarded := closeSegment_discard cfg closing c file holds named
        refine ⟨_, discarded.calls, ?_, Nat.le_of_eq discarded.counts.writeErrors.symm,
          discarded.counts.segmentsClosed⟩
        intro call member
        simp only [List.mem_cons, List.not_mem_nil, or_false] at member
        rcases member with rfl | rfl <;> exact admits.closing _ trivial

variable {ev : RecorderEvent} {answers : Answers} (admits : Admits cfg P ev answers)
include admits

theorem discardSegment_emitting (c : Ctx) : Emitting P c (discardSegment cfg answers c) :=
  (closeSegment_emitting cfg admits.toAdmitsOther answers.discard false c).trans (.stream _ _)

theorem fwrites_permitted (file : Nat) (writes : List Write)
    (origin : ∀ w ∈ writes, answers.write.Gives w.part w.answer) :
    ∀ call ∈ writes.map fun w => Call.fwrite file w.part w.data w.answer, P call := by
  intro call member
  obtain ⟨w, listed, rfl⟩ := List.mem_map.mp member
  exact admits.fwrite _ _ _ _ (origin w listed)

omit admits in
theorem fwrites_unpublished (file : Nat) (writes : List Write) (c : Ctx) :
    (c.fwrites file writes).r.segmentsClosed = c.r.segmentsClosed +
      (writes.map fun w => Call.fwrite file w.part w.data w.answer).countP Call.isPublished := by
  rw [countP_none, (fwrites_frame file c writes).1, Nat.add_zero]
  intro call member
  obtain ⟨w, -, rfl⟩ := List.mem_map.mp member
  rfl

/-- Writes of which none has to be counted. -/
theorem fwrites_emitting (file : Nat) (writes : List Write)
    (origin : ∀ w ∈ writes, answers.write.Gives w.part w.answer)
    (uncounted : ∀ w ∈ writes, w.part = .params ∨ w.answer.ok = true) (c : Ctx) :
    Emitting P c (c.fwrites file writes) := by
  refine ⟨_, fwrites_emits file c writes, fwrites_permitted cfg admits file writes origin, ?_,
    fwrites_unpublished file writes c⟩
  rw [countP_none, (fwrites_frame file c writes).1, Nat.add_zero]
  intro call member
  obtain ⟨w, listed, rfl⟩ := List.mem_map.mp member
  rcases uncounted w listed with params | ok
  · simp [Call.isCounted, params]
  · simp [Call.isCounted, ok]

/-- Writes of which the last failed, and the note taken of it. -/
theorem fwrites_failed_emitting (file : Nat) (writes : List Write)
    (origin : ∀ w ∈ writes, answers.write.Gives w.part w.answer) (fails : FailsLast writes) (c : Ctx) :
    Emitting P c (c.fwrites file writes).noteWriteError := by
  refine ⟨_, (fwrites_emits file c writes).trans (.none rfl rfl rfl), ?_, ?_, ?_⟩
  · rw [List.append_nil]
    exact fwrites_permitted cfg admits file writes origin
  · have errors : (c.fwrites file writes).noteWriteError.r.writeErrors = c.r.writeErrors + 1 := by
      rw [← (fwrites_frame file c writes).1]
      rfl
    obtain ⟨before, last, rfl, allOk, -⟩ := fails
    rw [errors, List.append_nil, List.map_append, List.countP_append, countP_none]
    · simp only [List.map_singleton, List.countP_singleton]
      split <;> omega
    · intro call member
      obtain ⟨w, listed, rfl⟩ := List.mem_map.mp member
      simp [Call.isCounted, allOk w listed]
  · rw [List.append_nil]
    exact fwrites_unpublished file writes c

theorem beginSegment_emitting (file : Nat) (holds : c.s.fp = some file)
    (nonempty : ev.data ≠ []) : Emitting P c (beginSegment cfg ev answers c) := by
  obtain ⟨writes, origin, result⟩ := beginSegment_cases cfg ev answers c file holds nonempty
  rcases result with ⟨allOk, -, soft⟩ | ⟨d, same, broken⟩
  · exact (fwrites_emitting cfg admits file writes origin (fun w member => .inr (allOk w member)) c).trans
      (soft.emitting admits.soft)
  · rw [same]
    refine .trans ?_ (discardSegment_emitting cfg admits d)
    rcases broken with ⟨fails, soft⟩ | ⟨-, params, soft⟩
    · exact (fwrites_failed_emitting cfg admits file writes origin fails c).trans
        (soft.emitting admits.soft)
    · exact (fwrites_emitting cfg admits file writes origin (fun w member => .inl (params w member)) c).trans
        (soft.emitting admits.soft)

/-- open_segment and what follows it, given that its marker is permitted. -/
theorem openBegin_emitting (ext : c.s.ext = codecExt c.s.codec)
    (streamId : c.s.streamId = ev.streamId) (supported : codecSupported c.s.codec = true)
    (valid : ev.streamId ≤ maxStreamsLimit) (video : ev.type = .video) (marker : P (.openSegment c.s.streamId c.s.fp))
    (nonempty : ev.data ≠ []) :
    let opened := openSegment cfg answers.open_ ev.wallMs ev.monoNs c
    Emitting P c (if opened.2 then beginSegment cfg ev answers opened.1 else opened.1) := by
  rcases openSegment_cases cfg answers.open_ ev.wallMs ev.monoNs c ext
    (streamId ▸ valid) with
    ⟨result, failed⟩ | ⟨result, opened⟩
  · obtain ⟨quiet, allQuiet, emits⟩ := failed.calls
    simp only [result, Bool.false_eq_true, if_false]
    refine ⟨_, emits, ?_, ?_, ?_⟩
    · intro call member
      rcases List.mem_cons.mp member with rfl | member
      · exact marker
      · exact admits.quiet call (allQuiet call member)
    · rw [List.countP_cons, countP_none _ fun call member => (allQuiet call member).uncounted.1,
        failed.writeErrors]
      simp [Call.isCounted]
    · rw [List.countP_cons, countP_none _ fun call member => (allQuiet call member).uncounted.2,
        failed.segmentsClosed]
      simp [Call.isPublished]
  · obtain ⟨quiet, allQuiet, emits⟩ := opened.calls
    simp only [result, if_true]
    refine .trans ⟨_, emits, ?_, ?_, ?_⟩ (beginSegment_emitting cfg admits _ opened.fp nonempty)
    · intro call member
      simp only [List.cons_append, List.mem_cons, List.mem_append, List.not_mem_nil, or_false] at member
      rcases member with rfl | member | rfl
      · exact marker
      · exact admits.quiet call (allQuiet call member)
      · rw [opened.tmpPath, opened.finalPath, streamId]
        exact admits.fopen video _ _ supported
    · rw [List.cons_append, List.countP_cons, List.countP_append,
        countP_none _ fun call member => (allQuiet call member).uncounted.1,
        opened.counts.writeErrors]
      simp [Call.isCounted]
    · rw [List.cons_append, List.countP_cons, List.countP_append,
        countP_none _ fun call member => (allQuiet call member).uncounted.2,
        opened.counts.segmentsClosed]
      simp [Call.isPublished]

theorem videoAppend_emitting (nonempty : ev.data ≠ []) (c : Ctx) :
    Emitting P c (videoAppend cfg ev answers c) := by
  unfold videoAppend
  cases holds : c.s.fp with
  | none => exact .refl c
  | some file =>
    obtain ⟨writes, origin, result⟩ :=
      writeSegmentPacket_cases cfg answers.write ev.data c file holds nonempty
    have given := fun w member => (origin w member).2
    rcases result with ⟨result, allOk, -, soft⟩ | ⟨result, fails, soft⟩
    · simp only [reduceCtorEq, if_false, result, if_true]
      exact (fwrites_emitting cfg admits file writes given (fun w member => .inr (allOk w member)) c).trans
        (soft.emitting admits.soft)
    · simp only [reduceCtorEq, if_false, result, Bool.false_eq_true]
      exact (((fwrites_failed_emitting cfg admits file writes given fails c).trans
        (soft.emitting admits.soft)).trans (discardSegment_emitting cfg admits _)).trans
          ((requestIdr_soft cfg _ _ _ _).emitting admits.soft)

/-- process_video, given what its two entries of open_segment are permitted. -/
theorem processVideo_emitting (armed : takesVideo c.s ev = true → Armed ev.streamId c.s)
    (valid : ev.streamId ≤ maxStreamsLimit) (video : ev.type = .video)
    (begins : takesVideo c.s ev = true → c.s.waitingKeyframe = true →
      P (.openSegment c.s.streamId c.s.fp))
    (rolls : P (.openSegment c.s.streamId none)) :
    Emitting P c (processVideo cfg ev answers c) := by
  have analyzed := analyze_segment c ev answers
  have first : Emitting P c (c.analyze ev answers) := .stream _ _
  have rearmed (d : Ctx) (soft : Soft (c.analyze ev answers) d) (taken : takesVideo c.s ev = true) :
      Armed ev.streamId d.s := by
    have was := armed taken
    refine Armed.same ⟨?_, ?_, ?_⟩ soft.stream <;> rw [analyzed]
    exacts [was.1, was.2, was.3]
  have streamId (d : Ctx) (soft : Soft (c.analyze ev answers) d) : d.s.streamId = c.s.streamId := by
    rw [soft.stream.streamId, analyzed]
  rcases processVideo_cases cfg ev answers c with ⟨-, same⟩ | ⟨-, -, d, before, after⟩ |
    ⟨-, -, soft⟩ | ⟨taken, -, waiting, -, -, d, soft, same⟩ | ⟨taken, -, -, -, -, d, soft, same⟩ |
    ⟨taken, -, -, d, soft, same⟩
  · rw [same]
    exact .refl c
  · have skip : Emitting P d d.awaitKeyframe := .stream _ _
    exact ((first.trans (before.emitting admits.soft)).trans skip).trans (after.emitting admits.soft)
  · exact first.trans (soft.emitting admits.soft)
  all_goals
    have nonempty := ((takesVideo_iff _ _).mp taken).1
    have ready := rearmed d soft taken
    rw [same]
    refine (first.trans (soft.emitting admits.soft)).trans ?_
  · have fp : d.s.fp = c.s.fp := by rw [soft.segment.fp, analyzed]
    exact openBegin_emitting cfg admits ready.ext ready.streamId ready.supported valid video
      (by rw [streamId d soft, fp]; exact begins taken waiting) nonempty
  · have closed := closeSegment_emitting cfg admits.toAdmitsOther answers.finish true d
    have idle : (closeSegment cfg answers.finish true d).1.s.fp = none ∧
        SameStream d.s (closeSegment cfg answers.finish true d).1.s := closeSegment_idle cfg _ _ d
    have again := ready.same idle.2
    have opened := openBegin_emitting cfg admits again.ext again.streamId again.supported valid
      video
      (by rw [idle.1, idle.2.streamId, streamId d soft]; exact rolls) nonempty
    refine closed.trans (opened.trans ?_)
    cases result : (openSegment cfg answers.open_ ev.wallMs ev.monoNs
        (closeSegment cfg answers.finish true d).1).2
    · simp only [videoRollover, result, Bool.false_eq_true, if_false]
      exact .stream _ _
    · simp only [videoRollover, result, if_true]
      exact .refl _
  · exact videoAppend_emitting cfg admits nonempty d

omit admits in
theorem processStreamStart_emitting (other : AdmitsOther P) (c : Ctx) :
    Emitting P c (processStreamStart cfg ev answers c) := by
  have replaced (s : RecorderStream) : Emitting P c
      {(closeSegment cfg answers.finish true c).1 with s := s} :=
    (closeSegment_emitting cfg other answers.finish true c).trans (.stream _ _)
  simp only [processStreamStart]
  split
  · exact replaced _
  split
  · exact replaced _
  · exact (replaced _).trans ((requestIdr_soft cfg _ _ _ _).emitting other.soft)

omit admits in
theorem processStreamStop_emitting (other : AdmitsOther P) (c : Ctx) :
    Emitting P c (processStreamStop cfg ev answers c) :=
  (closeSegment_emitting cfg other answers.finish true c).trans (.stream _ _)

/-- Any event on its stream. -/
theorem processEvent_emitting (armed : takesVideo c.s ev = true → Armed ev.streamId c.s)
    (valid : ev.streamId ≤ maxStreamsLimit)
    (begins : ev.type = .video → takesVideo c.s ev = true → c.s.waitingKeyframe = true →
      P (.openSegment c.s.streamId c.s.fp))
    (rolls : P (.openSegment c.s.streamId none)) :
    Emitting P c (processEvent cfg ev answers c) := by
  unfold processEvent
  cases type : ev.type with
  | streamStart => exact processStreamStart_emitting cfg admits.toAdmitsOther c
  | video => exact processVideo_emitting cfg admits armed valid type (begins type) rolls
  | streamStop => exact processStreamStop_emitting cfg admits.toAdmitsOther c

end StreamRelay.Recorder
