import StreamRelay.Recorder.Calls

/-! The files of all streams together. Every file opened so far is held by exactly
one stream or done, in every state a run reaches and whatever fails on the way. -/
namespace StreamRelay.Recorder

section Machine

variable (m : Machine) (stream other : Nat) (c : Ctx)

@[simp] theorem Machine.install_self : (m.install stream c).streams stream = c.s := by
  simp [Machine.install]

theorem Machine.install_other (apart : other ≠ stream) :
    (m.install stream c).streams other = m.streams other := by
  simp [Machine.install, apart]

@[simp] theorem Machine.install_ctx : m.install stream (m.ctx stream) = m := by
  simp [Machine.install, Machine.ctx]

@[simp] theorem Machine.install_w : (m.install stream c).w = c.w := rfl
@[simp] theorem Machine.install_r : (m.install stream c).r = c.r := rfl
@[simp] theorem Machine.tick_streams : m.tick.streams = m.streams := rfl
@[simp] theorem Machine.tick_store : m.tick.w.store = m.w.store := rfl
@[simp] theorem Machine.tick_log : m.tick.w.log = m.w.log := rfl
@[simp] theorem Machine.tick_event : m.tick.w.event = m.w.event + 1 := rfl
@[simp] theorem Machine.tick_r : m.tick.r = m.r := rfl

end Machine

variable (cfg : Config)

structure Ledger (m : Machine) : Prop where
  armed : ∀ stream, (m.streams stream).active = true →
    (m.streams stream).streamId = stream ∧
      (m.streams stream).ext = codecExt (m.streams stream).codec
  valid : ∀ stream file, (m.streams stream).fp = some file → validStream cfg stream = true
  lt : ∀ stream file, (m.streams stream).fp = some file → file < m.w.store.next
  apart : ∀ a b file, (m.streams a).fp = some file → (m.streams b).fp = some file → a = b
  held : ∀ stream file, (m.streams stream).fp = some file → Held cfg stream (m.ctx stream) file
  sound : ∀ stream, Sound (m.ctx stream)
  fresh : ∀ file, m.w.store.next ≤ file → entriesOf m.w.log file = []
  done : ∀ file, file < m.w.store.next → (∀ stream, (m.streams stream).fp ≠ some file) →
    Done cfg m.w.log file

theorem Ledger.custody {m : Machine} (ledger : Ledger cfg m) (stream : Nat) :
    Custody cfg stream (m.ctx stream) (m.ctx stream) where
  next_le := Nat.le_refl _
  event := rfl
  log := ⟨[], (List.append_nil _).symm⟩
  entries_frame := fun _ _ _ => rfl
  files_frame := fun _ _ _ => rfl
  dir_frame := fun _ _ => rfl
  fresh := ledger.fresh
  own := fun file holds => ⟨ledger.lt stream file holds, .inl holds⟩
  held := ledger.held stream
  done := by
    intro file bound touched unheld
    rcases touched with holds | new
    · exact (unheld holds).elim
    · exact (Nat.not_lt.mpr new bound).elim

/-- The other streams are untouched by work on one. -/
theorem Ledger.install {m : Machine} (ledger : Ledger cfg m) (stream : Nat) {c : Ctx}
    (valid : validStream cfg stream = true) (custody : Custody cfg stream (m.ctx stream) c)
    (sound : Sound c)
    (armed : c.s.active = true → c.s.streamId = stream ∧ c.s.ext = codecExt c.s.codec) :
    Ledger cfg (m.install stream c) := by
  have spared (other file : Nat) (apart : other ≠ stream)
      (holds : (m.streams other).fp = some file) :
      file < (m.ctx stream).w.store.next ∧ (m.ctx stream).s.fp ≠ some file :=
    ⟨ledger.lt other file holds, fun own => apart (ledger.apart other stream file holds own)⟩
  have own_apart (other file : Nat) (apart : other ≠ stream)
      (holds : (m.streams other).fp = some file) : c.s.fp ≠ some file := by
    intro own
    obtain ⟨old, unheld⟩ := spared other file apart holds
    rcases (custody.own file own).2 with before | new
    · exact unheld before
    · exact Nat.not_lt.mpr new old
  have entries (other file : Nat) (apart : other ≠ stream)
      (holds : (m.streams other).fp = some file) :
      entriesOf c.w.log file = entriesOf m.w.log file :=
    custody.entries_frame file (spared other file apart holds).1 (spared other file apart holds).2
  refine ⟨?_, ?_, ?_, ?_, ?_, ?_, custody.fresh, ?_⟩
  · intro other active
    by_cases same : other = stream
    · subst same
      simp only [Machine.install_self] at active ⊢
      exact armed active
    · rw [Machine.install_other _ _ _ _ same] at active ⊢
      exact ledger.armed other active
  · intro other file holds
    by_cases same : other = stream
    · exact same ▸ valid
    · rw [Machine.install_other _ _ _ _ same] at holds
      exact ledger.valid other file holds
  · intro other file holds
    by_cases same : other = stream
    · subst same
      rw [Machine.install_self] at holds
      exact (custody.own file holds).1
    · rw [Machine.install_other _ _ _ _ same] at holds
      exact Nat.lt_of_lt_of_le (ledger.lt other file holds) custody.next_le
  · intro a b file left right
    by_cases sameA : a = stream <;> by_cases sameB : b = stream
    · exact sameA.trans sameB.symm
    · subst sameA
      rw [Machine.install_self] at left
      rw [Machine.install_other _ _ _ _ sameB] at right
      exact (own_apart b file sameB right left).elim
    · subst sameB
      rw [Machine.install_self] at right
      rw [Machine.install_other _ _ _ _ sameA] at left
      exact (own_apart a file sameA left right).elim
    · rw [Machine.install_other _ _ _ _ sameA] at left
      rw [Machine.install_other _ _ _ _ sameB] at right
      exact ledger.apart a b file left right
  · intro other file holds
    by_cases same : other = stream
    · subst same
      rw [Machine.install_self] at holds
      exact (custody.held file holds).congr cfg (by simp [Machine.ctx]) (by simp [Machine.ctx])
        (by simp only [Machine.ctx, Machine.install_self]; exact .refl _) rfl rfl rfl
    · have keeps := Machine.install_other m stream other c same
      rw [keeps] at holds
      have was := ledger.held other file holds
      have dir : c.w.store.dir (m.streams other).tmpPath = m.w.store.dir (m.streams other).tmpPath := by
        refine custody.dir_frame _ fun inside => same ?_
        obtain ⟨-, -, tmpIn, -⟩ := was.paths cfg
        exact inDir_disjoint cfg tmpIn inside
      exact was.congr cfg (by simp [Machine.ctx, keeps]) (by simp [Machine.ctx, keeps])
        (by simp only [Machine.ctx, keeps]; exact .refl _) (entries other file same holds)
        (custody.files_frame file (spared other file same holds).1 (spared other file same holds).2)
        dir
  · intro other file holds
    by_cases same : other = stream
    · subst same
      simp only [Machine.ctx, Machine.install_self] at holds
      exact sound file holds
    · simp only [Machine.ctx, Machine.install_other _ _ _ _ same] at holds
      have was := ledger.sound other file holds
      simp only [Machine.ctx, Machine.install_w]
      rw [entries other file same holds]
      exact was
  · intro file bound unheld
    have mine := unheld stream
    rw [Machine.install_self] at mine
    by_cases touched : (m.streams stream).fp = some file ∨ m.w.store.next ≤ file
    · exact custody.done file bound touched mine
    · have unheldBefore : ∀ other, (m.streams other).fp ≠ some file := by
        intro other holds
        by_cases same : other = stream
        · exact touched (.inl (same ▸ holds))
        · have still := unheld other
          rw [Machine.install_other _ _ _ _ same] at still
          exact still holds
      have old : file < m.w.store.next := by omega
      exact (ledger.done file old unheldBefore).later cfg custody.log
        (custody.entries_frame file old (unheldBefore stream))

theorem Ledger.tick {m : Machine} (ledger : Ledger cfg m) : Ledger cfg m.tick where
  armed := ledger.armed
  valid := ledger.valid
  lt := ledger.lt
  apart := ledger.apart
  held := fun stream file holds =>
    (ledger.held stream file holds).congr cfg rfl rfl (.refl _) rfl rfl rfl
  sound := ledger.sound
  fresh := ledger.fresh
  done := ledger.done

theorem ledger_start (mounts : List MntEnt) (nowNs : UInt64) : Ledger cfg (start cfg mounts nowNs) where
  armed := fun _ active => by cases active
  valid := fun _ _ holds => by cases holds
  lt := fun _ _ holds => by cases holds
  apart := fun _ _ _ holds => by cases holds
  held := fun _ _ holds => by cases holds
  sound := fun _ _ holds => by cases holds
  fresh := fun _ _ => rfl
  done := fun _ bound => absurd bound (Nat.not_lt_zero _)

theorem valid_le (stream : Nat) (valid : validStream cfg stream = true) :
    stream ≤ maxStreamsLimit := by
  simp only [validStream, Bool.and_eq_true, decide_eq_true_eq] at valid
  exact Nat.le_trans valid.2 cfg.maxStreams_le

theorem Ledger.taken {m : Machine} (ledger : Ledger cfg m) (stream : Nat) (ev : RecorderEvent)
    (taken : takesVideo (m.ctx stream).s ev = true) : Armed stream (m.ctx stream).s := by
  obtain ⟨-, active, -, supported⟩ := (takesVideo_iff _ _).mp taken
  obtain ⟨streamId, ext⟩ := ledger.armed _ active
  exact ⟨streamId, ext, supported⟩

/-- Processing one event on its stream keeps the files in order. -/
theorem processEvent_work {m : Machine} (ledger : Ledger cfg m) (input : Input)
    (valid : validStream cfg input.event.streamId = true) :
    let c := processEvent cfg input.event input.answers (m.ctx input.event.streamId)
    Custody cfg input.event.streamId (m.ctx input.event.streamId) c ∧ Sound c ∧
      (c.s.active = true → c.s.streamId = input.event.streamId ∧ c.s.ext = codecExt c.s.codec) := by
  have custody := ledger.custody cfg input.event.streamId
  have sound := ledger.sound input.event.streamId
  obtain ⟨closed, idle⟩ := closeSegment_work cfg custody sound input.answers.finish
  unfold processEvent
  cases input.event.type with
  | streamStart =>
    have replaced (s : RecorderStream) (clear : s.fp = none) :
        Custody cfg input.event.streamId (m.ctx input.event.streamId)
          {(closeSegment cfg input.answers.finish true (m.ctx input.event.streamId)).1 with s := s} :=
      closed.custody.replace cfg idle clear rfl
    simp only [processStreamStart]
    split
    · exact ⟨replaced _ rfl, .of_none rfl, fun _ => ⟨rfl, rfl⟩⟩
    split
    · exact ⟨replaced _ rfl, .of_none rfl, fun _ => ⟨rfl, rfl⟩⟩
    · have soft := requestIdr_soft cfg .recordStart input.event.monoNs true
        {(closeSegment cfg input.answers.finish true (m.ctx input.event.streamId)).1 with
          s := {armedStream cfg input.event with active := true}}
      refine ⟨(replaced _ rfl).soft cfg soft, .of_none (soft.segment.fp.trans rfl), fun _ => ?_⟩
      exact ⟨soft.stream.streamId, by rw [soft.stream.ext, soft.stream.codec]; rfl⟩
  | video =>
    rcases processVideo_work cfg custody sound input.event (ledger.taken cfg _ _)
      (valid_le cfg _ valid) input.answers with ⟨-, work⟩ | ⟨-, same⟩
    · refine ⟨work.custody, work.sound, fun active => ?_⟩
      have analyzed := analyze_segment (m.ctx input.event.streamId) input.event input.answers
      rw [work.same.active, analyzed] at active
      rw [work.same.streamId, work.same.ext, work.same.codec, analyzed]
      exact ledger.armed _ active
    · simp only [same]
      exact ⟨custody, sound, ledger.armed _⟩
  | streamStop =>
    exact ⟨closed.custody.replace cfg idle rfl rfl, .of_none rfl, fun active => by cases active⟩

theorem ledger_step (m : Machine) (input : Input) (ledger : Ledger cfg m) :
    Ledger cfg (step cfg m input) := by
  unfold step
  split
  · next valid =>
    obtain ⟨custody, sound, armed⟩ := processEvent_work cfg ledger input valid
    exact (ledger.install cfg _ valid custody sound armed).tick cfg
  · exact ledger.tick cfg

theorem ledger_run (mounts : List MntEnt) (nowNs : UInt64) (inputs : List Input) :
    Ledger cfg (run cfg mounts nowNs inputs) :=
  Run.invariant _ _ _ (ledger_start cfg mounts nowNs) (ledger_step cfg) inputs

/-- The entries one step adds, all with the number of its event. -/
theorem step_emits {P : Call → Prop} {m : Machine} (ledger : Ledger cfg m) (input : Input)
    (admits : Admits cfg P input.event input.answers)
    (begins : validStream cfg input.event.streamId = true → input.event.type = .video →
      takesVideo (m.streams input.event.streamId) input.event = true →
      (m.streams input.event.streamId).waitingKeyframe = true →
      P (.openSegment (m.streams input.event.streamId).streamId
        (m.streams input.event.streamId).fp))
    (rolls : ∀ stream, P (.openSegment stream none)) :
    ∃ calls : List Call, (step cfg m input).w.log = m.w.log ++ calls.map (Entry.mk m.w.event) ∧
      (∀ call ∈ calls, P call) ∧
      (step cfg m input).r.nfsMounted = calls.foldl gateAfter m.r.nfsMounted ∧
      (step cfg m input).w.event = m.w.event + 1 ∧
      m.r.writeErrors + calls.countP Call.isCounted ≤ (step cfg m input).r.writeErrors ∧
      (step cfg m input).r.segmentsClosed =
        m.r.segmentsClosed + calls.countP Call.isPublished := by
  unfold step
  split
  · next valid =>
    obtain ⟨calls, emits, each, errors, closed⟩ := processEvent_emitting cfg admits
      (c := m.ctx input.event.streamId) (ledger.taken cfg _ _) (valid_le cfg _ valid)
      (begins valid) (rolls _)
    exact ⟨calls, emits.log, each, emits.gate, congrArg (· + 1) emits.event, errors, closed⟩
  · exact ⟨[], by simp, by simp, rfl, rfl, Nat.le_refl _, rfl⟩

theorem range_valid (stream : Nat) :
    stream ∈ List.range' 1 cfg.maxStreams ↔ validStream cfg stream = true := by
  simp only [List.mem_range'_1, validStream, Bool.and_eq_true, decide_eq_true_eq]
  omega

theorem closeStream_ledger {m : Machine} (ledger : Ledger cfg m) (answers : CloseAnswers)
    (stream : Nat) (valid : validStream cfg stream = true) :
    let closed := m.onStream stream fun c => freeParamSets (closeSegment cfg answers true c).1
    Ledger cfg closed ∧ (closed.streams stream).fp = none ∧
      ∀ other, other ≠ stream → closed.streams other = m.streams other := by
  obtain ⟨closed, idle⟩ :=
    closeSegment_work cfg (ledger.custody cfg stream) (ledger.sound stream) answers
  have freed : Custody cfg stream (m.ctx stream)
      (freeParamSets (closeSegment cfg answers true (m.ctx stream)).1) :=
    closed.custody.replace cfg idle idle rfl
  refine ⟨ledger.install cfg stream valid freed (.of_none idle) fun active => ?_, ?_, ?_⟩
  · have was : (m.streams stream).active = true := closed.same.active ▸ active
    have armed := ledger.armed stream was
    exact ⟨closed.same.streamId.trans armed.1,
      closed.same.ext.trans (armed.2.trans (congrArg codecExt closed.same.codec.symm))⟩
  · simp only [Machine.onStream, Machine.install_self]
    exact idle
  · intro other apart
    exact Machine.install_other _ _ _ _ apart

theorem closeStreams_ledger (answers : Nat → CloseAnswers) (streams : List Nat)
    (valid : ∀ stream ∈ streams, validStream cfg stream = true) (m : Machine)
    (ledger : Ledger cfg m) :
    Ledger cfg (closeStreams cfg answers streams m) ∧
      ∀ stream, stream ∈ streams ∨ (m.streams stream).fp = none →
        ((closeStreams cfg answers streams m).streams stream).fp = none := by
  induction streams generalizing m with
  | nil =>
    refine ⟨ledger, fun stream closed => ?_⟩
    rcases closed with inside | idle
    · cases inside
    · exact idle
  | cons stream rest ih =>
    obtain ⟨first, idle, others⟩ :=
      closeStream_ledger cfg ledger (answers stream) stream (valid stream (by simp))
    obtain ⟨last, closed⟩ := ih (fun later member => valid later (by simp [member])) _ first
    refine ⟨last, fun other given => closed other ?_⟩
    by_cases same : other = stream
    · exact .inr (same ▸ idle)
    · rcases given with inside | was
      · rcases List.mem_cons.mp inside with eq | inside
        · exact (same eq).elim
        · exact .inl inside
      · exact .inr (by rw [others other same]; exact was)

theorem closeStreams_emits {P : Call → Prop} (admits : AdmitsOther P)
    (answers : Nat → CloseAnswers) (streams : List Nat) (m : Machine) :
    ∃ calls : List Call, (closeStreams cfg answers streams m).w.log =
        m.w.log ++ calls.map (Entry.mk m.w.event) ∧ (∀ call ∈ calls, P call) ∧
      m.r.writeErrors + calls.countP Call.isCounted ≤
        (closeStreams cfg answers streams m).r.writeErrors ∧
      (closeStreams cfg answers streams m).r.segmentsClosed =
        m.r.segmentsClosed + calls.countP Call.isPublished := by
  induction streams generalizing m with
  | nil => exact ⟨[], by simp [closeStreams], by simp, Nat.le_refl _, rfl⟩
  | cons stream rest ih =>
    obtain ⟨first, emits, each, errors, published⟩ :=
      closeSegment_emitting cfg admits (answers stream) true (m.ctx stream)
    obtain ⟨later, log, more, laterErrors, laterPublished⟩ :=
      ih (m.onStream stream fun c => freeParamSets (closeSegment cfg (answers stream) true c).1)
    refine ⟨first ++ later, ?_, ?_, ?_, ?_⟩
    · have event : (m.onStream stream fun c =>
          freeParamSets (closeSegment cfg (answers stream) true c).1).w.event = m.w.event :=
        emits.event
      have before : (m.onStream stream fun c =>
          freeParamSets (closeSegment cfg (answers stream) true c).1).w.log =
            m.w.log ++ first.map (Entry.mk m.w.event) := emits.log
      rw [closeStreams, log, event, before, List.map_append, List.append_assoc]
    · intro call member
      rcases List.mem_append.mp member with left | right
      · exact each call left
      · exact more call right
    · rw [List.countP_append, closeStreams]
      refine Nat.le_trans ?_ laterErrors
      rw [← Nat.add_assoc]
      exact Nat.add_le_add_right errors _
    · rw [List.countP_append, closeStreams, laterPublished, ← Nat.add_assoc]
      exact congrArg (· + _) published

/-- After the thread has ended no stream holds a file, so every file is done. -/
theorem shutdown_ledger (answers : Nat → CloseAnswers) (m : Machine) (ledger : Ledger cfg m) :
    Ledger cfg (shutdown cfg answers m) ∧
      ∀ file, file < (shutdown cfg answers m).w.store.next →
        Done cfg (shutdown cfg answers m).w.log file := by
  obtain ⟨last, closed⟩ := closeStreams_ledger cfg answers (List.range' 1 cfg.maxStreams)
    (fun stream member => (range_valid cfg stream).mp member) m ledger
  refine ⟨last, fun file bound => last.done file bound fun stream holds => ?_⟩
  have idle : ((shutdown cfg answers m).streams stream).fp = none := by
    refine closed stream ?_
    cases valid : validStream cfg stream
    · right
      cases was : (m.streams stream).fp with
      | none => rfl
      | some file =>
        have := ledger.valid stream file was
        rw [valid] at this
        cases this
    · exact .inl ((range_valid cfg stream).mpr valid)
  rw [shutdown] at idle
  rw [idle] at holds
  cases holds

/-- The states a run reaches, with the thread still running or ended. -/
def Reached (mounts : List MntEnt) (nowNs : UInt64) (inputs : List Input) (m : Machine) : Prop :=
  m = run cfg mounts nowNs inputs ∨ ∃ answers, m = shutdown cfg answers (run cfg mounts nowNs inputs)

theorem Reached.ledger {mounts : List MntEnt} {nowNs : UInt64} {inputs : List Input} {m : Machine}
    (reached : Reached cfg mounts nowNs inputs m) : Ledger cfg m := by
  rcases reached with rfl | ⟨answers, rfl⟩
  · exact ledger_run cfg mounts nowNs inputs
  · exact (shutdown_ledger cfg answers _ (ledger_run cfg mounts nowNs inputs)).1

theorem admits_all (ev : RecorderEvent) (answers : Answers) :
    Admits cfg (fun _ => True) ev answers where
  soft := fun _ _ => trivial
  closing := fun _ _ => trivial
  quiet := fun _ _ => trivial
  fopen := fun _ _ _ _ => trivial
  fwrite := fun _ _ _ _ _ => trivial

/-- Events are numbered by their place among the inputs. -/
theorem run_event (mounts : List MntEnt) (nowNs : UInt64) (inputs : List Input) :
    (run cfg mounts nowNs inputs).w.event = inputs.length := by
  refine Run.history _ _ (fun past m => Ledger cfg m ∧ m.w.event = past.length)
    ⟨ledger_start cfg mounts nowNs, rfl⟩ ?_ inputs |>.2
  rintro past input ⟨ledger, event⟩
  obtain ⟨_, _, _, _, next, _⟩ := step_emits cfg (P := fun _ => True) ledger input
    (admits_all cfg _ _) (fun _ _ _ _ => trivial) (fun _ => trivial)
  exact ⟨ledger_step cfg _ input ledger, by rw [next, event, List.length_append]; rfl⟩

/-- Every call of a run is one that the event with its number permits. -/
theorem log_origin {P : Input → Call → Prop}
    (admits : ∀ input, Admits cfg (P input) input.event input.answers)
    (markers : ∀ input stream held, P input (.openSegment stream held))
    (mounts : List MntEnt) (nowNs : UInt64) (inputs : List Input) :
    ∀ entry ∈ (run cfg mounts nowNs inputs).w.log,
      ∃ input, inputs[entry.event]? = some input ∧ P input entry.call := by
  refine Run.history (step cfg) (start cfg mounts nowNs) (fun past m =>
    ∀ entry ∈ m.w.log, ∃ input, past[entry.event]? = some input ∧ P input entry.call) ?_ ?_ inputs
  · intro entry member
    cases member
  · intro past input origin entry member
    have event : (Run.run (step cfg) (start cfg mounts nowNs) past).w.event = past.length :=
      run_event cfg mounts nowNs past
    obtain ⟨calls, log, each, -⟩ := step_emits cfg (ledger_run cfg mounts nowNs past) input
      (admits input) (fun _ _ _ _ => markers _ _ _) (fun _ => markers _ _ _)
    rw [run] at log
    rw [log, event] at member
    rcases List.mem_append.mp member with before | new
    · obtain ⟨found, place, permitted⟩ := origin entry before
      have inside : entry.event < past.length := by
        by_contra past_end
        rw [List.getElem?_eq_none (Nat.not_lt.mp past_end)] at place
        cases place
      exact ⟨found, by rw [List.getElem?_append_left inside, place], permitted⟩
    · obtain ⟨call, listed, rfl⟩ := List.mem_map.mp new
      exact ⟨input, by simp, each call listed⟩

/-- After the last event there are only closes and what follows them. -/
theorem shutdown_log (answers : Nat → CloseAnswers) (m : Machine) :
    ∃ calls : List Call, (shutdown cfg answers m).w.log =
      m.w.log ++ calls.map (Entry.mk m.w.event) ∧ ∀ call ∈ calls, call.IsSoft ∨ call.IsClosing := by
  obtain ⟨calls, log, each, -⟩ := closeStreams_emits cfg
    (P := fun call => call.IsSoft ∨ call.IsClosing) ⟨fun _ => .inl, fun _ => .inr⟩ answers
    (List.range' 1 cfg.maxStreams) m
  exact ⟨calls, log, each⟩

theorem mem_entriesOf {log : List Entry} {file : Nat} {entry : Entry} :
    entry ∈ entriesOf log file ↔ entry ∈ log ∧ entry.call.file = some file := by
  simp [entriesOf]

theorem Unclosed.not_renamed {file : Nat} {tmp : CString} {entries : List Entry}
    (unclosed : Unclosed file tmp entries) :
    ∀ entry ∈ entries, ∀ segment content ok, entry.call ≠ .rename segment content ok := by
  obtain ⟨opened, writes, rfl, sound⟩ := unclosed
  intro entry member segment content ok same
  rcases List.mem_cons.mp member with rfl | listed
  · cases same
  · obtain ⟨part, data, answer, write⟩ := sound entry listed
    rw [write] at same
    cases same

/-- A file that was renamed, or tried to be, is a settled one. -/
theorem Ledger.renamed {m : Machine} (ledger : Ledger cfg m) {entry : Entry}
    (member : entry ∈ m.w.log) {segment : Segment} {content : Option Bytes} {ok : Bool}
    (rename : entry.call = .rename segment content ok) :
    Settled cfg segment.file (entriesOf m.w.log segment.file) := by
  have inside : entry ∈ entriesOf m.w.log segment.file :=
    mem_entriesOf.mpr ⟨member, by simp [rename, Call.file]⟩
  have bound : segment.file < m.w.store.next := by
    by_contra past
    rw [ledger.fresh _ (Nat.not_lt.mp past)] at inside
    cases inside
  by_cases holder : ∃ stream, (m.streams stream).fp = some segment.file
  · obtain ⟨stream, holds⟩ := holder
    exact ((ledger.held stream _ holds).unclosed.not_renamed entry inside _ _ _ rename).elim
  · rcases ledger.done _ bound (not_exists.mp holder) with settled | ⟨⟨tmp, unclosed⟩, -⟩
    · exact settled
    · exact (unclosed.not_renamed entry inside _ _ _ rename).elim

/-- What a settled file's rename entry says of its segment. -/
theorem Settled.rename {file : Nat} {entries : List Entry} (settled : Settled cfg file entries)
    {entry : Entry} (member : entry ∈ entries) {segment : Segment} {content : Option Bytes}
    {ok : Bool} (rename : entry.call = .rename segment content ok) :
    ∃ closed before, Unclosed file segment.tmp before ∧ Intact before ∧
      entries = before ++ [⟨entry.event, .fclose file true closed⟩,
        ⟨entry.event, .rename segment content ok⟩] ∧
      segment.tmp = segment.final ++ tmpSuffix ∧ codecSupported segment.codec = true ∧
      segment.final = segmentName cfg segment.stream (codecExt segment.codec) segment.startWallMs ∧
      (closed = true ∨ Passed before → content = some (written before)) := by
  rcases settled with ⟨own, bytes, closed, done, event, before, unclosed, intact, rfl, -, tmp,
    supported, final, whole⟩ | ⟨tmp, closed, event, before, unclosed, -, rfl⟩
  all_goals
    simp only [List.mem_append, List.mem_cons, List.not_mem_nil, or_false] at member
    rcases member with listed | rfl | rfl
  · exact (unclosed.not_renamed entry listed _ _ _ rename).elim
  · cases rename
  · obtain ⟨rfl, rfl, rfl⟩ := Call.rename.inj rename
    exact ⟨closed, before, unclosed, intact, rfl, tmp, supported, final, whole⟩
  · exact (unclosed.not_renamed entry listed _ _ _ rename).elim
  · cases rename
  · cases rename

end StreamRelay.Recorder
