import StreamRelay.Recorder.Ledger

/-! The sessions of a stream, read off its events alone. A session runs from a
START the recorder accepts to the next START or STOP; its parameter sets are the
ones cached from its packets. The stream's record follows it. -/
namespace StreamRelay.Recorder

structure Session where
  codec : UInt32
  params : Fin 3 → Bytes

/-- The sets of the codec in file order. -/
def Session.sets (session : Session) : Bytes := (paramSlots session.codec).flatMap session.params

/-- All sets of the codec are cached, each a unit of its kind behind a start code. -/
def Session.Ready (session : Session) : Prop :=
  ∀ slot ∈ paramSlots session.codec, ∃ nal, paramSlot session.codec nal = some slot ∧
    session.params slot = startCode4 ++ nal

def Session.analyze (malloc : Nat → Bool) (data : Bytes) (session : Session) : Session :=
  {session with
    params := (analyzePayload malloc
      {RecorderStream.zero with codec := session.codec, params := session.params} data).1.params}

variable (cfg : Config) (stream : Nat)

def sessionStep (session : Option Session) (input : Input) : Option Session :=
  if input.event.streamId = stream then
    match input.event.type with
    | .streamStart =>
      if cfg.enabledStreams stream && codecSupported input.event.info.codec then
        some ⟨input.event.info.codec, fun _ => []⟩
      else none
    | .video => session.map (Session.analyze input.answers.malloc input.event.data)
    | .streamStop => none
  else session

def sessionOf (inputs : List Input) : Option Session := Run.run (sessionStep cfg stream) none inputs

def isPacket (input : Input) : Bool :=
  input.event.streamId = stream && input.event.type = .video && input.event.data ≠ []

/-- The non-empty payloads of the stream, in order. -/
def packets (inputs : List Input) : List Bytes :=
  (inputs.filter (isPacket stream)).map fun input => input.event.data

@[simp] theorem packets_append (first second : List Input) :
    packets stream (first ++ second) = packets stream first ++ packets stream second := by
  simp [packets]

theorem sessionOf_snoc (past : List Input) (input : Input) :
    sessionOf cfg stream (past ++ [input]) =
      sessionStep cfg stream (sessionOf cfg stream past) input := Run.run_snoc ..

/-- What a session has cached are units of their kinds behind start codes. -/
theorem sessionOf_sound (inputs : List Input) (session : Session)
    (current : sessionOf cfg stream inputs = some session) :
    codecSupported session.codec = true ∧ ParamsSound session.codec session.params := by
  refine Run.invariant (sessionStep cfg stream) none (fun current => ∀ session,
    current = some session → codecSupported session.codec = true ∧
      ParamsSound session.codec session.params) ?_ ?_ inputs session current
  · rintro session ⟨⟩
  · intro before input sound session after
    unfold sessionStep at after
    split at after
    · split at after
      · split at after
        · next accepted =>
          obtain rfl := Option.some.inj after
          simp only [Bool.and_eq_true] at accepted
          exact ⟨accepted.2, fun slot present => absurd rfl present⟩
        · cases after
      · obtain ⟨was, same, rfl⟩ := Option.map_eq_some_iff.mp after
        obtain ⟨supported, held⟩ := sound was same
        exact ⟨supported, analyzePayload_sound _ _ _ held⟩
      · cases after
    · exact sound session after

/-- The record agrees with the session. -/
structure InSession (session : Option Session) (s : RecorderStream) : Prop where
  current : session = if s.active then some ⟨s.codec, s.params⟩ else none
  accepted : s.active = true → s.enabled = true ∧ codecSupported s.codec = true
  holds : s.fp ≠ none → s.active = true

theorem InSession.of_inactive {s : RecorderStream} (inactive : s.active = false)
    (idle : s.fp = none) : InSession none s := by
  refine ⟨by rw [inactive]; rfl, fun active => ?_, fun held => (held idle).elim⟩
  rw [inactive] at active
  cases active

/-- Analysing for the session is analysing for the record. -/
theorem Session.analyze_record (malloc : Nat → Bool) (s : RecorderStream) (data : Bytes) :
    Session.analyze malloc data ⟨s.codec, s.params⟩ =
      ⟨s.codec, (analyzePayload malloc s data).1.params⟩ :=
  congrArg (Session.mk s.codec) (analyzePayload_sameSets malloc (by rfl) (by rfl) data)

theorem processVideo_session {c : Ctx} {session : Option Session} (custody : Custody cfg stream c c)
    (sound : Sound c) (ev : RecorderEvent) (armed : takesVideo c.s ev = true → Armed stream c.s)
    (valid : stream ≤ maxStreamsLimit) (answers : Answers) (agrees : InSession session c.s) :
    InSession (session.map (Session.analyze answers.malloc ev.data))
      (processVideo cfg ev answers c).s := by
  have current := agrees.current
  rcases processVideo_work cfg custody sound ev armed valid answers with ⟨taken, work⟩ | ⟨untaken, same⟩
  · obtain ⟨-, active, enabled, supported⟩ := (takesVideo_iff _ _).mp taken
    have analyzed := analyze_segment c ev answers
    have codec : (processVideo cfg ev answers c).s.codec = c.s.codec := by
      rw [work.same.codec, analyzed]
    have still : (processVideo cfg ev answers c).s.active = true := by
      rw [work.same.active, analyzed]
      exact active
    refine ⟨?_, fun _ => ⟨?_, by rw [codec]; exact supported⟩, fun _ => still⟩
    · rw [active] at current
      simp only [current, still, if_true, Option.map_some, Session.analyze_record, codec,
        work.same.params, Ctx.analyze]
    · rw [work.same.enabled, analyzed]
      exact enabled
  · rw [same]
    refine ⟨?_, agrees.accepted, agrees.holds⟩
    rw [current]
    cases active : c.s.active
    · rfl
    · obtain ⟨enabled, supported⟩ := agrees.accepted active
      have empty : ev.data = [] := by
        by_contra nonempty
        rw [(takesVideo_iff _ _).mpr ⟨nonempty, active, enabled, supported⟩] at untaken
        cases untaken
      simp [Session.analyze, empty, analyzePayload, forEachNal]

theorem processStreamStart_session (ev : RecorderEvent) (answers : Answers) (c : Ctx) :
    InSession (if cfg.enabledStreams ev.streamId && codecSupported ev.info.codec then
      some ⟨ev.info.codec, fun _ => []⟩ else none) (processStreamStart cfg ev answers c).s := by
  have enabled : (armedStream cfg ev).enabled = cfg.enabledStreams ev.streamId := rfl
  have codec : (armedStream cfg ev).codec = ev.info.codec := rfl
  cases on : cfg.enabledStreams ev.streamId
  · simp only [processStreamStart, enabled, on, Bool.not_false, if_true, Bool.false_and,
      Bool.false_eq_true, if_false]
    exact .of_inactive rfl rfl
  cases known : codecSupported ev.info.codec
  · simp only [processStreamStart, enabled, on, codec, known, Bool.not_false, Bool.not_true, if_true,
      Bool.and_false, Bool.false_eq_true, if_false]
    exact .of_inactive rfl rfl
  simp only [processStreamStart, enabled, on, codec, known, Bool.not_true, Bool.and_self, if_true,
    Bool.false_eq_true, if_false]
  have soft := requestIdr_soft cfg .recordStart ev.monoNs true
    {(closeSegment cfg answers.finish true c).1 with s := {armedStream cfg ev with active := true}}
  simp only [codec, enabled, on] at soft
  obtain ⟨-, kept, -, active, still, params⟩ := soft.stream
  refine ⟨?_, fun _ => ⟨still, by rw [kept]; exact known⟩, fun _ => active⟩
  rw [if_pos active, kept, params]
  rfl

/-- Every record agrees with the session its stream's events have made. -/
theorem session_run (mounts : List MntEnt) (nowNs : UInt64) (inputs : List Input)
    (valid : validStream cfg stream = true) :
    InSession (sessionOf cfg stream inputs) ((run cfg mounts nowNs inputs).streams stream) := by
  refine Run.history (step cfg) (start cfg mounts nowNs)
    (fun past m => InSession (sessionOf cfg stream past) (m.streams stream))
    (.of_inactive rfl rfl) ?_ inputs
  intro past input agrees
  have ledger : Ledger cfg (Run.run (step cfg) (start cfg mounts nowNs) past) :=
    ledger_run cfg mounts nowNs past
  rw [sessionOf_snoc, sessionStep]
  by_cases own : input.event.streamId = stream
  · subst own
    simp only [if_true, step, valid, Machine.tick_streams, Machine.onStream, Machine.install_self,
      processEvent]
    cases type : input.event.type with
    | streamStart => exact processStreamStart_session cfg input.event input.answers _
    | video =>
      exact processVideo_session cfg _ (ledger.custody cfg _) (ledger.sound _) input.event
        (ledger.taken cfg _ _) (valid_le cfg _ valid) input.answers agrees
    | streamStop => exact .of_inactive rfl rfl
  · have others : (step cfg (Run.run (step cfg) (start cfg mounts nowNs) past) input).streams stream =
        (Run.run (step cfg) (start cfg mounts nowNs) past).streams stream := by
      unfold step
      split
      · exact Machine.install_other _ _ _ _ (Ne.symm own)
      · rfl
    rw [if_neg own, others]
    exact agrees

end StreamRelay.Recorder
