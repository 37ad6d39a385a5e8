import StreamRelay.Server.Sessions

/-! When the decoders of all streams fit what their senders announced. A packet
breaks this exactly when it announces something else to a stream that has a
decoder, of itself or through the copies of a stress test. -/
namespace StreamRelay.Server

variable {Picture : Type*} (cfg : ServerConfig) (codec : Codec Picture)

namespace State

def sessions (s : State Picture) (streamId : Nat) : Session := (s.streams streamId).session

theorem sessions_onStream (s : State Picture) (streamId : Nat)
    (f : StreamContext Picture → StreamContext Picture) :
    (s.onStream streamId f).sessions =
      Function.update s.sessions streamId (f (s.streams streamId)).session := by
  funext other
  by_cases same : other = streamId
  · subst same
    simp [sessions, onStream]
  · simp [sessions, onStream, same]

theorem sessions_kept (s : State Picture) (streamId : Nat)
    (f : StreamContext Picture → StreamContext Picture)
    (kept : (f (s.streams streamId)).session = (s.streams streamId).session) :
    (s.onStream streamId f).sessions = s.sessions := by
  rw [sessions_onStream, kept]
  exact Function.update_eq_self _ _

/-- Steps that leave every session as it is, and the stress test's two flags. -/
structure Quiet (s s' : State Picture) : Prop where
  sessions : s'.sessions = s.sessions
  stress : s'.stress.enabled = s.stress.enabled
  stressEnabled : s'.stressEnabled = s.stressEnabled
  stressCopies : s'.stressCopies = s.stressCopies

theorem Quiet.refl (s : State Picture) : Quiet s s := ⟨rfl, rfl, rfl, rfl⟩

theorem Quiet.trans {s s' s'' : State Picture} (one : Quiet s s') (two : Quiet s' s'') :
    Quiet s s'' :=
  ⟨two.sessions.trans one.sessions, two.stress.trans one.stress,
    two.stressEnabled.trans one.stressEnabled, two.stressCopies.trans one.stressCopies⟩

theorem quiet_onStream (s : State Picture) (streamId : Nat)
    (f : StreamContext Picture → StreamContext Picture)
    (kept : ∀ stream, (f stream).session = stream.session) : Quiet s (s.onStream streamId f) :=
  ⟨sessions_kept s streamId f (kept _), rfl, rfl, rfl⟩

theorem quiet_requestIdrForStream (s : State Picture) (streamId : Nat) (nowNs : UInt64)
    (reason : IdrReason) : Quiet s (s.requestIdrForStream streamId nowNs reason) := by
  have kept := sessions_kept s streamId (fun _ => ((s.streams streamId).requestIdr nowNs).1)
    (StreamContext.session_requestIdr nowNs _)
  unfold requestIdrForStream
  dsimp only
  split <;> exact ⟨kept, rfl, rfl, rfl⟩

theorem quiet_maybeRequestIdrForNoDecode (s : State Picture) (streamId : Nat)
    (nowNs requestNs : UInt64) :
    Quiet s (s.maybeRequestIdrForNoDecode streamId nowNs requestNs) := by
  unfold maybeRequestIdrForNoDecode
  split
  · exact quiet_requestIdrForStream s streamId requestNs _
  · exact .refl s

theorem quiet_maybeRequestIdrForDecodeStall (s : State Picture) (streamId : Nat)
    (nowNs requestNs : UInt64) :
    Quiet s (s.maybeRequestIdrForDecodeStall streamId nowNs requestNs) := by
  have watched : Quiet s (s.onStream streamId fun _ => ((s.streams streamId).decodeStall nowNs).1) :=
    ⟨sessions_kept s streamId _ (StreamContext.session_decodeStall nowNs _), rfl, rfl, rfl⟩
  unfold maybeRequestIdrForDecodeStall
  dsimp only
  split
  · exact watched.trans (quiet_requestIdrForStream _ streamId requestNs _)
  · exact watched

theorem quiet_stressTestDecode (s : State Picture) (source : Nat) (data : Bytes)
    (malloc : Nat → Bool) : Quiet s (s.stressTestDecode source data malloc) := by
  unfold stressTestDecode
  split <;> exact ⟨rfl, rfl, rfl, rfl⟩

theorem quiet_stressDecodeWorker (s : State Picture) (i : Nat) (malloc : Bool)
    (rounds : List ParseAnswer) : Quiet s (s.stressDecodeWorker codec i malloc rounds) := by
  unfold stressDecodeWorker
  split
  case h_2 => exact .refl s
  case h_1 data streamId _ _ _ =>
    have taken : Quiet s {s with stress.queues := Function.update s.stress.queues i none} :=
      ⟨rfl, rfl, rfl, rfl⟩
    dsimp only
    split
    · exact taken.trans
        (quiet_onStream _ streamId _ (StreamContext.session_decodeVideo codec rounds))
    · exact taken

theorem quiet_tapPayload (s : State Picture) (streamId : Nat) (payload : Bytes) (starts : Bool) :
    Quiet s (s.tapPayload streamId payload starts) := by
  unfold tapPayload
  dsimp only
  split <;> exact ⟨rfl, rfl, rfl, rfl⟩

theorem quiet_handleVideoData (s : State Picture) (streamId : Nat) (payload : Bytes)
    (answers : PacketAnswers) : Quiet s (s.handleVideoData codec streamId payload answers) := by
  have counted := quiet_onStream s streamId
    (StreamContext.updateStats (UInt64.ofNat (tcpHeaderSize + payload.length)) true) fun _ => rfl
  have taped := counted.trans (quiet_tapPayload _ streamId payload answers.tapStarts)
  have recorded (s : State Picture) : Quiet s (s.emit (.record (.video streamId payload))) :=
    ⟨rfl, rfl, rfl, rfl⟩
  have decoded (s : State Picture) := quiet_onStream s streamId
    (StreamContext.decodeVideo codec answers.rounds)
    (StreamContext.session_decodeVideo codec answers.rounds)
  have watched (s : State Picture) : Quiet s (s.watchDecoding streamId answers.clock) :=
    (quiet_maybeRequestIdrForNoDecode s streamId _ _).trans
      (quiet_maybeRequestIdrForDecodeStall _ streamId _ _)
  have all := ((taped.trans (recorded _)).trans (decoded _)).trans (watched _)
  unfold handleVideoData
  dsimp only
  split
  · exact counted
  · split
    · exact all.trans (quiet_stressTestDecode _ streamId payload answers.queueMalloc)
    · exact all

section Copies

theorem copyId_lt {source i j : Nat} (less : i < j) : copyId source i < copyId source j := by
  unfold copyId
  split <;> split <;> omega

theorem copyId_ne (source i : Nat) : copyId source i ≠ source := by
  unfold copyId
  split <;> omega

/-- The streams that `count` copies from the `i`-th on go to. -/
def IsCopy (source i count streamId : Nat) : Prop :=
  ∃ j, i ≤ j ∧ j < i + count ∧ copyId source j = streamId ∧ streamId ≤ cfg.maxStreams

theorem isCopy_first {source i count : Nat} (inside : copyId source i ≤ cfg.maxStreams) :
    IsCopy cfg source i (count + 1) (copyId source i) ∧
      ¬ IsCopy cfg source (i + 1) count (copyId source i) := by
  refine ⟨⟨i, Nat.le_refl _, by omega, rfl, inside⟩, ?_⟩
  rintro ⟨j, later, -, same, -⟩
  have less : copyId source i < copyId source j := copyId_lt (by omega)
  omega

theorem isCopy_later {source i count streamId : Nat} (other : streamId ≠ copyId source i) :
    IsCopy cfg source (i + 1) count streamId ↔ IsCopy cfg source i (count + 1) streamId := by
  constructor
  · rintro ⟨j, first, last, same⟩
    exact ⟨j, by omega, by omega, same⟩
  · rintro ⟨j, first, last, rfl, inside⟩
    have more : j ≠ i := by
      rintro rfl
      exact other rfl
    exact ⟨j, by omega, by omega, rfl, inside⟩

theorem not_isCopy_outside {source i count streamId : Nat} (outside : cfg.maxStreams < copyId source i) :
    ¬ IsCopy cfg source i count streamId := by
  rintro ⟨j, first, -, rfl, inside⟩
  rcases Nat.eq_or_lt_of_le first with rfl | later
  · omega
  · have less : copyId source i < copyId source j := copyId_lt later
    omega

theorem initDecoder_sessions (s : State Picture) (streamId : Nat) (backend : DecodeBackend)
    (answers : Nat → AttemptAnswers) :
    (s.initDecoder streamId backend answers).1.sessions =
      Function.update s.sessions streamId
        ((s.streams streamId).initDecoder s.decoders backend answers).1.session :=
  sessions_onStream s streamId fun _ =>
    ((s.streams streamId).initDecoder s.decoders backend answers).1

/-- A stream whose metadata are replaced is coherent with a decoder of its own
making, or with the one it has if that fits. -/
theorem announce_coherent (s : State Picture) (streamId : Nat) (info : StreamInfo)
    (f : StreamContext Picture → StreamContext Picture)
    (announced : ∀ stream, (f stream).session = {stream.session with info := info, received := true})
    (backend : DecodeBackend) (answers : Nat → AttemptAnswers) :
    let s' := ((s.onStream streamId f).initDecoder streamId backend answers).1
    ((s'.sessions streamId).info = info ∧ (s'.sessions streamId).received = true) ∧
      ((s'.sessions streamId).Coherent ↔ (s.sessions streamId).Keeps info) ∧
      ∀ other, other ≠ streamId → s'.sessions other = s.sessions other := by
  have placed : (s.onStream streamId f).streams streamId = f (s.streams streamId) := by
    simp [onStream]
  obtain ⟨info', received, coherent⟩ := StreamContext.initDecoder_coherent (s.onStream streamId f).decoders backend
    answers (f (s.streams streamId))
  have fresh := announced (s.streams streamId)
  dsimp only
  rw [initDecoder_sessions, placed, Function.update_self, sessions_onStream]
  refine ⟨⟨info'.trans (congrArg Session.info fresh), received.trans (congrArg Session.received fresh)⟩,
    coherent.trans ?_, fun other apart => ?_⟩
  · rw [announced]
    exact Iff.rfl
  · rw [Function.update_of_ne apart, Function.update_of_ne apart]

theorem initCopies_coherent (source : Nat) (backend : DecodeBackend)
    (answers : Nat → Nat → AttemptAnswers) (i count : Nat) (s : State Picture) (streamId : Nat) :
    ((s.initCopies cfg source backend answers i count).1.sessions streamId).Coherent ↔
      (IsCopy cfg source i count streamId →
        (s.sessions streamId).Keeps (s.sessions source).info) ∧
      (¬ IsCopy cfg source i count streamId → (s.sessions streamId).Coherent) := by
  induction count generalizing i s with
  | zero =>
    have none : ¬ IsCopy cfg source i 0 streamId := by
      rintro ⟨j, first, last, -⟩
      omega
    exact ⟨fun coherent => ⟨fun copy => (none copy).elim, fun _ => coherent⟩, fun both => both.2 none⟩
  | succ count ih =>
    rw [initCopies]
    by_cases outside : copyId source i > cfg.maxStreams
    · rw [if_pos outside]
      have none : ¬ IsCopy cfg source i (count + 1) streamId := not_isCopy_outside cfg outside
      exact ⟨fun coherent => ⟨fun copy => (none copy).elim, fun _ => coherent⟩, fun both => both.2 none⟩
    · rw [if_neg outside]
      dsimp only
      obtain ⟨-, own, others⟩ := announce_coherent s (copyId source i) (s.streams source).info
        (fun stream => {stream with info := (s.streams source).info, infoReceived := true, state := .active})
        (fun _ => rfl) backend (answers i)
      rw [ih, others source (copyId_ne source i).symm]
      by_cases same : streamId = copyId source i
      · subst same
        obtain ⟨copy, notLater⟩ : IsCopy cfg source i (count + 1) (copyId source i) ∧
            ¬ IsCopy cfg source (i + 1) count (copyId source i) :=
          isCopy_first cfg (Nat.le_of_not_gt outside)
        constructor
        · exact fun both => ⟨fun _ => own.mp (both.2 notLater), fun none => (none copy).elim⟩
        · exact fun both => ⟨fun later => (notLater later).elim, fun _ => own.mpr (both.1 copy)⟩
      · rw [others streamId same, isCopy_later cfg same]

theorem initCopies_stress (source : Nat) (backend : DecodeBackend)
    (answers : Nat → Nat → AttemptAnswers) (i count : Nat) (s : State Picture) :
    (s.initCopies cfg source backend answers i count).1.stress = s.stress ∧
      (s.initCopies cfg source backend answers i count).1.stressEnabled = s.stressEnabled := by
  induction count generalizing i s with
  | zero => exact ⟨rfl, rfl⟩
  | succ count ih =>
    rw [initCopies]
    by_cases outside : copyId source i > cfg.maxStreams
    · rw [if_pos outside]
      exact ⟨rfl, rfl⟩
    · rw [if_neg outside]
      exact ih (i + 1) _

end Copies

section Handlers

/-- The stress test that a STREAM_START starts, if it starts one. -/
def StartsCopies (s : State Picture) (answers : PacketAnswers) : Prop :=
  s.stressEnabled = false ∧ cfg.stressTest = true ∧ 1 ≤ requestedCopies cfg s ∧
    requestedCopies cfg s ≤ cfg.maxStreams ∧ answers.stressMalloc = true

/-- The streams that a STREAM_START of `source` copies its metadata to. -/
def Copied (s : State Picture) (source : Nat) (answers : PacketAnswers) (streamId : Nat) : Prop :=
  StartsCopies cfg s answers ∧ IsCopy cfg source 0 (requestedCopies cfg s).toNat streamId

def Coherent (s : State Picture) : Prop := ∀ streamId, (s.sessions streamId).Coherent

/-- The server's flag for the stress test says what the manager's says. -/
def InStep (s : State Picture) : Prop := s.stress.enabled = s.stressEnabled

theorem startStressTest_copied {s : State Picture} {source : Nat} {numCopies : Int}
    {backend : DecodeBackend} {malloc : Bool} {answers : Nat → Nat → AttemptAnswers}
    (off : s.stress.enabled = false) (known : hasStream cfg source = true)
    (received : (s.streams source).infoReceived = true) (first : 1 ≤ numCopies)
    (last : numCopies ≤ cfg.maxStreams) (room : malloc = true) :
    let copied := s.initCopies cfg source backend answers 0 numCopies.toNat
    startStressTest cfg source numCopies backend malloc answers s =
      if copied.2 = [] then (copied.1, false)
      else ({copied.1 with stress := ⟨true, source, copied.2, fun _ => none⟩}, true) := by
  have stopped : s.stopStressTest = s := by
    rw [stopStressTest, off, if_neg Bool.false_ne_true]
  have good : ¬ (decide (numCopies < 1) || decide (numCopies > cfg.maxStreams)) = true := by
    simp only [Bool.or_eq_true, decide_eq_true_eq]
    omega
  rw [startStressTest, if_neg good, stopped]
  dsimp only
  rw [known, received, room]
  rfl

theorem startStressTest_refused {s : State Picture} {source : Nat} {numCopies : Int}
    {backend : DecodeBackend} {malloc : Bool} {answers : Nat → Nat → AttemptAnswers}
    (off : s.stress.enabled = false)
    (bad : ¬ (1 ≤ numCopies ∧ numCopies ≤ cfg.maxStreams ∧ malloc = true)) :
    startStressTest cfg source numCopies backend malloc answers s = (s, false) := by
  have stopped : s.stopStressTest = s := by
    rw [stopStressTest, off, if_neg Bool.false_ne_true]
  unfold startStressTest
  split
  · rfl
  · next good =>
    have full : malloc = false := by
      simp only [Bool.or_eq_true, decide_eq_true_eq, not_or] at good
      rw [← Bool.not_eq_true]
      exact fun room => bad ⟨by omega, by omega, room⟩
    rw [stopped]
    dsimp only
    rw [full, Bool.not_false, Bool.or_true]
    rfl

theorem maybeStartStressTest_coherent {s : State Picture} (inStep : s.InStep) (source : Nat)
    (answers : PacketAnswers) (known : hasStream cfg source = true)
    (received : (s.streams source).infoReceived = true) :
    (s.maybeStartStressTest cfg source answers).InStep ∧ ∀ streamId,
      ((s.maybeStartStressTest cfg source answers).sessions streamId).Coherent ↔
        (Copied cfg s source answers streamId →
          (s.sessions streamId).Keeps (s.sessions source).info) ∧
        (¬ Copied cfg s source answers streamId → (s.sessions streamId).Coherent) := by
  have unchanged {s' : State Picture} (same : s'.sessions = s.sessions)
      (none : ¬ StartsCopies cfg s answers) (streamId : Nat) :
      (s'.sessions streamId).Coherent ↔
        (Copied cfg s source answers streamId →
          (s.sessions streamId).Keeps (s.sessions source).info) ∧
        (¬ Copied cfg s source answers streamId → (s.sessions streamId).Coherent) := by
    have not : ¬ Copied cfg s source answers streamId := fun copied => none copied.1
    rw [same]
    exact ⟨fun coherent => ⟨fun copied => (not copied).elim, fun _ => coherent⟩, fun both => both.2 not⟩
  unfold maybeStartStressTest
  by_cases idle : (s.stressEnabled || !cfg.stressTest) = true
  · rw [if_pos idle]
    refine ⟨inStep, unchanged rfl fun starts => ?_⟩
    rw [starts.1, starts.2.1] at idle
    cases idle
  · rw [if_neg idle]
    simp only [Bool.or_eq_true, Bool.not_eq_true', not_or, Bool.not_eq_true, Bool.not_eq_false] at idle
    have off : s.stress.enabled = false := inStep.trans idle.1
    by_cases may : 1 ≤ requestedCopies cfg s ∧ requestedCopies cfg s ≤ cfg.maxStreams ∧
        answers.stressMalloc = true
    · have copies := initCopies_coherent cfg source cfg.backend answers.copies 0
        (requestedCopies cfg s).toNat
        {s with stressEnabled := true, stressCopies := requestedCopies cfg s}
      have flags := initCopies_stress cfg source cfg.backend answers.copies 0
        (requestedCopies cfg s).toNat
        {s with stressEnabled := true, stressCopies := requestedCopies cfg s}
      have starts : StartsCopies cfg s answers := ⟨idle.1, idle.2, may.1, may.2.1, may.2.2⟩
      have same (streamId : Nat) : Copied cfg s source answers streamId ↔
          IsCopy cfg source 0 (requestedCopies cfg s).toNat streamId :=
        ⟨fun copied => copied.2, fun copy => ⟨starts, copy⟩⟩
      dsimp only
      rw [startStressTest_copied cfg (s := {s with stressEnabled := true, stressCopies := requestedCopies cfg s})
        off known received may.1 may.2.1 may.2.2]
      dsimp only
      simp only [same]
      split
      · rw [if_neg Bool.false_ne_true]
        exact ⟨(congrArg StressTest.enabled flags.1).trans off, copies⟩
      · rw [if_pos rfl]
        exact ⟨flags.2.symm, copies⟩
    · dsimp only
      rw [startStressTest_refused cfg (s := {s with stressEnabled := true, stressCopies := requestedCopies cfg s})
        off may]
      dsimp only
      rw [if_neg Bool.false_ne_true]
      exact ⟨off, unchanged rfl fun starts => may ⟨starts.2.2.1, starts.2.2.2.1, starts.2.2.2.2⟩⟩

theorem handleStreamStart_coherent {s : State Picture} (inStep : s.InStep) (source : Nat)
    (info : StreamInfo) (answers : PacketAnswers) (known : hasStream cfg source = true) :
    (s.handleStreamStart cfg source info answers).InStep ∧
      (s.Coherent → ((s.handleStreamStart cfg source info answers).Coherent ↔
        (s.sessions source).Keeps info ∧
          ∀ streamId, Copied cfg s source answers streamId → (s.sessions streamId).Keeps info)) := by
  obtain ⟨⟨info', received⟩, own, others⟩ := announce_coherent s source info
    (fun stream => ((stream.setInfo info).setState .active).resetWatchdog (answers.clock 0))
    (fun _ => rfl) cfg.backend answers.attempts
  unfold handleStreamStart
  dsimp only
  generalize announced : ((s.onStream source fun stream =>
    ((stream.setInfo info).setState .active).resetWatchdog (answers.clock 0)).initDecoder source
      cfg.backend answers.attempts).1 = s2 at info' received own others ⊢
  have flags : s2.stress.enabled = s.stress.enabled ∧ s2.stressEnabled = s.stressEnabled ∧
      s2.stressCopies = s.stressCopies := by
    rw [← announced]
    exact ⟨rfl, rfl, rfl⟩
  have emitted : Quiet s2 (s2.emit (.record (.streamStart source info))) := ⟨rfl, rfl, rfl, rfl⟩
  have quiet := emitted.trans (quiet_requestIdrForStream _ source (answers.clock 1) .streamStart)
  generalize (s2.emit (.record (.streamStart source info))).requestIdrForStream source (answers.clock 1)
    .streamStart = s4 at quiet ⊢
  have inStep4 : s4.InStep :=
    ((quiet.stress.trans flags.1).trans inStep).trans (quiet.stressEnabled.trans flags.2.1).symm
  have received4 : (s4.streams source).infoReceived = true := by
    have same := congrFun quiet.sessions source
    exact (congrArg Session.received same).trans received
  obtain ⟨inStep5, each⟩ := maybeStartStressTest_coherent cfg inStep4 source answers known received4
  have copies : requestedCopies cfg s4 = requestedCopies cfg s := by
    unfold requestedCopies
    rw [quiet.stressCopies, flags.2.2]
  have copied (streamId : Nat) :
      Copied cfg s4 source answers streamId ↔ Copied cfg s source answers streamId := by
    unfold Copied StartsCopies
    rw [copies, quiet.stressEnabled, flags.2.1]
  have apart (streamId : Nat) (copy : Copied cfg s source answers streamId) : streamId ≠ source := by
    obtain ⟨-, j, -, -, rfl, -⟩ := copy
    exact copyId_ne source j
  refine ⟨inStep5, fun coherent => ⟨fun all => ⟨?_, fun streamId copy => ?_⟩,
    fun both streamId => (each streamId).mpr ?_⟩⟩
  · have self : ¬ Copied cfg s source answers source := fun copy => apart source copy rfl
    have kept := ((each source).mp (all source)).2 fun copy => self ((copied source).mp copy)
    rw [quiet.sessions] at kept
    exact own.mp kept
  · have kept := ((each streamId).mp (all streamId)).1 ((copied streamId).mpr copy)
    rw [quiet.sessions, info', others streamId (apart streamId copy)] at kept
    exact kept
  · rw [quiet.sessions, info', copied]
    refine ⟨fun copy => ?_, fun _ => ?_⟩
    · rw [others streamId (apart streamId copy)]
      exact both.2 streamId copy
    · by_cases same : streamId = source
      · rw [same]
        exact own.mpr both.1
      · rw [others streamId same]
        exact coherent streamId

theorem handleStreamStop_coherent {s : State Picture} (coherent : s.Coherent) (streamId : Nat) :
    (s.handleStreamStop streamId).Coherent := by
  intro other
  have closed : (s.handleStreamStop streamId).sessions =
      Function.update s.sessions streamId
        ((s.streams streamId).closeDecoder.setState .idle).session :=
    sessions_onStream (s.emit (.record (.streamStop streamId))) streamId _
  rw [closed]
  by_cases same : other = streamId
  · subst same
    rw [Function.update_self, StreamContext.session_setState]
    exact StreamContext.session_closeDecoder _
  · rw [Function.update_of_ne same]
    exact coherent other

theorem Quiet.coherent {s s' : State Picture} (quiet : Quiet s s') : s'.Coherent ↔ s.Coherent := by
  unfold Coherent
  rw [quiet.sessions]

theorem Quiet.inStep {s s' : State Picture} (quiet : Quiet s s') (inStep : s.InStep) : s'.InStep :=
  (quiet.stress.trans inStep).trans quiet.stressEnabled.symm

theorem quiet_countPacket (s : State Picture) (packet : Packet) : Quiet s (countPacket packet s) :=
  ⟨rfl, rfl, rfl, rfl⟩

end Handlers

end State

open State

/-- What is announced fits the decoders there are, of the stream itself and of the
streams that a stress test copies it to. -/
def KeepsDecoders (s : State Picture) : Input → Prop
  | .packet packet answers =>
    hasStream cfg packet.streamId = true → packet.type = .streamStart →
      ∀ info, protocolParseStreamInfo packet.payload = some info →
        (s.sessions packet.streamId).Keeps info ∧
          ∀ streamId, Copied cfg s packet.streamId answers streamId → (s.sessions streamId).Keeps info
  | .stressWorker .. => True

theorem step_coherent {s : State Picture} (inStep : s.InStep) (input : Input) :
    (step cfg codec s input).InStep ∧
      (s.Coherent → ((step cfg codec s input).Coherent ↔ KeepsDecoders cfg s input)) := by
  cases input with
  | stressWorker i malloc rounds =>
    have quiet := quiet_stressDecodeWorker codec s i malloc rounds
    exact ⟨quiet.inStep inStep, fun coherent => iff_of_true (quiet.coherent.mpr coherent) trivial⟩
  | packet packet answers =>
    obtain ⟨type, streamId, payload⟩ := packet
    dsimp only [step, KeepsDecoders, handlePacket]
    by_cases known : hasStream cfg streamId = true
    · rw [known, Bool.not_true, if_neg Bool.false_ne_true, (quiet_countPacket _ _).coherent]
      have counted {s' : State Picture} (packet : Packet) (inStep : s'.InStep) :=
        (quiet_countPacket s' packet).inStep inStep
      cases type with
      | streamStart =>
        dsimp only
        cases parsed : protocolParseStreamInfo payload with
        | none => exact ⟨counted _ inStep, fun coherent => iff_of_true coherent nofun⟩
        | some info =>
          obtain ⟨inStep', iff⟩ := handleStreamStart_coherent cfg inStep streamId info answers known
          refine ⟨counted _ inStep', fun coherent => (iff coherent).trans
            ⟨fun keeps _ _ other same => ?_, fun keeps => keeps rfl rfl info rfl⟩⟩
          obtain rfl := Option.some.inj same
          exact keeps
      | videoData =>
        have quiet := quiet_handleVideoData codec s streamId payload answers
        exact ⟨counted _ (quiet.inStep inStep),
          fun coherent => iff_of_true (quiet.coherent.mpr coherent) nofun⟩
      | streamStop =>
        exact ⟨counted _ inStep,
          fun coherent => iff_of_true (handleStreamStop_coherent coherent streamId) nofun⟩
      | heartbeat =>
        have quiet := quiet_onStream s streamId
          (StreamContext.updateStats (UInt64.ofNat (tcpHeaderSize + payload.length)) false) fun _ => rfl
        exact ⟨counted _ (quiet.inStep inStep),
          fun coherent => iff_of_true (quiet.coherent.mpr coherent) nofun⟩
    · rw [Bool.not_eq_true] at known
      rw [known, Bool.not_false, if_pos rfl]
      exact ⟨inStep, fun coherent => iff_of_true coherent nofun⟩

/-- The decoders fit the streams' metadata in every state of a run exactly when
nothing else is announced to a stream that has a decoder. -/
theorem coherent_iff (inputs : List Input) :
    (∀ past rest, inputs = past ++ rest → (run cfg codec past).Coherent) ↔
      Run.Always (step cfg codec) .init (KeepsDecoders cfg) inputs := by
  have inStep (past : List Input) : (run cfg codec past).InStep :=
    Run.invariant _ _ State.InStep (by rfl) (fun _ input held => (step_coherent cfg codec held input).1) past
  have iff := Run.invariant_iff (step cfg codec) (.init : State Picture) (KeepsDecoders cfg)
    (fun s => s.InStep ∧ s.Coherent) ⟨rfl, fun _ => nofun⟩
    (fun s input held => by
      obtain ⟨inStep, step⟩ := step_coherent cfg codec held.1 input
      exact ⟨fun after => (step held.2).mp after.2, fun may => ⟨inStep, (step held.2).mpr may⟩⟩) inputs
  rw [← iff]
  exact ⟨fun holds past rest split => ⟨inStep past, holds past rest split⟩,
    fun holds past rest split => (holds past rest split).2⟩

section Samples

def sampleServer : ServerConfig := ⟨2, 2, .auto, false, none⟩

def goodAttempt : AttemptAnswers := ⟨.cpu, true, true, true⟩

/-- Everything works, and each payload is one packet, whose frame comes at once. -/
def goodPacket (pts : Nat) : PacketAnswers :=
  ⟨fun _ => 1, fun _ => goodAttempt, [.packet true [⟨pts, true⟩]], false, true,
    fun _ _ => goodAttempt, fun _ => true⟩

/-- A STREAM_START payload of 32 bytes for 1280x720 at 60 fps. -/
def announce (codec : UInt8) : Bytes :=
  [0, 0, 5, 0, 0, 0, 2, 208, 0, 0, 0, 60, 0, 0, 78, 32, 0, 0, 0, codec, 0, 0, 0, 0, 0, 0, 0, 8, 0, 0, 0, 0]

/-- A sender of H.264 goes away without STREAM_STOP and one of HEVC comes. -/
def replacingInputs : List Input :=
  [.packet ⟨.streamStart, 1, announce 0⟩ (goodPacket 0),
    .packet ⟨.streamStart, 1, announce 1⟩ (goodPacket 0)]

theorem not_coherent_replacing :
    let stream := (run sampleServer (fun _ pts => ⟨1280, 720, .nv12, true, pts⟩) replacingInputs).streams 1
    stream.decoderInitialized = true ∧
      stream.decoderCtx.map (fun ctx => ctx.config.codecId) = some .h264 ∧
      codecIdFromStreamInfo stream.info = .hevc ∧
      ¬ (run sampleServer (fun _ pts => ⟨1280, 720, .nv12, true, pts⟩) replacingInputs).Coherent := by
  have decoder : (run sampleServer (fun _ pts => ⟨1280, 720, .nv12, true, pts⟩)
      replacingInputs).sessions 1 = ⟨⟨1280, 720, 60, 20000, 1, 0, 8, 0, 0, 0⟩, true, true,
        some ⟨.intelVa, .h264, 1280, 720⟩⟩ := by rfl
  refine ⟨by rfl, by rfl, by rfl, fun coherent => ?_⟩
  have fits := coherent 1
  rw [decoder] at fits
  obtain ⟨config, same, codec, -⟩ := fits rfl
  obtain rfl := Option.some.inj same
  cases codec

end Samples

end StreamRelay.Server
