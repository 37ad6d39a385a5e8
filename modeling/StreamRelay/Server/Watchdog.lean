import StreamRelay.Pace
import StreamRelay.Server.Coherence
import StreamRelay.Server.Single

/-! The decode-stall watchdog of one stream over whole runs of the server. Beside the state
runs a log of what the stall test made of each packet since the last STREAM_START, with
the VIDEO packets counted without a bound. -/
namespace StreamRelay.Server.Watchdog

variable {Picture : Type*}

/-- What the stall test makes of a packet, with the clock as it read it. -/
inductive Outcome where
  | unchecked
  | recorded (time : UInt64)
  | passed (time : UInt64)
  | decided (time : UInt64)
  deriving DecidableEq, Repr

/-- The branches that set watchdog_last_decoded_change_ns. -/
def recordsChange (stream : StreamContext Picture) : Bool :=
  stream.state ≠ .active || !stream.decoderInitialized || stream.framesDecoded = 0 ||
    stream.watchdogLastDecodedChangeNs = 0 || stream.framesDecoded ≠ stream.watchdogLastDecoded

def outcome (nowNs : UInt64) (stream : StreamContext Picture) : Outcome :=
  if recordsChange stream then .recorded nowNs
  else if (stream.decodeStall nowNs).2.isSome then .decided nowNs
  else .passed nowNs

/-- A packet of the stream: the stream as the stall test finds it, or as a packet without the
test leaves it, and the VIDEO packets counted so far. -/
structure Moment (Picture : Type*) where
  stream : StreamContext Picture
  counted : Nat
  outcome : Outcome

structure Log (Picture : Type*) where
  counted : Nat
  moments : List (Moment Picture)

def Log.note (stream : StreamContext Picture) (counted : Nat) (outcome : Outcome)
    (log : Log Picture) : Log Picture :=
  ⟨counted, log.moments ++ [⟨stream, counted, outcome⟩]⟩

def Log.packet (codec : Codec Picture) (packet : Packet) (answers : PacketAnswers)
    (before after : StreamContext Picture) (log : Log Picture) : Log Picture :=
  match packet.type with
  | .streamStart =>
    if (protocolParseStreamInfo packet.payload).isSome then ⟨log.counted, []⟩
    else log.note after log.counted .unchecked
  | .videoData =>
    if packet.payload = [] then log.note after (log.counted + 1) .unchecked
    else
      let checked := before.beforeStall codec packet.payload answers
      log.note checked (log.counted + 1) (outcome (answers.clock 2) checked)
  | .streamStop | .heartbeat => log.note after log.counted .unchecked

structure Watched (Picture : Type*) where
  server : State Picture
  log : Log Picture

/-- The packet is one of the stream's, which the server has. -/
def concerns (cfg : ServerConfig) (streamId : Nat) (packet : Packet) : Bool :=
  State.hasStream cfg packet.streamId && packet.streamId = streamId

variable (cfg : ServerConfig) (codec : Codec Picture) (streamId : Nat)

def observe (w : Watched Picture) (input : Input) : Watched Picture :=
  let server := step cfg codec w.server input
  match input with
  | .packet packet answers =>
    if concerns cfg streamId packet then
      ⟨server, w.log.packet codec packet answers (w.server.streams streamId) (server.streams streamId)⟩
    else ⟨server, w.log⟩
  | .stressWorker _ _ _ => ⟨server, w.log⟩

def observed (inputs : List Input) : Watched Picture :=
  Run.run (observe cfg codec streamId) ⟨.init, ⟨0, []⟩⟩ inputs

/-- The clock as the watchdog reads it, at a STREAM_START and in the stall test. -/
def packetReading (packet : Packet) (answers : PacketAnswers) : Option UInt64 :=
  match packet.type with
  | .streamStart =>
    if (protocolParseStreamInfo packet.payload).isSome then some (answers.clock 0) else none
  | .videoData => if packet.payload = [] then none else some (answers.clock 2)
  | .streamStop | .heartbeat => none

def reading : Input → Option UInt64
  | .packet packet answers =>
    if concerns cfg streamId packet then packetReading packet answers else none
  | .stressWorker _ _ _ => none

def readings (inputs : List Input) : List UInt64 := inputs.filterMap (reading cfg streamId)

def Outcome.decision : Outcome → Option Nat
  | .decided time => some time.toNat
  | _ => none

/-- The times of the decisions since the last STREAM_START. -/
def decisions (moments : List (Moment Picture)) : List Nat :=
  moments.filterMap (·.outcome.decision)

/-- The times of the decisions of the present stall. -/
def stallDecisions (moments : List (Moment Picture)) : List Nat :=
  moments.foldl
    (fun times moment =>
      match moment.outcome with
      | .recorded _ => []
      | .decided time => times ++ [time.toNat]
      | _ => times)
    []

/-- Why a request is decided on: what has been since the last decode change was recorded. -/
structure Justified (past : List (Moment Picture)) (now : Moment Picture) (time : UInt64) :
    Prop where
  active : now.stream.state = .active
  initialized : now.stream.decoderInitialized = true
  decoding : now.stream.framesDecoded ≠ 0
  stalled : ∃ before change since recordedAt,
    past = before ++ change :: since ∧ change.outcome = .recorded recordedAt ∧
    (∀ moment ∈ since, ∀ t, moment.outcome ≠ .recorded t) ∧
    (∀ moment ∈ since ++ [now], moment.stream.framesDecoded = change.stream.framesDecoded) ∧
    change.counted + 30 ≤ now.counted ∧ recordedAt.toNat + 2000000000 ≤ time.toNat

structure Sound (w : Watched Picture) : Prop where
  justified : ∀ past now time, w.log.moments = past ++ [now] → now.outcome = .decided time →
    Justified past now time
  apart : (decisions w.log.moments).Pairwise fun a b => a + 2000000000 ≤ b
  second : Pace.Paced 5000000000 (stallDecisions w.log.moments)
  later : Pace.Paced 10000000000 (stallDecisions w.log.moments).tail

/-- The received packets are never fewer than those of the baseline. -/
def Ahead (stream : StreamContext Picture) : Prop :=
  stream.watchdogLastReceived ≤ stream.framesReceived

section Test

variable {stream : StreamContext Picture} (nowNs : UInt64)

theorem recordsChange_false (kept : recordsChange stream = false) :
    stream.state = .active ∧ stream.decoderInitialized = true ∧ stream.framesDecoded ≠ 0 ∧
      stream.watchdogLastDecodedChangeNs ≠ 0 ∧ stream.framesDecoded = stream.watchdogLastDecoded := by
  simpa [recordsChange, and_assoc] using kept

theorem decodeStall_recorded (change : recordsChange stream = true) :
    ∃ count, (count = stream.decodeStallCount ∨ count = 0) ∧
      stream.decodeStall nowNs = ({stream.watch nowNs with decodeStallCount := count}, none) := by
  unfold StreamContext.decodeStall
  split
  · exact ⟨_, Or.inl rfl, rfl⟩
  · split
    · exact ⟨_, Or.inl rfl, rfl⟩
    · split
      · exact ⟨0, Or.inr rfl, rfl⟩
      · rename_i inactive unset same
        simp_all [recordsChange]

/-- A request is due. -/
structure Due (nowNs : UInt64) (stream : StreamContext Picture) : Prop where
  received : 30 ≤ stream.framesReceived - stream.watchdogLastReceived
  idle : stallIdleNs ≤ nowNs - stream.watchdogLastDecodedChangeNs
  backoff : stream.decodeStallLastIdrNs = 0 ∨
    StreamContext.stallBackoffNs stream.decodeStallCount ≤ nowNs - stream.decodeStallLastIdrNs

theorem decodeStall_kept (kept : recordsChange stream = false) :
    (stream.decodeStall nowNs).1 = stream ∧ (stream.decodeStall nowNs).2 = none ∨
      Due nowNs stream ∧ (stream.decodeStall nowNs).2.isSome = true ∧
      (stream.decodeStall nowNs).1 = {stream with
        decodeStallLastIdrNs := nowNs, decodeStallCount := stream.decodeStallCount + 1} := by
  obtain ⟨active, initialized, decoding, set, same⟩ := recordsChange_false kept
  unfold StreamContext.decodeStall
  rw [if_neg (by simp [active, initialized, decoding]), if_neg set, if_neg (not_not.mpr same)]
  dsimp only
  split
  · rename_i due
    simp only [ge_iff_le, Bool.and_eq_true, Bool.or_eq_true, decide_eq_true_eq] at due
    exact Or.inr ⟨⟨due.1.1, due.1.2, due.2⟩, rfl, rfl⟩
  · exact Or.inl ⟨rfl, rfl⟩

end Test

section Clocks

theorem elapsed {earlier now : UInt64} (order : earlier ≤ now) {gap : UInt64}
    (gone : gap ≤ now - earlier) : earlier.toNat + gap.toNat ≤ now.toNat := by
  have gone := UInt64.le_iff_toNat_le.mp gone
  have order' := UInt64.le_iff_toNat_le.mp order
  rw [UInt64.toNat_sub_of_le _ _ order] at gone
  omega

/-- Whatever the counter has lost to its width, the difference is not more than was counted. -/
theorem counted_since {before now : Nat} (order : before ≤ now)
    (many : 30 ≤ UInt64.ofNat now - UInt64.ofNat before) : before + 30 ≤ now := by
  by_contra few
  have same : UInt64.ofNat now - UInt64.ofNat before = UInt64.ofNat (now - before) :=
    (UInt64.ofNat_sub order).symm
  have many := UInt64.le_iff_toNat_le.mp many
  rw [same, UInt64.toNat_ofNat_of_lt' (by simp [UInt64.size]; omega)] at many
  have : (30 : UInt64).toNat = 30 := rfl
  omega

end Clocks

/-- The watchdog's own fields are the same. -/
structure SameWatch (a b : StreamContext Picture) : Prop where
  received : b.watchdogLastReceived = a.watchdogLastReceived
  decoded : b.watchdogLastDecoded = a.watchdogLastDecoded
  changed : b.watchdogLastDecodedChangeNs = a.watchdogLastDecodedChangeNs
  asked : b.decodeStallLastIdrNs = a.decodeStallLastIdrNs
  count : b.decodeStallCount = a.decodeStallCount

section Frames

variable (stream : StreamContext Picture)

theorem requestIdr_same (nowNs : UInt64) : SameWatch stream (stream.requestIdr nowNs).1 ∧
    (stream.requestIdr nowNs).1.framesReceived = stream.framesReceived ∧
    (stream.requestIdr nowNs).1.framesDecoded = stream.framesDecoded := by
  simp only [StreamContext.requestIdr]
  split <;> exact ⟨⟨rfl, rfl, rfl, rfl, rfl⟩, rfl, rfl⟩

theorem initDecoder_same (id : Nat) (backend : DecodeBackend) (answers : Nat → AttemptAnswers) :
    SameWatch stream (stream.initDecoder id backend answers).1 ∧
      (stream.initDecoder id backend answers).1.framesReceived = stream.framesReceived := by
  simp only [StreamContext.initDecoder]
  split
  · exact ⟨⟨rfl, rfl, rfl, rfl, rfl⟩, rfl⟩
  · split <;> exact ⟨⟨rfl, rfl, rfl, rfl, rfl⟩, rfl⟩

theorem decodeVideo_same (rounds : List ParseAnswer) :
    SameWatch stream (stream.decodeVideo codec rounds) ∧
      (stream.decodeVideo codec rounds).framesReceived = stream.framesReceived := by
  simp only [StreamContext.decodeVideo]
  split
  · split <;> exact ⟨⟨rfl, rfl, rfl, rfl, rfl⟩, rfl⟩
  · exact ⟨⟨rfl, rfl, rfl, rfl, rfl⟩, rfl⟩

theorem SameWatch.trans {a b c : StreamContext Picture} (first : SameWatch a b)
    (second : SameWatch b c) : SameWatch a c where
  received := second.received.trans first.received
  decoded := second.decoded.trans first.decoded
  changed := second.changed.trans first.changed
  asked := second.asked.trans first.asked
  count := second.count.trans first.count

theorem beforeStall_same (payload : Bytes) (answers : PacketAnswers) :
    SameWatch stream (stream.beforeStall codec payload answers) ∧
      (stream.beforeStall codec payload answers).framesReceived = stream.framesReceived + 1 := by
  have counted : SameWatch stream
      (stream.updateStats (UInt64.ofNat (tcpHeaderSize + payload.length)) true) :=
    ⟨rfl, rfl, rfl, rfl, rfl⟩
  obtain ⟨decoded, received⟩ := decodeVideo_same codec
    (stream.updateStats (UInt64.ofNat (tcpHeaderSize + payload.length)) true) answers.rounds
  simp only [StreamContext.beforeStall]
  split
  · obtain ⟨asked, same, -⟩ := requestIdr_same
      ((stream.updateStats (UInt64.ofNat (tcpHeaderSize + payload.length)) true).decodeVideo codec
        answers.rounds) (answers.clock 1)
    exact ⟨(counted.trans decoded).trans asked, same.trans received⟩
  · exact ⟨counted.trans decoded, received⟩

end Frames

section Logs

variable {moments : List (Moment Picture)} {stream : StreamContext Picture} {counted : Nat}
  {time : UInt64}

@[simp] theorem decisions_unchecked :
    decisions (moments ++ [⟨stream, counted, .unchecked⟩]) = decisions moments := by
  simp [decisions, Outcome.decision]

@[simp] theorem decisions_recorded :
    decisions (moments ++ [⟨stream, counted, .recorded time⟩]) = decisions moments := by
  simp [decisions, Outcome.decision]

@[simp] theorem decisions_passed :
    decisions (moments ++ [⟨stream, counted, .passed time⟩]) = decisions moments := by
  simp [decisions, Outcome.decision]

@[simp] theorem decisions_decided :
    decisions (moments ++ [⟨stream, counted, .decided time⟩]) =
      decisions moments ++ [time.toNat] := by
  simp [decisions, Outcome.decision]

@[simp] theorem stallDecisions_unchecked :
    stallDecisions (moments ++ [⟨stream, counted, .unchecked⟩]) = stallDecisions moments := by
  simp [stallDecisions]

@[simp] theorem stallDecisions_recorded :
    stallDecisions (moments ++ [⟨stream, counted, .recorded time⟩]) = [] := by
  simp [stallDecisions]

@[simp] theorem stallDecisions_passed :
    stallDecisions (moments ++ [⟨stream, counted, .passed time⟩]) = stallDecisions moments := by
  simp [stallDecisions]

@[simp] theorem stallDecisions_decided :
    stallDecisions (moments ++ [⟨stream, counted, .decided time⟩]) =
      stallDecisions moments ++ [time.toNat] := by
  simp [stallDecisions]

end Logs

/-- The baseline is that of the last recorded change, or of the STREAM_START. -/
inductive Baseline (stream : StreamContext Picture) (log : Log Picture) : Prop where
  | fresh (unchecked : ∀ moment ∈ log.moments, moment.outcome = .unchecked)
      (received : stream.watchdogLastReceived = 0) (decoded : stream.watchdogLastDecoded = 0)
  | taken (before : List (Moment Picture)) (change : Moment Picture)
      (since : List (Moment Picture)) (split : log.moments = before ++ change :: since)
      (recorded : change.outcome = .recorded stream.watchdogLastDecodedChangeNs)
      (received : stream.watchdogLastReceived = UInt64.ofNat change.counted)
      (order : change.counted ≤ log.counted)
      (decoded : stream.watchdogLastDecoded = change.stream.framesDecoded)
      (steady : stream.framesDecoded = change.stream.framesDecoded)
      (unrecorded : ∀ moment ∈ since, ∀ t, moment.outcome ≠ .recorded t)
      (unchanged : ∀ moment ∈ since, moment.stream.framesDecoded = change.stream.framesDecoded)

/-- The stamps and the count of the watchdog are those of its last decisions. -/
structure Paced (stream : StreamContext Picture) (moments : List (Moment Picture)) : Prop where
  last : (decisions moments).getLast? =
    if stream.decodeStallLastIdrNs = 0 then none else some stream.decodeStallLastIdrNs.toNat
  started : stream.decodeStallLastIdrNs = 0 → stream.decodeStallCount = 0
  recent : stallDecisions moments <:+ decisions moments
  fewer : (stallDecisions moments).length ≤ stream.decodeStallCount.toNat
  slow : (stream.decodeStallCount.toNat - 2) * 10000000000 ≤ stream.decodeStallLastIdrNs.toNat
  apart : Pace.Paced 2000000000 (decisions moments)
  second : Pace.Paced 5000000000 (stallDecisions moments)
  later : Pace.Paced 10000000000 (stallDecisions moments).tail

structure Tracked (seen : List UInt64) (stream : StreamContext Picture) (log : Log Picture) :
    Prop where
  counted : stream.framesReceived = UInt64.ofNat log.counted
  changed : stream.watchdogLastDecodedChangeNs = 0 ∨ stream.watchdogLastDecodedChangeNs ∈ seen
  asked : stream.decodeStallLastIdrNs = 0 ∨ stream.decodeStallLastIdrNs ∈ seen
  baseline : Baseline stream log
  paced : Paced stream log.moments

section Pacing

variable {stream : StreamContext Picture} {moments : List (Moment Picture)} {nowNs : UInt64}

theorem paced_init (streamId : Nat) :
    Paced (StreamContext.init streamId) ([] : List (Moment Picture)) where
  last := rfl
  started _ := rfl
  recent := List.suffix_rfl
  fewer := le_rfl
  slow := by simp [StreamContext.init]
  apart := Pace.paced_nil
  second := Pace.paced_nil
  later := Pace.paced_nil

theorem last_of_suffix {short long : List Nat} {a : Nat} (suffix : short <:+ long)
    (last : a ∈ short.getLast?) : a ∈ long.getLast? := by
  obtain ⟨front, rfl⟩ := suffix
  rw [List.getLast?_append, last]
  rfl

theorem backoff_least (count : UInt32) :
    2000000000 ≤ (StreamContext.stallBackoffNs count).toNat := by
  simp only [StreamContext.stallBackoffNs]
  split
  · decide
  · split <;> decide

theorem backoff_second (count : UInt32) (again : 1 ≤ count.toNat) :
    5000000000 ≤ (StreamContext.stallBackoffNs count).toNat := by
  simp only [StreamContext.stallBackoffNs]
  split
  · decide
  · rename_i other
    have more : 2 ≤ count := by
      rw [UInt32.le_iff_toNat_le]
      have : count.toNat ≠ 1 := fun one => other (UInt32.toNat_inj.mp one)
      have : (2 : UInt32).toNat = 2 := rfl
      omega
    rw [if_pos more]
    decide

theorem backoff_later (count : UInt32) (again : 2 ≤ count.toNat) :
    (StreamContext.stallBackoffNs count).toNat = 10000000000 := by
  have other : count ≠ 1 := by
    rintro rfl
    have : (1 : UInt32).toNat = 1 := rfl
    omega
  have more : 2 ≤ count := UInt32.le_iff_toNat_le.mpr again
  simp only [StreamContext.stallBackoffNs, other, if_false, ge_iff_le, more, if_true]
  rfl

/-- The count would take longer to wrap than the clock. -/
theorem Paced.count_succ (paced : Paced stream moments) :
    (stream.decodeStallCount + 1).toNat = stream.decodeStallCount.toNat + 1 := by
  have slow := paced.slow
  have bound := stream.decodeStallLastIdrNs.toNat_lt
  rw [UInt32.toNat_add, show (1 : UInt32).toNat = 1 from rfl]
  omega

theorem Paced.first (paced : Paced stream moments) (never : stream.decodeStallLastIdrNs = 0) :
    decisions moments = [] ∧ stallDecisions moments = [] := by
  have last := paced.last
  rw [if_pos never] at last
  have nothing := List.getLast?_eq_none_iff.mp last
  refine ⟨nothing, ?_⟩
  have recent := paced.recent
  rw [nothing] at recent
  exact List.suffix_nil.mp recent

theorem Paced.previous (paced : Paced stream moments) {a : Nat}
    (last : a ∈ (decisions moments).getLast?) :
    a = stream.decodeStallLastIdrNs.toNat ∧ stream.decodeStallLastIdrNs ≠ 0 := by
  rw [paced.last] at last
  split at last
  · cases last
  · rename_i asked
    exact ⟨(Option.some.inj last).symm, asked⟩

/-- A decision after the backoff that the count asks for. -/
theorem Paced.decided (paced : Paced stream moments) (order : stream.decodeStallLastIdrNs ≤ nowNs)
    (real : nowNs ≠ 0)
    (due : stream.decodeStallLastIdrNs = 0 ∨
      StreamContext.stallBackoffNs stream.decodeStallCount ≤ nowNs - stream.decodeStallLastIdrNs)
    (checked : StreamContext Picture) (counted : Nat) {after : StreamContext Picture}
    (asked : after.decodeStallLastIdrNs = nowNs)
    (count : after.decodeStallCount = stream.decodeStallCount + 1) :
    Paced after (moments ++ [⟨checked, counted, .decided nowNs⟩]) := by
  have gap {a : Nat} (last : a ∈ (decisions moments).getLast?) :
      a + (StreamContext.stallBackoffNs stream.decodeStallCount).toNat ≤ nowNs.toNat := by
    obtain ⟨rfl, before⟩ := paced.previous last
    exact elapsed order (due.resolve_left before)
  refine ⟨?_, ?_, ?_, ?_, ?_, ?_, ?_, ?_⟩
  · simp [asked, real]
  · intro never
    exact absurd (asked.symm.trans never) real
  · simp only [decisions_decided, stallDecisions_decided]
    obtain ⟨front, split⟩ := paced.recent
    exact ⟨front, by rw [← split, List.append_assoc]⟩
  · have fewer := paced.fewer
    rw [count, paced.count_succ, stallDecisions_decided, List.length_append]
    simpa using fewer
  · rw [count, paced.count_succ, asked]
    have slow := paced.slow
    by_cases again : 2 ≤ stream.decodeStallCount.toNat
    · have before : stream.decodeStallLastIdrNs ≠ 0 := by
        intro never
        rw [paced.started never] at again
        exact absurd again (by decide)
      have gone := elapsed order (due.resolve_left before)
      rw [backoff_later _ again] at gone
      have more : stream.decodeStallCount.toNat + 1 - 2 = stream.decodeStallCount.toNat - 2 + 1 := by
        omega
      rw [more, Nat.add_mul]
      exact (Nat.add_le_add_right slow _).trans gone
    · have few : stream.decodeStallCount.toNat + 1 - 2 = 0 := by omega
      rw [few, Nat.zero_mul]
      exact Nat.zero_le _
  · rw [decisions_decided]
    apply paced.apart.snoc
    intro a last
    have := gap last
    have := backoff_least stream.decodeStallCount
    omega
  · rw [stallDecisions_decided]
    apply paced.second.snoc
    intro a last
    have := gap (last_of_suffix paced.recent last)
    have fewer := paced.fewer
    have nonempty : stallDecisions moments ≠ [] := by
      rintro empty
      rw [empty] at last
      cases last
    have := List.length_pos_iff.mpr nonempty
    have := backoff_second stream.decodeStallCount (by omega)
    omega
  · rw [stallDecisions_decided]
    cases times : stallDecisions moments with
    | nil => exact Pace.paced_nil
    | cons first rest =>
      have later := paced.later
      rw [times] at later
      apply later.snoc
      intro a last
      have suffix : rest <:+ stallDecisions moments := times ▸ List.suffix_cons first rest
      have gone := gap (last_of_suffix (suffix.trans paced.recent) last)
      have fewer := paced.fewer
      have nonempty : rest ≠ [] := by
        rintro rfl
        cases last
      have := List.length_pos_iff.mpr nonempty
      rw [times, List.length_cons] at fewer
      rw [backoff_later _ (by omega)] at gone
      exact gone

end Pacing

section Tracking

variable {seen : List UInt64} {a b : StreamContext Picture} {log : Log Picture} {nowNs : UInt64}

theorem Paced.same (paced : Paced a log.moments) (same : SameWatch a b) : Paced b log.moments where
  last := by rw [same.asked, paced.last]
  started := by rw [same.asked, same.count]; exact paced.started
  recent := paced.recent
  fewer := by rw [same.count]; exact paced.fewer
  slow := by rw [same.asked, same.count]; exact paced.slow
  apart := paced.apart
  second := paced.second
  later := paced.later

theorem Baseline.same (baseline : Baseline a log) (same : SameWatch a b)
    (decoded : b.framesDecoded = a.framesDecoded) : Baseline b log := by
  cases baseline with
  | fresh unchecked received before =>
    exact .fresh unchecked (same.received.trans received) (same.decoded.trans before)
  | taken before change since split recorded received order counted steady unrecorded unchanged =>
    exact .taken before change since split (by rw [same.changed, recorded])
      (same.received.trans received) order (same.decoded.trans counted) (decoded.trans steady)
      unrecorded unchanged

theorem Tracked.same (tracked : Tracked seen a log) (same : SameWatch a b)
    (received : b.framesReceived = a.framesReceived) (decoded : b.framesDecoded = a.framesDecoded) :
    Tracked seen b log where
  counted := received.trans tracked.counted
  changed := by rw [same.changed]; exact tracked.changed
  asked := by rw [same.asked]; exact tracked.asked
  baseline := tracked.baseline.same same decoded
  paced := tracked.paced.same same

/-- A packet that the stall test does not see. -/
theorem Tracked.unchecked (tracked : Tracked seen a log) (b : StreamContext Picture)
    (same : SameWatch a b) (decoded : b.framesDecoded = a.framesDecoded) {counted : Nat}
    (received : b.framesReceived = UInt64.ofNat counted) (order : log.counted ≤ counted) :
    Tracked seen b (log.note b counted .unchecked) where
  counted := received
  changed := by rw [same.changed]; exact tracked.changed
  asked := by rw [same.asked]; exact tracked.asked
  baseline := by
    cases tracked.baseline with
    | fresh unchecked nothing before =>
      refine .fresh ?_ (same.received.trans nothing) (same.decoded.trans before)
      intro moment member
      rcases List.mem_append.mp member with member | member
      · exact unchecked moment member
      · obtain rfl := List.mem_singleton.mp member
        rfl
    | taken before change since split recorded base earlier count steady unrecorded unchanged =>
      refine .taken before change (since ++ [⟨b, counted, .unchecked⟩]) (by simp [Log.note, split])
        (by rw [same.changed, recorded]) (same.received.trans base) (earlier.trans order)
        (same.decoded.trans count) (decoded.trans steady) ?_ ?_
      · intro moment member
        rcases List.mem_append.mp member with member | member
        · exact unrecorded moment member
        · obtain rfl := List.mem_singleton.mp member
          simp
      · intro moment member
        rcases List.mem_append.mp member with member | member
        · exact unchanged moment member
        · obtain rfl := List.mem_singleton.mp member
          exact decoded.trans steady
  paced := by
    have paced := tracked.paced.same same
    refine ⟨?_, paced.started, ?_, ?_, paced.slow, ?_, ?_, ?_⟩
    all_goals simp only [Log.note, decisions_unchecked, stallDecisions_unchecked]
    · exact paced.last
    · exact paced.recent
    · exact paced.fewer
    · exact paced.apart
    · exact paced.second
    · exact paced.later

theorem Tracked.start (tracked : Tracked seen a log)
    (received : b.framesReceived = a.framesReceived)
    (reset : SameWatch (a.resetWatchdog nowNs) b) :
    Tracked (seen ++ [nowNs]) b ⟨log.counted, []⟩ where
  counted := received.trans tracked.counted
  changed := by simp [reset.changed, StreamContext.resetWatchdog]
  asked := by simp [reset.asked, StreamContext.resetWatchdog]
  baseline := .fresh (by simp) reset.received reset.decoded
  paced := by
    have asked : b.decodeStallLastIdrNs = 0 := reset.asked
    have count : b.decodeStallCount = 0 := reset.count
    refine ⟨?_, fun _ => count, List.suffix_rfl, Nat.zero_le _, ?_, ?_, ?_, ?_⟩
    · simp [asked, decisions]
    · rw [count]
      exact Nat.zero_le _
    · exact Pace.paced_nil
    · exact Pace.paced_nil
    · exact Pace.paced_nil

theorem stamp_later {stamp other : UInt64} (given : stamp = 0 ∨ stamp ∈ seen)
    (same : other = stamp) : other = 0 ∨ other ∈ seen ++ [nowNs] := by
  rw [same]
  exact given.imp_right (List.mem_append_left _)

theorem stamp_le {stamp : UInt64} (given : stamp = 0 ∨ stamp ∈ seen) (forward : ∀ t ∈ seen, t ≤ nowNs) :
    stamp ≤ nowNs := by
  rcases given with rfl | member
  · exact UInt64.zero_le
  · exact forward stamp member

/-- The change that a kept baseline is of; the first test after a STREAM_START keeps none. -/
theorem Baseline.kept (nowNs : UInt64) (baseline : Baseline a log) (same : SameWatch a b)
    (kept : recordsChange b = false) :
    ∃ before change since, log.moments = before ++ change :: since ∧
      change.outcome = .recorded b.watchdogLastDecodedChangeNs ∧
      b.watchdogLastReceived = UInt64.ofNat change.counted ∧ change.counted ≤ log.counted ∧
      b.watchdogLastDecoded = change.stream.framesDecoded ∧
      (∀ moment ∈ since, ∀ t, moment.outcome ≠ .recorded t) ∧
      ∀ moment ∈ since ++ [⟨b, log.counted + 1, outcome nowNs b⟩],
        moment.stream.framesDecoded = change.stream.framesDecoded := by
  obtain ⟨-, -, decoding, -, unchanged⟩ := recordsChange_false kept
  cases baseline with
  | fresh unchecked received decoded =>
    exact absurd (unchanged.trans (same.decoded.trans decoded)) decoding
  | taken before change since split recorded received order decoded steady unrecorded others =>
    refine ⟨before, change, since, split, by rw [same.changed, recorded],
      same.received.trans received, order, same.decoded.trans decoded, unrecorded, ?_⟩
    intro moment member
    rcases List.mem_append.mp member with member | member
    · exact others moment member
    · obtain rfl := List.mem_singleton.mp member
      exact unchanged.trans (same.decoded.trans decoded)

theorem Tracked.recorded (tracked : Tracked seen a log) (same : SameWatch a b)
    (received : b.framesReceived = UInt64.ofNat (log.counted + 1))
    (change : recordsChange b = true) :
    Tracked (seen ++ [nowNs]) (b.decodeStall nowNs).1
      (log.note b (log.counted + 1) (.recorded nowNs)) := by
  obtain ⟨count, kept, stalled⟩ := decodeStall_recorded nowNs change
  have paced := tracked.paced.same same
  rw [stalled]
  refine ⟨received, by simp [StreamContext.watch], ?_, ?_, ?_⟩
  · exact stamp_later tracked.asked same.asked
  · exact .taken log.moments ⟨b, log.counted + 1, .recorded nowNs⟩ [] rfl rfl received le_rfl rfl rfl
      (by simp) (by simp)
  · refine ⟨?_, ?_, ?_, ?_, ?_, ?_, ?_, ?_⟩
    all_goals simp only [Log.note, decisions_recorded, stallDecisions_recorded]
    · exact paced.last
    · intro never
      exact kept.elim (fun same => same.trans (paced.started never)) id
    · exact List.nil_suffix
    · exact Nat.zero_le _
    · rcases kept with rfl | rfl
      · exact paced.slow
      · exact Nat.zero_le _
    · exact paced.apart
    · exact Pace.paced_nil
    · exact Pace.paced_nil

theorem Baseline.next (baseline : Baseline a log) (same : SameWatch a b)
    (kept : recordsChange b = false) (quiet : ∀ t, outcome nowNs b ≠ .recorded t)
    {after : StreamContext Picture} (received : after.watchdogLastReceived = b.watchdogLastReceived)
    (decoded : after.watchdogLastDecoded = b.watchdogLastDecoded)
    (changed : after.watchdogLastDecodedChangeNs = b.watchdogLastDecodedChangeNs)
    (steady : after.framesDecoded = b.framesDecoded) :
    Baseline after (log.note b (log.counted + 1) (outcome nowNs b)) := by
  obtain ⟨before, change, since, split, recorded, base, order, count, unrecorded, unchanged⟩ :=
    baseline.kept nowNs same kept
  have now := unchanged ⟨b, log.counted + 1, outcome nowNs b⟩ (by simp)
  refine .taken before change (since ++ [⟨b, log.counted + 1, outcome nowNs b⟩])
    (by simp [Log.note, split]) (by rw [changed, recorded]) (received.trans base)
    (order.trans (Nat.le_succ _)) (decoded.trans count) (steady.trans now) ?_ unchanged
  intro moment member
  rcases List.mem_append.mp member with member | member
  · exact unrecorded moment member
  · obtain rfl := List.mem_singleton.mp member
    exact quiet

theorem justified (baseline : Baseline a log) (same : SameWatch a b)
    (counted : b.framesReceived = UInt64.ofNat (log.counted + 1))
    (kept : recordsChange b = false) (due : Due nowNs b)
    (order : b.watchdogLastDecodedChangeNs ≤ nowNs) :
    Justified log.moments ⟨b, log.counted + 1, outcome nowNs b⟩ nowNs := by
  obtain ⟨active, initialized, decoding, -, -⟩ := recordsChange_false kept
  obtain ⟨before, change, since, split, recorded, base, earlier, -, unrecorded, unchanged⟩ :=
    baseline.kept nowNs same kept
  refine ⟨active, initialized, decoding, before, change, since, _, split, recorded, unrecorded,
    unchanged, ?_, elapsed order due.idle⟩
  have many := due.received
  rw [counted, base] at many
  exact counted_since (earlier.trans (Nat.le_succ _)) many

/-- The stall test of a VIDEO packet, at a time not before those of the earlier readings. -/
theorem Tracked.checked (tracked : Tracked seen a log) (same : SameWatch a b)
    (received : b.framesReceived = a.framesReceived + 1) (forward : ∀ t ∈ seen, t ≤ nowNs) :
    Tracked (seen ++ [nowNs]) (b.decodeStall nowNs).1
        (log.note b (log.counted + 1) (outcome nowNs b)) ∧
      ∀ time, outcome nowNs b = .decided time →
        Justified log.moments ⟨b, log.counted + 1, outcome nowNs b⟩ time := by
  have counted : b.framesReceived = UInt64.ofNat (log.counted + 1) := by
    rw [received, tracked.counted]
    exact (UInt64.ofNat_add _ _).symm
  cases kept : recordsChange b with
  | true =>
    have made : outcome nowNs b = .recorded nowNs := by simp [outcome, kept]
    rw [made]
    exact ⟨tracked.recorded same counted kept, by simp⟩
  | false =>
    have changed : b.watchdogLastDecodedChangeNs ≤ nowNs := by
      rw [same.changed]
      exact stamp_le tracked.changed forward
    have asked : b.decodeStallLastIdrNs ≤ nowNs := by
      rw [same.asked]
      exact stamp_le tracked.asked forward
    have paced := tracked.paced.same same
    rcases decodeStall_kept nowNs kept with ⟨stream, absent⟩ | ⟨due, held, stream⟩
    · have made : outcome nowNs b = .passed nowNs := by simp [outcome, kept, absent]
      rw [stream]
      refine ⟨⟨counted, ?_, stamp_later tracked.asked same.asked, ?_, ?_⟩, by simp [made]⟩
      · exact stamp_later tracked.changed same.changed
      · exact tracked.baseline.next same kept (by simp [made]) rfl rfl rfl rfl
      · rw [made]
        refine ⟨?_, paced.started, ?_, ?_, paced.slow, ?_, ?_, ?_⟩
        all_goals simp only [Log.note, decisions_passed, stallDecisions_passed]
        · exact paced.last
        · exact paced.recent
        · exact paced.fewer
        · exact paced.apart
        · exact paced.second
        · exact paced.later
    · have made : outcome nowNs b = .decided nowNs := by simp [outcome, kept, held]
      have real : nowNs ≠ 0 := by
        have idle := elapsed changed due.idle
        rintro rfl
        simp [stallIdleNs] at idle
      rw [stream]
      refine ⟨⟨counted, ?_, by simp, ?_, ?_⟩, ?_⟩
      · exact stamp_later tracked.changed same.changed
      · exact tracked.baseline.next same kept (by simp [made]) rfl rfl rfl rfl
      · rw [made]
        exact paced.decided asked real due.backoff b (log.counted + 1) rfl rfl
      · intro time alike
        obtain rfl : nowNs = time := by simpa [made] using alike
        exact justified tracked.baseline same counted kept due changed

theorem afterStall_same (answers : PacketAnswers) (stream : StreamContext Picture) :
    SameWatch (stream.decodeStall (answers.clock 2)).1 (stream.afterStall answers) ∧
      (stream.afterStall answers).framesReceived =
        (stream.decodeStall (answers.clock 2)).1.framesReceived ∧
      (stream.afterStall answers).framesDecoded =
        (stream.decodeStall (answers.clock 2)).1.framesDecoded := by
  simp only [StreamContext.afterStall]
  split
  · exact requestIdr_same _ (answers.clock 3)
  · exact ⟨⟨rfl, rfl, rfl, rfl, rfl⟩, rfl, rfl⟩

/-- If the last packet led to a decision, it was justified. -/
def LastJustified (moments : List (Moment Picture)) : Prop :=
  ∀ past now time, moments = past ++ [now] → now.outcome = .decided time → Justified past now time

theorem lastJustified_note {stream : StreamContext Picture} {counted : Nat} {made : Outcome}
    (justified : ∀ time, made = .decided time → Justified log.moments ⟨stream, counted, made⟩ time) :
    LastJustified (log.note stream counted made).moments := by
  intro past now time split decided
  obtain ⟨rfl, same⟩ := List.append_inj' split rfl
  obtain rfl := (List.cons.inj same).1
  exact justified time decided

theorem Tracked.video (tracked : Tracked seen a log) (payload : Bytes) (answers : PacketAnswers)
    (nonempty : payload ≠ []) (forward : ∀ t ∈ seen, t ≤ answers.clock 2) :
    Tracked (seen ++ [answers.clock 2]) (a.handleVideoData codec payload answers)
        (log.note (a.beforeStall codec payload answers) (log.counted + 1)
          (outcome (answers.clock 2) (a.beforeStall codec payload answers))) ∧
      LastJustified (log.note (a.beforeStall codec payload answers) (log.counted + 1)
        (outcome (answers.clock 2) (a.beforeStall codec payload answers))).moments := by
  obtain ⟨same, received⟩ := beforeStall_same codec a payload answers
  obtain ⟨checked, justified⟩ := tracked.checked same received forward
  obtain ⟨after, receivedAfter, decodedAfter⟩ :=
    afterStall_same answers (a.beforeStall codec payload answers)
  simp only [StreamContext.handleVideoData, if_neg nonempty]
  exact ⟨checked.same after receivedAfter decodedAfter, lastJustified_note justified⟩

theorem Tracked.handlePacket (tracked : Tracked seen a log) (id : Nat) (packet : Packet)
    (answers : PacketAnswers)
    (forward : ∀ now ∈ packetReading packet answers, ∀ t ∈ seen, t ≤ now) :
    Tracked (seen ++ (packetReading packet answers).toList)
        (a.handlePacket cfg codec id packet answers)
        (log.packet codec packet answers a (a.handlePacket cfg codec id packet answers)) ∧
      LastJustified
        (log.packet codec packet answers a (a.handlePacket cfg codec id packet answers)).moments := by
  obtain ⟨type, streamId, payload⟩ := packet
  cases type with
  | streamStart =>
    simp only [packetReading, Log.packet, StreamContext.handlePacket] at forward ⊢
    cases parsed : protocolParseStreamInfo payload with
    | none =>
      simp only [Option.isSome_none, Bool.false_eq_true, if_false, Option.toList_none,
        List.append_nil]
      exact ⟨tracked.unchecked a ⟨rfl, rfl, rfl, rfl, rfl⟩ rfl tracked.counted le_rfl,
        lastJustified_note (by simp)⟩
    | some info =>
      simp only [Option.isSome_some, if_true, Option.toList_some]
      obtain ⟨made, received⟩ := initDecoder_same
        (((a.setInfo info).setState .active).resetWatchdog (answers.clock 0)) id cfg.backend
        answers.attempts
      obtain ⟨asked, same, -⟩ := requestIdr_same
        ((((a.setInfo info).setState .active).resetWatchdog (answers.clock 0)).initDecoder id
          cfg.backend answers.attempts).1 (answers.clock 1)
      have reset : SameWatch (a.resetWatchdog (answers.clock 0))
          (((a.setInfo info).setState .active).resetWatchdog (answers.clock 0)) :=
        ⟨rfl, rfl, rfl, rfl, rfl⟩
      refine ⟨tracked.start (same.trans received) ((reset.trans made).trans asked), ?_⟩
      intro past now time split
      simp at split
  | videoData =>
    simp only [packetReading, Log.packet, StreamContext.handlePacket] at forward ⊢
    by_cases empty : payload = []
    · simp only [if_pos empty, Option.toList_none, List.append_nil, StreamContext.handleVideoData]
      have received : a.framesReceived + 1 = UInt64.ofNat (log.counted + 1) := by
        rw [tracked.counted]
        exact (UInt64.ofNat_add _ _).symm
      exact ⟨tracked.unchecked (a.updateStats _ true) ⟨rfl, rfl, rfl, rfl, rfl⟩ rfl received (Nat.le_succ _),
        lastJustified_note (by simp)⟩
    · simp only [if_neg empty, Option.toList_some]
      simp only [if_neg empty] at forward
      exact tracked.video codec payload answers empty (forward _ rfl)
  | streamStop =>
    simp only [packetReading, Log.packet, StreamContext.handlePacket, Option.toList_none,
      List.append_nil]
    exact ⟨tracked.unchecked (a.closeDecoder.setState .idle) ⟨rfl, rfl, rfl, rfl, rfl⟩ rfl tracked.counted le_rfl,
      lastJustified_note (by simp)⟩
  | heartbeat =>
    simp only [packetReading, Log.packet, StreamContext.handlePacket, Option.toList_none,
      List.append_nil]
    exact ⟨tracked.unchecked (a.updateStats _ false) ⟨rfl, rfl, rfl, rfl, rfl⟩ rfl tracked.counted le_rfl,
      lastJustified_note (by simp)⟩

end Tracking

section Runs

variable {cfg}

theorem readings_snoc (past : List Input) (input : Input) :
    readings cfg streamId (past ++ [input]) =
      readings cfg streamId past ++ (reading cfg streamId input).toList := by
  cases found : reading cfg streamId input <;> simp [readings, found]

@[simp] theorem observe_server (w : Watched Picture) (input : Input) :
    (observe cfg codec streamId w input).server = step cfg codec w.server input := by
  cases input with
  | packet packet answers =>
    simp only [observe]
    split <;> rfl
  | stressWorker => rfl

/-- The log is kept beside a run of the server. -/
theorem observed_server (inputs : List Input) :
    (observed cfg codec streamId inputs).server = run cfg codec inputs := by
  induction inputs using List.reverseRecOn with
  | nil => rfl
  | append_singleton past input ih =>
    simp only [observed, run, Run.run_snoc, observe_server] at ih ⊢
    rw [ih]

structure Kept (streamId : Nat) (seen : List UInt64) (w : Watched Picture) : Prop where
  calm : w.server.Calm
  tracked : Tracked seen (w.server.streams streamId) w.log
  justified : LastJustified w.log.moments

theorem Kept.observe {seen : List UInt64} {w : Watched Picture} (kept : Kept streamId seen w)
    (untested : cfg.stressTest = false) (input : Input)
    (forward : ∀ now ∈ reading cfg streamId input, ∀ t ∈ seen, t ≤ now) :
    Kept streamId (seen ++ (reading cfg streamId input).toList)
      (observe cfg codec streamId w input) := by
  obtain ⟨calm, tracked, justified⟩ := kept
  cases input with
  | stressWorker i malloc rounds =>
    simp only [Watchdog.observe, step, calm.stressDecodeWorker, reading, Option.toList_none,
      List.append_nil]
    exact ⟨calm, tracked, justified⟩
  | packet packet answers =>
    obtain ⟨after, streams⟩ := calm.handlePacket codec untested packet answers
    cases own : concerns cfg streamId packet with
    | false =>
      simp only [Watchdog.observe, reading, own, Bool.false_eq_true, if_false, Option.toList_none,
        List.append_nil, step]
      refine ⟨after, ?_, justified⟩
      have same : (w.server.handlePacket cfg codec packet answers).streams streamId =
          w.server.streams streamId := by
        rw [streams]
        split
        · rename_i has
          apply Function.update_of_ne
          rintro rfl
          simp [concerns, has] at own
        · rfl
      rw [same]
      exact tracked
    | true =>
      obtain ⟨has, rfl⟩ : State.hasStream cfg packet.streamId = true ∧ packet.streamId = streamId := by
        simpa [concerns] using own
      simp only [reading, own, if_true] at forward ⊢
      rw [if_pos has] at streams
      have mine : (w.server.handlePacket cfg codec packet answers).streams packet.streamId =
          (w.server.streams packet.streamId).handlePacket cfg codec w.server.decoders packet answers := by
        rw [streams, Function.update_self]
      simp only [Watchdog.observe, own, if_true, step, mine]
      obtain ⟨next, last⟩ := tracked.handlePacket cfg codec w.server.decoders packet answers forward
      refine ⟨after, ?_, last⟩
      simp only [mine]
      exact next

theorem run_kept (untested : cfg.stressTest = false) (inputs : List Input)
    (forward : (readings cfg streamId inputs).Pairwise (· ≤ ·)) :
    Kept streamId (readings cfg streamId inputs) (observed cfg codec streamId inputs) := by
  induction inputs using List.reverseRecOn with
  | nil =>
    refine ⟨⟨rfl, rfl⟩, ⟨rfl, Or.inl rfl, Or.inl rfl, .fresh (by simp [observed]) rfl rfl,
      paced_init streamId⟩, ?_⟩
    · intro past now time split
      simp [observed] at split
  | append_singleton past input ih =>
    rw [readings_snoc] at forward ⊢
    obtain ⟨earlier, -, between⟩ := List.pairwise_append.mp forward
    have kept := (ih earlier).observe codec streamId untested input fun now found t member =>
      between t member now (by simpa using found)
    simpa [observed] using kept

/-- In every state of a run without a stress test, the clock not going back: a decision is
justified, decisions are spaced, and while its counter has not wrapped the stream has
received no fewer packets than its baseline. -/
theorem run_watched (untested : cfg.stressTest = false) (inputs : List Input)
    (forward : (readings cfg streamId inputs).Pairwise (· ≤ ·)) :
    (observed cfg codec streamId inputs).server = run cfg codec inputs ∧
      Sound (observed cfg codec streamId inputs) ∧
      ((observed cfg codec streamId inputs).log.counted < 2 ^ 64 →
        Ahead ((run cfg codec inputs).streams streamId)) := by
  obtain ⟨-, tracked, justified⟩ := run_kept codec streamId untested inputs forward
  refine ⟨observed_server codec streamId inputs, ⟨justified, ?_, ?_, ?_⟩, ?_⟩
  · exact tracked.paced.apart.pairwise
  · exact tracked.paced.second
  · exact tracked.paced.later
  · intro unwrapped
    rw [← observed_server codec streamId inputs]
    cases tracked.baseline with
    | fresh unchecked received decoded =>
      rw [Ahead, received]
      exact UInt64.zero_le
    | taken before change since split recorded received order decoded steady unrecorded unchanged =>
      have small : change.counted < 2 ^ 64 := Nat.lt_of_le_of_lt order unwrapped
      rw [Ahead, received, tracked.counted, UInt64.le_iff_toNat_le, UInt64.toNat_ofNat',
        UInt64.toNat_ofNat', Nat.mod_eq_of_lt small, Nat.mod_eq_of_lt unwrapped]
      exact order

end Runs

section Samples

/-- Everything works at the given time; the frames are of the given packets. -/
def packetAt (time : UInt64) (received : List ReceiveAnswer) : PacketAnswers :=
  ⟨fun _ => time, fun _ => goodAttempt, [.packet true received], false, true,
    fun _ _ => goodAttempt, fun _ => true⟩

def sampleCodec : Codec Nat := fun _ pts => ⟨1280, 720, .nv12, true, pts⟩

/-- One frame is decoded, then thirty packets give none, the last of them after two seconds. -/
def stallingInputs : List Input :=
  [.packet ⟨.streamStart, 1, announce 0⟩ (packetAt 1000000000 []),
    .packet ⟨.videoData, 1, [1]⟩ (packetAt 1000000000 [⟨0, true⟩])] ++
  List.replicate 29 (.packet ⟨.videoData, 1, [2]⟩ (packetAt 1500000000 [])) ++
  [.packet ⟨.videoData, 1, [3]⟩ (packetAt 3000000000 [])]

set_option maxRecDepth 4000 in
theorem run_watched_stalling :
    decisions (observed sampleServer sampleCodec 1 stallingInputs).log.moments = [3000000000] ∧
      (observed sampleServer sampleCodec 1 stallingInputs).server =
        run sampleServer sampleCodec stallingInputs ∧
      Sound (observed sampleServer sampleCodec 1 stallingInputs) ∧
      ((observed sampleServer sampleCodec 1 stallingInputs).log.counted < 2 ^ 64 →
        Ahead ((run sampleServer sampleCodec stallingInputs).streams 1)) :=
  ⟨by decide +kernel, run_watched sampleCodec 1 rfl stallingInputs (by decide +kernel)⟩

/-- A stream that has no decoder, its baseline level with what it has received. -/
structure Level (count : Nat) (stream : StreamContext Nat) : Prop where
  idle : stream.state = .idle
  closed : stream.decoderInitialized = false
  received : stream.framesReceived = UInt64.ofNat count
  baseline : stream.watchdogLastReceived = UInt64.ofNat count

theorem Level.video {count : Nat} {stream : StreamContext Nat} (level : Level count stream) :
    Level (count + 1) (stream.handleVideoData sampleCodec [0] (packetAt 1 [])) := by
  obtain ⟨idle, closed, received, baseline⟩ := level
  have next : stream.framesReceived + 1 = UInt64.ofNat (count + 1) := by
    rw [received]
    exact (UInt64.ofNat_add _ _).symm
  have same : stream.handleVideoData sampleCodec [0] (packetAt 1 []) =
      (stream.updateStats (UInt64.ofNat 8) true).watch 1 := by
    simp [StreamContext.handleVideoData, StreamContext.beforeStall, StreamContext.decodeVideo,
      StreamContext.noDecodeDue, StreamContext.afterStall, StreamContext.decodeStall,
      StreamContext.updateStats, StreamContext.watch, idle, closed, packetAt, tcpHeaderSize]
  rw [same]
  exact ⟨idle, closed, next, next⟩

def idleVideo : Input := .packet ⟨.videoData, 1, [0]⟩ (packetAt 1 [])

/-- A packet of the stream, as the stream sees it. -/
theorem run_video (past : List Input) (payload : Bytes) :
    (run sampleServer sampleCodec
        (past ++ [.packet ⟨.videoData, 1, payload⟩ (packetAt 1 [])])).streams 1 =
      ((run sampleServer sampleCodec past).streams 1).handleVideoData sampleCodec payload
        (packetAt 1 []) := by
  have calm := run_calm sampleCodec (rfl : sampleServer.stressTest = false) past
  obtain ⟨-, streams⟩ := calm.handlePacket sampleCodec (rfl : sampleServer.stressTest = false)
    ⟨.videoData, 1, payload⟩ (packetAt 1 [])
  rw [run, Run.run_snoc]
  have known : State.hasStream sampleServer 1 = true := rfl
  refine (congrFun streams 1).trans ?_
  rw [if_pos known, Function.update_self]
  rfl

theorem run_level (count : Nat) :
    Level count ((run sampleServer sampleCodec (List.replicate count idleVideo)).streams 1) := by
  induction count with
  | zero => exact ⟨rfl, rfl, rfl, rfl⟩
  | succ count ih =>
    rw [List.replicate_succ', idleVideo, run_video]
    exact ih.video

theorem Level.wraps {stream : StreamContext Nat} (level : Level (2 ^ 64 - 1) stream) :
    ¬ Ahead (stream.updateStats (UInt64.ofNat 7) true) := by
  have received : (stream.updateStats (UInt64.ofNat 7) true).framesReceived = 0 := by
    simp only [StreamContext.updateStats, if_true, level.received]
    decide
  have baseline : (stream.updateStats (UInt64.ofNat 7) true).watchdogLastReceived =
      UInt64.ofNat (2 ^ 64 - 1) := level.baseline
  rw [Ahead, received, baseline]
  decide

/-- VIDEO packets of a stream that is not started, and a last one without a payload. -/
def idleInputs (count : Nat) : List Input :=
  List.replicate count idleVideo ++ [.packet ⟨.videoData, 1, []⟩ (packetAt 1 [])]

theorem idleInputs_readings (count : Nat) :
    readings sampleServer 1 (idleInputs count) = List.replicate count 1 := by
  have found : reading sampleServer 1 idleVideo = some 1 := rfl
  have last : reading sampleServer 1 (.packet ⟨.videoData, 1, []⟩ (packetAt 1 [])) = none := rfl
  rw [readings, idleInputs, List.filterMap_append, List.filterMap_replicate_of_some found]
  simp [last]

def wrappingInputs : List Input := idleInputs (2 ^ 64 - 1)

/-- With the last of 2^64 VIDEO packets the counter goes back to zero. -/
theorem not_ahead_wrapping :
    sampleServer.stressTest = false ∧
      (readings sampleServer 1 wrappingInputs).Pairwise (· ≤ ·) ∧
      ¬ Ahead ((run sampleServer sampleCodec wrappingInputs).streams 1) := by
  refine ⟨rfl, ?_, ?_⟩
  · rw [wrappingInputs, idleInputs_readings]
    exact List.pairwise_replicate.mpr (Or.inr (UInt64.le_refl 1))
  · rw [wrappingInputs, idleInputs, run_video]
    exact (run_level (2 ^ 64 - 1)).wraps

end Samples

end StreamRelay.Server.Watchdog
