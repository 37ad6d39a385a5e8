import StreamRelay.Pace
import StreamRelay.Run
import StreamRelay.Server.Stream

/-! The rate limit on key-frame requests, with every thread that asks for one. A thread reads
the clock first and decides later, when it holds the stream's lock, so another thread with a
younger reading may have decided before. -/
namespace StreamRelay.Server.RateLimit

/-- `sent` is the `should_request` that a caller of request_idr_for_stream ends with. -/
structure Decision where
  time : UInt64
  sent : Bool
  deriving DecidableEq, Repr

/-- `readings` are the threads between their reading of the clock and the lock; `decisions`
are those since the last STREAM_START, oldest first. -/
structure System (Picture Thread : Type*) where
  stream : StreamContext Picture
  clock : UInt64
  readings : Thread → Option UInt64
  decisions : List Decision

inductive Input (Thread : Type*)
  | tick (now : UInt64)
  | read (thread : Thread)
  | decide (thread : Thread)
  | streamStart

variable {Picture Thread : Type*} [DecidableEq Thread]

def System.initial (streamId : Nat) : System Picture Thread :=
  ⟨.init streamId, 0, fun _ => none, []⟩

/-- The clock never goes back. STREAM_START reads it under the lock. -/
def step (s : System Picture Thread) : Input Thread → System Picture Thread
  | .tick now => if s.clock ≤ now then {s with clock := now} else s
  | .read thread => {s with readings := Function.update s.readings thread (some s.clock)}
  | .decide thread =>
    match s.readings thread with
    | none => s
    | some now =>
      let asked := s.stream.requestIdr now
      { s with
        stream := asked.1
        readings := Function.update s.readings thread none
        decisions := s.decisions ++ [⟨now, asked.2⟩] }
  | .streamStart => {s with stream := s.stream.resetWatchdog s.clock, decisions := []}

def run (streamId : Nat) (inputs : List (Input Thread)) : System Picture Thread :=
  Run.run step (.initial streamId) inputs

/-- At least a second apart, whichever is the earlier. -/
def Apart (a b : UInt64) : Prop :=
  a.toNat + 1000000000 ≤ b.toNat ∨ b.toNat + 1000000000 ≤ a.toNat

/-- The rate limit, between one STREAM_START and the next. -/
structure Limited (decisions : List Decision) : Prop where
  spaced : decisions.Pairwise fun d e => d.sent → e.sent → Apart d.time e.time
  justified : ∀ d ∈ decisions, d.sent = false →
    ∃ e ∈ decisions, e.sent ∧ ¬ Apart d.time e.time

/-- The thread decides with a reading that is not zero, the mark of no request at all, and not
older than that of the last request. -/
def InOrder (s : System Picture Thread) : Input Thread → Prop
  | .decide thread => ∀ now, s.readings thread = some now →
      now ≠ 0 ∧ s.stream.lastIdrRequestNs ≤ now
  | _ => True

def requests (decisions : List Decision) : List Nat :=
  (decisions.filter (·.sent)).map (·.time.toNat)

theorem requests_snoc (decisions : List Decision) (d : Decision) :
    requests (decisions ++ [d]) =
      if d.sent then requests decisions ++ [d.time.toNat] else requests decisions := by
  cases sent : d.sent <;> simp [requests, sent]

/-- In order, the unsigned difference is the time gone by. -/
theorem requestDue_iff {stream : StreamContext Picture} {now : UInt64}
    (ordered : stream.lastIdrRequestNs ≤ now) :
    stream.requestDue now = true ↔ stream.lastIdrRequestNs = 0 ∨
      stream.lastIdrRequestNs.toNat + 1000000000 ≤ now.toNat := by
  have gone := UInt64.toNat_sub_of_le _ _ ordered
  have order := UInt64.le_iff_toNat_le.mp ordered
  simp only [StreamContext.requestDue, ge_iff_le, Bool.or_eq_true, decide_eq_true_eq,
    UInt64.le_iff_toNat_le, gone, show requestIntervalNs.toNat = 1000000000 from rfl]
  apply or_congr Iff.rfl
  omega

/-- The stream remembers the last request, the requests are paced, and what was suppressed
was so for a request of the last second. -/
structure Paced (stream : StreamContext Picture) (decisions : List Decision) : Prop where
  last : (requests decisions).getLast? =
    if stream.lastIdrRequestNs = 0 then none else some stream.lastIdrRequestNs.toNat
  paced : Pace.Paced 1000000000 (requests decisions)
  justified : ∀ d ∈ decisions, d.sent = false →
    ∃ e ∈ decisions, e.sent ∧ ¬ Apart d.time e.time

theorem Paced.limited {stream : StreamContext Picture} {decisions : List Decision}
    (paced : Paced stream decisions) : Limited decisions := by
  refine ⟨?_, paced.justified⟩
  have apart := List.pairwise_filter.mp (List.pairwise_map.mp paced.paced.pairwise)
  exact apart.imp fun apart sent other => Or.inl (apart sent other)

theorem Paced.request {stream : StreamContext Picture} {decisions : List Decision} {now : UInt64}
    (paced : Paced stream decisions) (real : now ≠ 0) (ordered : stream.lastIdrRequestNs ≤ now) :
    Paced (stream.requestIdr now).1 (decisions ++ [⟨now, (stream.requestIdr now).2⟩]) := by
  obtain ⟨last, spaced, justified⟩ := paced
  unfold StreamContext.requestIdr
  by_cases due : stream.requestDue now
  · rw [if_pos due]
    have gone := (requestDue_iff ordered).mp due
    refine ⟨?_, ?_, ?_⟩
    · simp [requests_snoc, real]
    · rw [requests_snoc, if_pos rfl]
      apply spaced.snoc
      intro a before
      rw [last] at before
      split at before
      · cases before
      · rename_i present
        obtain rfl := Option.some.inj before
        exact gone.resolve_left present
    · intro d member suppressed
      rcases List.mem_append.mp member with member | member
      · obtain ⟨e, inside, rest⟩ := justified d member suppressed
        exact ⟨e, List.mem_append_left _ inside, rest⟩
      · obtain rfl := List.mem_singleton.mp member
        cases suppressed
  · rw [if_neg due]
    refine ⟨?_, ?_, ?_⟩
    · rw [requests_snoc]
      exact last
    · rw [requests_snoc]
      exact spaced
    · intro d member suppressed
      rcases List.mem_append.mp member with member | member
      · obtain ⟨e, inside, rest⟩ := justified d member suppressed
        exact ⟨e, List.mem_append_left _ inside, rest⟩
      · obtain rfl := List.mem_singleton.mp member
        rw [requestDue_iff ordered] at due
        obtain ⟨present, recent⟩ := not_or.mp due
        rw [if_neg present] at last
        have inside := List.mem_of_getLast? last
        obtain ⟨e, sent, time⟩ := List.mem_map.mp inside
        obtain ⟨inside, sent⟩ := List.mem_filter.mp sent
        refine ⟨e, List.mem_append_left _ inside, sent, ?_⟩
        have order := UInt64.le_iff_toNat_le.mp ordered
        simp only [Apart]
        omega

theorem step_paced (s : System Picture Thread) (input : Input Thread)
    (paced : Paced s.stream s.decisions) (ordered : InOrder s input) :
    Paced (step s input).stream (step s input).decisions := by
  cases input with
  | tick now =>
    simp only [step]
    split <;> exact paced
  | read thread => exact paced
  | decide thread =>
    simp only [step]
    cases reading : s.readings thread with
    | none => exact paced
    | some now =>
      obtain ⟨real, ordered⟩ := ordered now reading
      exact paced.request real ordered
  | streamStart => exact ⟨rfl, Pace.paced_nil, by simp [step]⟩

/-- In every run whose decisions are made in the order of their readings, the requests are
limited in every state reached. -/
theorem run_limited (streamId : Nat) (inputs : List (Input Thread))
    (always : Run.Always step (System.initial streamId : System Picture Thread) InOrder inputs) :
    Limited (run streamId inputs : System Picture Thread).decisions := by
  apply Paced.limited
  apply Run.history_while step (System.initial streamId : System Picture Thread) InOrder
    (fun _ s => Paced s.stream s.decisions)
  · exact ⟨rfl, Pace.paced_nil, by simp [System.initial]⟩
  · exact fun _ input paced ordered => step_paced _ input paced ordered
  · exact always

/-- The recorder's thread reads the clock and waits for the lock; a connection's thread reads
it 100 ms later and is served first. -/
def overtakingInputs : List (Input Bool) :=
  [.tick 10000000000, .read false, .tick 10100000000, .read true, .decide true, .decide false]

theorem not_limited_overtaking :
    ¬ Limited (run 1 overtakingInputs : System Unit Bool).decisions := by
  intro limited
  have spaced := limited.spaced
  have decisions : (run 1 overtakingInputs : System Unit Bool).decisions =
      [⟨10100000000, true⟩, ⟨10000000000, true⟩] := by decide +kernel
  rw [decisions] at spaced
  have apart := List.rel_of_pairwise_cons spaced (List.mem_singleton_self _) rfl rfl
  revert apart
  simp only [Apart]
  decide

/-- The same threads, served in order, with a third decision a second after the first. -/
def orderlyInputs : List (Input Bool) :=
  [.tick 10000000000, .read false, .tick 10100000000, .read true, .decide false, .decide true,
    .tick 11000000000, .read false, .decide false]

instance (s : System Picture Thread) (input : Input Thread) : Decidable (InOrder s input) :=
  match input with
  | .decide thread =>
    match reading : s.readings thread with
    | none => isTrue fun now found => by simp [reading] at found
    | some now =>
      decidable_of_iff (now ≠ 0 ∧ s.stream.lastIdrRequestNs ≤ now)
        (by simp [InOrder, reading])
  | .tick _ | .read _ | .streamStart => isTrue trivial

theorem run_limited_orderly :
    Limited (run 1 orderlyInputs : System Unit Bool).decisions :=
  run_limited 1 orderlyInputs (by decide +kernel)

end StreamRelay.Server.RateLimit
