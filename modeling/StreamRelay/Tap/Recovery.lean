import StreamRelay.Tap.Integrity

/-! The end of a recovery. The agent's copy leaves it wherever the packet of the recovery is
completed, the server's only when that happens in the publication that begins it. -/
namespace StreamRelay.Tap

/-- If the last packet begun for the client starts a recovery and is all out, the client does
not wait for an IDR any more. -/
def Recovered (c : TapClient) (k : Connection) : Prop :=
  ∀ packet, k.line.getLast? = some (packet, packet.bytes.length) → Recovers packet →
    c.needIdr = false

def RecoveryEnds (s : State) : Prop :=
  ∀ i fd, (s.clients i).active → (s.clients i).fd = some fd →
    Recovered (s.clients i) (s.connections fd)

/-- The same of each client at the rule that reads its `need_idr`, within a publication. -/
def EndsAtRule (copy : Copy) (config : Config) (s : State) : Input → Prop
  | .accept .. => True
  | .publish streamId data _ answers => data ≠ [] → ∀ i < copy.slots, (s.clients i).active →
      (s.clients i).streamId = streamId → ∀ fd, (s.clients i).fd = some fd →
      (flushPending copy config (s.clients i) data (answers i)).client.active →
      Recovered (flushPending copy config (s.clients i) data (answers i)).client
        ((s.connections fd).flushed config (s.clients i) data (answers i)
          (flushPending copy config (s.clients i) data (answers i)).wrote)

/-- In the server's copy no packet of a recovery is completed by the sends of left-over bytes. -/
def InTime (copy : Copy) (config : Config) (s : State) : Input → Prop
  | .accept .. => True
  | .publish streamId data _ answers => copy = .server → data ≠ [] → ∀ i < copy.slots,
      (s.clients i).active → (s.clients i).streamId = streamId →
      ¬ CompletesLate config (s.clients i) data (answers i)

variable {copy : Copy} {config : Config} {late : Prop} {pub : Publications} {c : TapClient}
  {k : Connection}

/-- What the recovery flags say about the packet in the buffer. -/
structure Marked (copy : Copy) (c : TapClient) : Prop where
  waits : ∀ packet, c.out = some packet → packet.recovery → c.needIdr
  idr : ∀ packet, c.out = some packet → packet.recovery → isIdr packet.payload
  pending : copy = .agent → ∀ packet, c.out = some packet → c.pendingIdr = packet.recovery
  flags : copy = .agent → c.pendingIdr → c.needIdr

theorem Marked.empty {next : TapClient} (out : next.out = none)
    (flags : copy = .agent → next.pendingIdr → next.needIdr) : Marked copy next :=
  ⟨by simp [out], by simp [out], by simp [out], flags⟩

/-- A client with its connection. That the recovery ends is only asked for where a packet of
the recovery is not completed late in the server's copy. -/
structure Recovering (copy : Copy) (late : Prop) (c : TapClient) (k : Connection) : Prop where
  ledger : Ledger c k
  marked : Marked copy c
  recovered : (late → copy = .agent) → Recovered c k

/-- While bytes of the last packet are left, the record does not end in a whole packet. -/
theorem pending_short (ledger : Ledger c k) (full : c.pending ≠ []) (packet : TapPacket) :
    k.line.getLast? ≠ some (packet, packet.bytes.length) := by
  obtain ⟨loaded, out⟩ := out_of_pending full
  intro last
  rw [ledger.last loaded out] at last
  obtain ⟨rfl, whole⟩ := Prod.mk.inj (Option.some.inj last)
  rw [pending_of_out out, whole, List.drop_length] at full
  exact full rfl

theorem emptied_flags (c : TapClient) : (copy = .agent → c.pendingIdr → c.needIdr) →
    copy = .agent → (emptied copy c).pendingIdr → (emptied copy c).needIdr := by
  rintro flags rfl
  unfold emptied
  dsimp only
  split
  · simp
  · exact flags rfl

theorem Marked.move {data : Bytes} {number : Nat} {next : TapClient × Connection}
    (marked : Marked copy c) (move : Move copy config data number late (c, k) next) :
    Marked copy next.1 := by
  cases move with
  | sps => exact ⟨marked.waits, marked.idr, marked.pending, marked.flags⟩
  | pps => exact ⟨marked.waits, marked.idr, marked.pending, marked.flags⟩
  | drop =>
    refine Marked.empty rfl fun agent pending => ?_
    simp [marked.flags agent pending]
  | write => exact ⟨marked.waits, marked.idr, marked.pending, marked.flags⟩
  | finish => exact Marked.empty (emptied_out copy c) (emptied_flags c marked.flags)
  | recover =>
    refine Marked.empty (emptied_out copy c) fun agent => ?_
    subst agent
    contradiction
  | @load _ _ cap now empty may =>
    obtain ⟨-, out, -, waits⟩ :=
      pending_load copy {c with outCap := cap} (assemble c data number) now
    have flag (agent : copy = .agent) :
        (load copy {c with outCap := cap} (assemble c data number) now).pendingIdr = c.needIdr := by
      subst agent
      cases need : c.needIdr with
      | true => simp [load, assemble, need, may need]
      | false =>
        have clear : c.pendingIdr = false := by
          by_contra pending
          simpa [need] using marked.flags rfl (by simpa using pending)
        simp [load, clear]
    refine ⟨?_, ?_, ?_, ?_⟩
    · intro packet same recovery
      obtain rfl := Option.some.inj (out.symm.trans same)
      exact waits.trans recovery
    · intro packet same recovery
      obtain rfl := Option.some.inj (out.symm.trans same)
      exact may recovery
    · intro agent packet same
      obtain rfl := Option.some.inj (out.symm.trans same)
      exact flag agent
    · intro agent set
      rw [flag agent] at set
      exact waits.trans set

theorem Recovering.move {data : Bytes} {number : Nat} {next : TapClient × Connection}
    (nonempty : data ≠ []) (move : Move copy config data number late (c, k) next)
    (recovering : Recovering copy late c k) : Recovering copy late next.1 next.2 := by
  have ledger := recovering.ledger.move nonempty move
  have newMarks := recovering.marked.move move
  obtain ⟨oldLedger, marked, recovered⟩ := recovering
  refine ⟨ledger, newMarks, ?_⟩
  cases move with
  | sps => exact recovered
  | pps => exact recovered
  | @drop _ _ packet out =>
    have full := oldLedger.tidy.resolve_left (by simp [out])
    exact fun _ other last _ => absurd last (pending_short oldLedger full other)
  | @write _ _ count short =>
    have full : c.pending ≠ [] := fun none => by simp [none] at short
    obtain ⟨packet, out⟩ := out_of_pending full
    have left := ledger.tidy.resolve_left fun gone => by
      rw [show c.out = none from gone] at out
      cases out
    exact fun _ other last _ => absurd last (pending_short ledger left other)
  | finish full may =>
    obtain ⟨packet, out⟩ := out_of_pending full
    intro only other last recovers
    obtain rfl : packet = other := by
      rw [oldLedger.whole full out] at last
      exact (Prod.mk.inj (Option.some.inj last)).1
    cases copy with
    | server => exact absurd (only (may rfl packet out recovers.1)) (by simp)
    | agent =>
      have pending := (marked.pending rfl packet out).trans recovers.1
      simp [emptied, pending]
  | recover => exact fun _ _ _ _ => rfl
  | @load _ _ cap now =>
    obtain ⟨pending, -⟩ := pending_load copy {c with outCap := cap} (assemble c data number) now
    have full : (load copy {c with outCap := cap} (assemble c data number) now).pending ≠ [] := by
      rw [pending]
      exact assemble_nonempty c nonempty number
    exact fun _ other last _ => absurd last (pending_short ledger full other)

/-- A vacant slot: a packet in it is not of a recovery, and the flags are off. -/
structure Plain (pub : Publications) (c : TapClient) : Prop where
  tidy : c.Tidy
  start : c.outOff = 0
  flag : c.pendingIdr = false
  plain : ∀ packet, c.out = some packet → packet.recovery = false ∧ packet.number < pub.length

/-- The law of recovery. -/
def recovery (copy : Copy) (config : Config) (late : Prop) : Law copy config late True where
  seated := fun _ => Recovering copy late
  vacant := Plain
  ended := fun _ _ => True
  known := fun _ _ _ _ => True
  tidy := fun recovering => recovering.ledger.tidy
  begun := fun idle packet out => (idle.plain packet out).2
  parted := fun _ => trivial
  seated_later := fun _ recovering => recovering
  vacant_later := fun _ idle => ⟨idle.tidy, idle.start, idle.flag, fun packet out =>
    ⟨(idle.plain packet out).1, by simpa using Nat.lt_succ_of_lt (idle.plain packet out).2⟩⟩
  ended_later := fun _ _ => trivial
  known_later := fun _ _ => trivial
  known_none := fun _ => trivial
  learn_sps := fun _ _ => trivial
  learn_pps := fun _ _ => trivial
  zeroed := ⟨Or.inl rfl, rfl, rfl, by simp [TapClient.closed]⟩
  closed := fun _ => ⟨Or.inl rfl, rfl, rfl, by simp [TapClient.closed]⟩
  reloaded := by
    intro _ pub streamId data cap now nonempty
    obtain ⟨start, -, -, out, pending⟩ := reloaded_fields copy data pub.length cap now
    refine ⟨Or.inr ?_, start, ?_, ?_⟩
    · rw [pending]
      exact assemble_nonempty _ nonempty _
    · cases copy <;> rfl
    · intro packet same
      obtain rfl := Option.some.inj (out.symm.trans same)
      exact ⟨rfl, by simp [assemble]⟩
  enter := by
    intro s c sid fd granted idle _ _
    have ledger := Ledger.enter copy s fd sid s.published.length granted idle.tidy idle.start
    have same : (seat copy s c fd sid granted).out = c.out ∧
        (seat copy s c fd sid granted).pendingIdr = c.pendingIdr := by
      cases copy <;> exact ⟨rfl, rfl⟩
    obtain ⟨out, flag⟩ := same
    have plain (packet : TapPacket) (loaded : (seat copy s c fd sid granted).out = some packet) :
        packet.recovery = false := (idle.plain packet (out ▸ loaded)).1
    refine ⟨ledger, ⟨?_, ?_, ?_, ?_⟩, fun _ packet last recovers => ?_⟩
    · intro packet loaded recovery
      simp [plain packet loaded] at recovery
    · intro packet loaded recovery
      simp [plain packet loaded] at recovery
    · intro _ packet loaded
      rw [flag, idle.flag, plain packet loaded]
    · intro _ set
      simp [flag, idle.flag] at set
    · have member : packet ∈ c.out := by
        cases held : c.out with
        | none => simp [held] at last
        | some other =>
          simp only [held, Option.toList_some, List.map_cons, List.map_nil, List.getLast?_singleton,
            Option.some.injEq, Prod.mk.injEq] at last
          simp [last.1]
      have recovery := recovers.1
      simp [(idle.plain packet member).1] at recovery
  move := fun _ _ nonempty _ move recovering => recovering.move nonempty move

section
variable {s : State} {input : Input}

theorem Law.Holds.ends (holds : (recovery copy config late).Holds s)
    (only : late → copy = .agent) : RecoveryEnds s := by
  intro i fd active own
  obtain ⟨other, same, _, _, recovering⟩ := holds.seated i active
  obtain rfl := Option.some.inj (same.symm.trans own)
  exact recovering.recovered only

theorem Law.Holds.at_rule (holds : (recovery copy config late).Holds s)
    (only : late → copy = .agent) (may : Allowed copy config late True s input) :
    EndsAtRule copy config s input := by
  cases input with
  | accept => trivial
  | publish streamId data granted answers =>
    intro nonempty i below active same fd own live
    obtain ⟨other, held, _, before, recovering⟩ := holds.seated i active
    obtain rfl := Option.some.inj (held.symm.trans own)
    obtain ⟨left, -, moves, result⟩ := flushPending_moves copy config data s.published.length
      active (s.connections other) (answers i)
    rcases result with kept | ⟨-, gone⟩
    · have seated : (recovery copy config late).seated (s.published ++ [(streamId, data)])
          (s.clients i) (s.connections other) := recovering
      obtain ⟨-, -, -, -, -, seated⟩ := moves_kept (may nonempty i below active same).1 active same
        nonempty before moves seated
      rw [kept]
      exact seated.recovered only
    · simp [gone, TapClient.closed] at live

theorem leftOver_loaded {data : Bytes} {answers : ClientAnswers} {packet : TapPacket}
    (out : (leftOver config c data answers).out = some packet) :
    stalled config (maybeCacheParamSets c data answers.caches) answers.stallClock = false ∧
      leftOver config c data answers = maybeCacheParamSets c data answers.caches := by
  unfold leftOver dropStalled at out ⊢
  split at out
  · cases out
  · rename_i still
    exact ⟨by simpa using still, if_neg still⟩

theorem cache_needIdr (c : TapClient) (data : Bytes) (granted : Bool) :
    (maybeCacheParamSets c data granted).needIdr = c.needIdr := by
  unfold maybeCacheParamSets
  split
  · split <;> rfl
  · rfl

/-- A packet of the recovery that is completed late leaves the server's client waiting. -/
theorem late_waits (holds : (recovery .server config True).Holds s)
    (ends : EndsAtRule .server config s input) : InTime .server config s input := by
  cases input with
  | accept => trivial
  | publish streamId data granted answers =>
    rintro - nonempty i below active same ⟨⟨packet, loaded, begun⟩, full, all⟩
    obtain ⟨fd, own, _, _, recovering⟩ := holds.seated i active
    obtain ⟨still, rest⟩ := leftOver_loaded loaded
    have kept := cache_out data (s.clients i) (answers i).caches
    have out : (s.clients i).out = some packet := by rw [← kept.1, ← rest, loaded]
    have pending : (leftOver config (s.clients i) data (answers i)).pending =
        (s.clients i).pending := by
      rw [rest, TapClient.pending, TapClient.pending, kept.1, kept.2.1]
    have waits : (leftOver config (s.clients i) data (answers i)).needIdr := by
      rw [rest, cache_needIdr]
      exact recovering.marked.waits packet out begun
    have flushed : flushPending .server config (s.clients i) data (answers i) =
        ⟨emptied .server (leftOver config (s.clients i) data (answers i)),
          (s.clients i).pending, true⟩ := by
      rw [flushPending_eq, if_neg full, ← pending]
      rcases flush_cases .server (leftOver_active config data active (answers i))
        (answers i).flushes with ⟨_, _, blocked, _⟩ | ⟨-, same⟩ | ⟨_, _, closed, _⟩
      · simp [all] at blocked
      · exact same
      · simp [all] at closed
    have recovered := ends nonempty i below active same fd own (by
      rw [flushed]
      exact leftOver_active config data active (answers i))
    rw [flushed] at recovered
    have ended := recovered packet (by
      rw [Connection.flushed, still]
      rw [pending] at full
      exact recovering.ledger.whole full out) ⟨begun, recovering.marked.idr packet out begun⟩
    rw [show (emptied .server (leftOver config (s.clients i) data (answers i))).needIdr =
      (leftOver config (s.clients i) data (answers i)).needIdr from rfl, waits] at ended
    cases ended

end

theorem allowed_all (s : State) (input : Input) : Allowed copy config True True s input := by
  cases input <;> simp [Allowed]

/-- A recovery ends with its packet in every state of a run, and at every reading of
`need_idr`, exactly if no packet of a recovery is completed late in the server's copy. -/
theorem recovery_iff (copy : Copy) (config : Config) (inputs : List Input) :
    ((∀ past rest, inputs = past ++ rest → RecoveryEnds (run copy config past)) ∧
        Run.Always (step copy config) .initial (EndsAtRule copy config) inputs) ↔
      Run.Always (step copy config) .initial (InTime copy config) inputs := by
  constructor
  · rintro ⟨-, rule⟩ past input rest split
    cases copy with
    | agent => cases input <;> simp [InTime]
    | server =>
      exact late_waits ((recovery .server config True).run_holds past
        fun _ _ _ _ => allowed_all _ _) (rule past input rest split)
  · intro inTime
    have allowed : Run.Always (step copy config) .initial
        (Allowed copy config (copy = .agent) True) inputs := by
      intro past input rest split
      have inTime := inTime past input rest split
      cases input with
      | accept => trivial
      | publish streamId data granted answers =>
        intro nonempty i below active same
        refine ⟨fun late => ?_, fun _ _ => trivial⟩
        cases copy with
        | agent => rfl
        | server => exact absurd late (inTime rfl nonempty i below active same)
    constructor
    · rintro past rest rfl
      exact ((recovery copy config (copy = .agent)).run_holds past
        (Run.always_before _ _ allowed)).ends id
    · rintro past input rest rfl
      exact ((recovery copy config (copy = .agent)).run_holds past
        (Run.always_before _ _ allowed)).at_rule id (allowed past input rest rfl)

end StreamRelay.Tap
