import StreamRelay.Tap.Ledger

/-! What a subscriber receives comes from its own stream and its own time, as long as no
publication goes on to load a slot whose client it has just closed. -/
namespace StreamRelay.Tap

/-- The packet is of a publication made on the connection's stream while it was subscribed,
and its parameter sets were published on that stream. -/
structure Owned (pub : Publications) (k : Connection) (packet : TapPacket) : Prop where
  since : k.since ≤ packet.number
  genuine : Genuine pub k.streamId packet

/-- Nothing of the last client is left, except perhaps its descriptor. -/
def TapClient.Blank (c : TapClient) : Prop := {c with fd := none} = TapClient.closed

structure Isolated (s : State) : Prop where
  received : ∀ fd < s.accepted, ∃ units : Wire.Line TapPacket,
    (s.connections fd).wire = Wire.bytes TapPacket.bytes units ∧
      ∀ u ∈ units, Owned s.published (s.connections fd) u.1
  freed : ∀ i, (s.clients i).active = false → (s.clients i).Blank

/-- No sends of left-over bytes find a closed connection in a publication that is then
granted the memory to go on. -/
def Unbroken (copy : Copy) (config : Config) (s : State) : Input → Prop
  | .accept .. => True
  | .publish streamId data _ answers => data ≠ [] → ∀ i < copy.slots, (s.clients i).active →
      (s.clients i).streamId = streamId →
      LosesClient config (s.clients i) data (answers i) → (answers i).allocates = false

variable {copy : Copy} {config : Config} {pub : Publications} {c : TapClient} {k : Connection}

theorem unbroken_allowed {s : State} {input : Input} :
    Unbroken copy config s input ↔ Allowed copy config True False s input := by
  cases input with
  | accept => exact Iff.rfl
  | publish => simp [Unbroken, Allowed]

theorem Owned.later {packet : TapPacket} (entry : Nat × Bytes) (owned : Owned pub k packet) :
    Owned (pub ++ [entry]) k packet :=
  ⟨owned.since, owned.genuine.later entry⟩

theorem blank_fields (blank : c.Blank) : c.out = none ∧ c.outOff = 0 ∧ c.sps = [] ∧ c.pps = [] :=
  ⟨congrArg TapClient.out blank, congrArg TapClient.outOff blank,
    congrArg TapClient.sps blank, congrArg TapClient.pps blank⟩

/-- A connection that received only what is its own. -/
structure Private (pub : Publications) (k : Connection) : Prop where
  wire : k.wire = Wire.bytes TapPacket.bytes k.line
  owned : ∀ packet ∈ k.line.frames, Owned pub k packet

theorem Private.later (entry : Nat × Bytes) (isolated : Private pub k) :
    Private (pub ++ [entry]) k :=
  ⟨isolated.wire, fun packet member => (isolated.owned packet member).later entry⟩

structure Seated (pub : Publications) (c : TapClient) (k : Connection) : Prop where
  ledger : Ledger c k
  stream : k.streamId = c.streamId
  sets : Sets pub c
  owned : ∀ packet ∈ k.line.frames, Owned pub k packet

theorem move_streamId {late : Prop} {data : Bytes} {number : Nat} {next : TapClient × Connection}
    (move : Move copy config data number late (c, k) next) :
    next.2.streamId = k.streamId := by
  cases move <;> rfl

theorem Seated.move {late : Prop} {streamId : Nat} {data : Bytes} {next : TapClient × Connection}
    (same : c.streamId = streamId) (nonempty : data ≠ []) (since : k.since ≤ pub.length)
    (move : Move copy config data pub.length late (c, k) next)
    (seated : Seated (pub ++ [(streamId, data)]) c k) :
    Seated (pub ++ [(streamId, data)]) next.1 next.2 := by
  obtain ⟨-, stream, -, began⟩ := move.frame
  have connection := move_streamId move
  refine ⟨seated.ledger.move nonempty move, ?_, seated.sets.move same move, ?_⟩
  · rw [connection, stream, seated.stream]
  · intro packet member
    have source : k.since ≤ packet.number ∧
        Genuine (pub ++ [(streamId, data)]) k.streamId packet := by
      rcases frames_move move with old | ⟨more, may, -⟩
      · obtain ⟨since, genuine⟩ := seated.owned packet (old ▸ member)
        exact ⟨since, genuine⟩
      · rw [more] at member
        rcases List.mem_append.mp member with member | member
        · obtain ⟨since, genuine⟩ := seated.owned packet member
          exact ⟨since, genuine⟩
        · obtain rfl := List.mem_singleton.mp member
          rw [seated.stream, same]
          exact ⟨since, seated.sets.assemble same nonempty may⟩
    refine ⟨began.trans_le source.1, ?_⟩
    rw [connection]
    exact source.2

/-- The law of isolation: vacant slots are blank. -/
def isolation (copy : Copy) (config : Config) : Law copy config True False where
  seated := Seated
  vacant := fun _ c => c.Blank
  ended := Private
  known := KnownSets
  tidy := fun seated => seated.ledger.tidy
  begun := fun blank packet out => by simp [(blank_fields blank).1] at out
  parted := fun seated => ⟨seated.ledger.wire, seated.owned⟩
  seated_later := fun entry seated =>
    ⟨seated.ledger, seated.stream, seated.sets.later entry,
      fun packet member => (seated.owned packet member).later entry⟩
  vacant_later := fun _ blank => blank
  ended_later := fun entry isolated => isolated.later entry
  known_later := fun entry known => known.later entry
  known_none := fun streamId => KnownSets.none streamId
  learn_sps := fun seven known => known.learnSps seven
  learn_pps := fun eight known => known.learnPps eight
  zeroed := rfl
  closed := fun _ => rfl
  reloaded := False.elim
  enter := by
    intro s c sid fd granted blank _ known
    obtain ⟨out, off, sps, pps⟩ := blank_fields blank
    refine ⟨Ledger.enter copy s fd sid _ granted (Or.inl out) off, ?_, Sets.enter sps pps known, ?_⟩
    · cases copy <;> rfl
    · simp [out, Wire.Line.frames]
  move := fun _ same nonempty since move seated => seated.move same nonempty since move

theorem Law.Holds.isolated {s : State} (holds : (isolation copy config).Holds s) : Isolated s where
  received := fun fd below =>
    ⟨(s.connections fd).line, (holds.ended fd below).wire,
      fun _ member => (holds.ended fd below).owned _ (List.mem_map_of_mem member)⟩
  freed := holds.vacant

theorem publishSlots_other {streamId number : Nat} {data : Bytes}
    (answers : Nat → ClientAnswers) {i : Nat} (slots : List Nat) :
    ∀ s : State, i ∉ slots →
    (slots.foldl (publishSlot copy config streamId data number answers) s).clients i =
      s.clients i := by
  induction slots with
  | nil => exact fun _ _ => rfl
  | cons j slots ih =>
    intro s absent
    obtain ⟨apart, absent⟩ := not_or.mp (mt List.mem_cons.mpr absent)
    exact (ih _ absent).trans (Law.publishSlot_other _ _ _ _ _ answers s apart)

theorem publishSlots_client {streamId number : Nat} {data : Bytes}
    (answers : Nat → ClientAnswers) {i : Nat} (slots : List Nat) :
    ∀ s : State, slots.Nodup → i ∈ slots → (s.clients i).active → (s.clients i).streamId = streamId →
    (slots.foldl (publishSlot copy config streamId data number answers) s).clients i =
      (publishClient copy config (s.clients i) data number (answers i)).client := by
  induction slots with
  | nil => simp
  | cons j slots ih =>
    intro s distinct member active same
    obtain ⟨fresh, distinct⟩ := List.nodup_cons.mp distinct
    rw [List.foldl_cons]
    by_cases here : i = j
    · subst here
      rw [publishSlots_other answers slots _ fresh]
      simp [publishSlot, active, same]
    · have kept := Law.publishSlot_other copy config streamId data number answers s here
      rw [ih _ distinct ((List.mem_cons.mp member).resolve_left here) (by rwa [kept])
        (by rwa [kept]), kept]

theorem updateGlobalParamSets_clients (s : State) (streamId : Nat) (data : Bytes)
    (granted : Bool) : (updateGlobalParamSets copy s streamId data granted).clients = s.clients := by
  unfold updateGlobalParamSets
  cases copy with
  | server => rfl
  | agent =>
    dsimp only
    split
    · split <;> rfl
    · rfl

/-- A step that comes upon a lost client with memory to go on leaves a slot that is not blank. -/
theorem broken_step {s : State} {input : Input} (isolated : Isolated (step copy config s input)) :
    Unbroken copy config s input := by
  cases input with
  | accept => trivial
  | publish streamId data granted answers =>
    intro nonempty i member active same loses
    by_contra allocates
    have allocates : (answers i).allocates = true := by simpa using allocates
    obtain ⟨gone, cleared⟩ := flushPending_loses copy config data active loses
    obtain ⟨cap, now, reloads⟩ :=
      publishClient_reloads copy config data s.published.length gone cleared allocates
    have client : (step copy config s (.publish streamId data granted answers)).clients i =
        TapClient.reloaded copy data s.published.length cap now := by
      rw [← reloads]
      simp only [step, publish, nonempty, if_false]
      rw [publishSlots_client answers (List.range copy.slots) _ List.nodup_range
        (List.mem_range.mpr member) ?_ ?_, updateGlobalParamSets_clients]
      · rw [updateGlobalParamSets_clients]
        exact active
      · rw [updateGlobalParamSets_clients]
        exact same
    have blank := isolated.freed i (by rw [client]; cases copy <;> rfl)
    rw [client] at blank
    have out := (blank_fields blank).1
    cases copy <;> simp [TapClient.reloaded, load, TapClient.closed] at out

/-- Every state of a run is isolated exactly if each step is unbroken. -/
theorem isolated_iff (copy : Copy) (config : Config) (inputs : List Input) :
    (∀ past rest, inputs = past ++ rest → Isolated (run copy config past)) ↔
      Run.Always (step copy config) .initial (Unbroken copy config) inputs := by
  constructor
  · rintro isolated past input rest rfl
    have after := isolated (past ++ [input]) rest (by simp)
    rw [run, Run.run_snoc] at after
    exact broken_step after
  · rintro always past rest rfl
    refine ((isolation copy config).run_holds past ?_).isolated
    intro before input later split
    exact unbroken_allowed.mp (Run.always_before _ _ always before input later split)

/-- In an isolated state a byte received is of a start code or of a payload of the stream. -/
theorem Isolated.byte {s : State} (isolated : Isolated s) (fd : Nat) (b : UInt8)
    (below : fd < s.accepted) (received : b ∈ (s.connections fd).wire) :
    b ∈ startCode4 ∨
      ∃ entry ∈ s.published, entry.1 = (s.connections fd).streamId ∧ b ∈ entry.2 := by
  obtain ⟨units, wire, owned⟩ := isolated.received fd below
  rw [wire, Wire.bytes, List.mem_flatMap] at received
  obtain ⟨u, member, taken⟩ := received
  obtain ⟨-, genuine⟩ := owned u member
  have cached {nalType : UInt8} {set : Bytes}
      (cached : Cached s.published (s.connections fd).streamId nalType set) (inside : b ∈ set) :
      ∃ entry ∈ s.published, entry.1 = (s.connections fd).streamId ∧ b ∈ entry.2 := by
    rcases cached with rfl | ⟨published, -⟩
    · cases inside
    · exact ⟨_, published, rfl, inside⟩
  have inside := List.mem_of_mem_take taken
  simp only [TapPacket.bytes, List.mem_append] at inside
  rcases inside with ((sps | pps) | code) | payload
  · exact Or.inr (cached genuine.sps sps)
  · exact Or.inr (cached genuine.pps pps)
  · rw [genuine.startCode] at code
    split at code
    · cases code
    · exact Or.inl code
  · exact Or.inr ⟨_, List.mem_of_getElem? genuine.published, rfl, payload⟩

def sampleConfig : Config := ⟨200, true⟩

def sampleIdr : Bytes := [0, 0, 0, 1, 0x65]

def sampleAt (clock : UInt64) (flushes sends : List SendAnswer) : ClientAnswers :=
  ⟨true, clock, flushes, true, clock, sends⟩

def subscribe (streamId : Int) : Input :=
  .accept (some streamId) (fun _ => .wouldBlock) (fun _ => .wouldBlock) (true, true)

/-- The first client's socket fills up and then breaks, and a client of another stream comes. -/
def leak : List Input :=
  [subscribe 1, .publish 1 sampleIdr true fun _ => sampleAt 1 [] [],
    .publish 1 [200] true fun _ => sampleAt 1 [.failed] [], subscribe 2,
    .publish 2 sampleIdr true fun _ => sampleAt 1 [.sent 100] []]

theorem leaked (copy : Copy) : (run copy sampleConfig leak).accepted = 2 ∧
    ((run copy sampleConfig leak).connections 1).streamId = 2 ∧
    (run copy sampleConfig leak).published = [(1, sampleIdr), (1, [200]), (2, sampleIdr)] ∧
    ((run copy sampleConfig leak).connections 1).wire = [0, 0, 0, 1, 200] := by
  cases copy <;> decide +kernel

/-- In both copies the second client receives the access unit of the first client's stream. -/
theorem leak_not_isolated : ¬ ∃ copy, Isolated (run copy sampleConfig leak) := by
  rintro ⟨copy, isolated⟩
  obtain ⟨accepted, streamId, published, wire⟩ := leaked copy
  have byte := isolated.byte 1 200 (by simp [accepted]) (by simp [wire])
  rw [streamId, published] at byte
  revert byte
  decide

end StreamRelay.Tap
