import StreamRelay.Tap.ParamSets

/-! What a viewer sees of the publications of a run: its connection carries some of them, each at
most once and in order, and in the agent's copy it begins with an IDR. -/
namespace StreamRelay.Tap

/-- What an input publishes; nothing of no bytes is. -/
def Input.entry : Input → Option (Nat × Bytes)
  | .accept .. => none
  | .publish streamId data _ _ => if data = [] then none else some (streamId, data)

variable {copy : Copy} {config : Config}

theorem run_entries (copy : Copy) (config : Config) (inputs : List Input) :
    (run copy config inputs).published = inputs.filterMap Input.entry := by
  induction inputs using List.reverseRecOn with
  | nil => rfl
  | append_singleton past input ih =>
    rw [run, Run.run_snoc, ← run, List.filterMap_append]
    cases input with
    | accept named peeks again granted =>
      simp only [step, accept_published, ih]
      exact (List.append_nil _).symm
    | publish streamId data granted answers =>
      simp only [step, publish]
      by_cases empty : data = []
      · rw [if_pos empty, ih]
        simp [Input.entry, empty]
      · rw [if_neg empty, publishSlots_published, updateGlobalParamSets_published, ih]
        simp [Input.entry, empty]

/-- Entries taken by growing numbers are in their order. -/
theorem numbers_sublist {α β : Type*} {pub : List α} {list : List β} (number : β → Nat)
    (entry : β → α) (sorted : list.Pairwise fun p q => number p < number q)
    (there : ∀ p ∈ list, pub[number p]? = some (entry p)) : (list.map entry).Sublist pub := by
  induction list using List.reverseRecOn generalizing pub with
  | nil => exact List.nil_sublist _
  | append_singleton past last ih =>
    obtain ⟨before, -, below⟩ := List.pairwise_append.mp sorted
    have final := there last (by simp)
    obtain ⟨inside, same⟩ := List.getElem?_eq_some_iff.mp final
    have earlier : (past.map entry).Sublist (pub.take (number last)) := by
      apply ih before
      intro p member
      rw [List.getElem?_take_of_lt (below p member last (List.mem_singleton_self _))]
      exact there p (List.mem_append_left _ member)
    rw [List.map_append, ← List.take_append_drop (number last) pub]
    apply earlier.append
    rw [List.drop_eq_getElem_cons inside, same]
    simp

theorem Packets.order {pub : Publications} {k : Connection} {units : Wire.Line TapPacket}
    (packets : Packets pub k units) :
    (units.map fun u => u.1.payload).Sublist (pub.map Prod.snd) := by
  have there : ∀ u ∈ units,
      (pub.map Prod.snd)[u.1.number]? = some u.1.payload := by
    intro u member
    obtain ⟨streamId, genuine⟩ := packets.genuine u member
    rw [List.getElem?_map, genuine.published]
    rfl
  exact numbers_sublist (fun u : TapPacket × Nat => u.1.number) (fun u => u.1.payload) packets.once
    there

variable {late : Prop} {c : TapClient} {k : Connection}

/-- The first bytes on the connection are of a recovery, and until they are sent the client waits
for one or has one in its buffer. -/
structure Opening (c : TapClient) (k : Connection) : Prop where
  ledger : Ledger c k
  first : ∀ u ∈ k.line.sent.head?, Recovers u.1
  waits : k.line.sent = [] → c.out = none → c.needIdr
  ready : k.line.sent = [] → ∀ packet, c.out = some packet → Recovers packet

/-- When more of the last packet is sent, it begins the line or what did still does. -/
theorem sent_grow {line : Wire.Line TapPacket} {packet : TapPacket} {sent : Nat} (count : Nat)
    (last : line.getLast? = some (packet, sent)) :
    (∀ u ∈ (line.grow count).sent.head?,
      (∃ v ∈ line.sent.head?, u.1 = v.1) ∨ line.sent = [] ∧ u.1 = packet) ∧
      ((line.grow count).sent = [] → line.sent = [] ∧ count = 0) := by
  obtain ⟨past, rfl⟩ := List.getLast?_eq_some_iff.mp last
  rw [Wire.grow_snoc, Wire.Orderly.sent_snoc, Wire.Orderly.sent_snoc]
  cases earlier : Wire.Line.sent past with
  | nil =>
    by_cases some_ : 0 < sent
    · rw [if_pos (Nat.add_pos_left some_ count), if_pos some_]
      simp
    · obtain rfl := Nat.eq_zero_of_not_pos some_
      rw [if_neg some_, Nat.zero_add]
      constructor
      · intro u first
        split at first
        · obtain rfl := Option.some.inj first
          exact .inr ⟨rfl, rfl⟩
        · cases first
      · intro empty
        split at empty
        · cases empty
        · rename_i none_more
          exact ⟨rfl, Nat.eq_zero_of_not_pos none_more⟩
  | cons v more =>
    constructor
    · intro u first
      refine .inl ⟨u, ?_, rfl⟩
      split at first <;> split <;> exact first
    · intro empty
      split at empty <;> cases empty

theorem Opening.write (opening : Opening c k) {count : Nat} (full : c.pending ≠ [])
    (within : count ≤ c.pending.length) :
    (∀ u ∈ (k.write (c.pending.take count)).line.sent.head?, Recovers u.1) ∧
      ((k.write (c.pending.take count)).line.sent = [] → k.line.sent = [] ∧ count = 0) := by
  obtain ⟨packet, out⟩ := out_of_pending full
  obtain ⟨begins, none_sent⟩ := sent_grow count (opening.ledger.last packet out)
  have length : (c.pending.take count).length = count := by simp [within]
  simp only [Connection.write, length]
  refine ⟨fun u first => ?_, none_sent⟩
  rcases begins u first with ⟨v, known, same⟩ | ⟨fresh, same⟩
  · rw [same]
    exact opening.first v known
  · rw [same]
    exact opening.ready fresh packet out

theorem Opening.whole (opening : Opening c k) (full : c.pending ≠ []) {next : TapClient}
    (ledger : Ledger next (k.write c.pending)) : Opening next (k.write c.pending) := by
  obtain ⟨first, none_sent⟩ := opening.write full le_rfl
  rw [← write_all] at first none_sent
  have sent : (k.write c.pending).line.sent ≠ [] := fun empty =>
    full (List.length_eq_zero_iff.mp (none_sent empty).2)
  exact ⟨ledger, first, fun empty => absurd empty sent, fun empty => absurd empty sent⟩

theorem Opening.move {data : Bytes} {number : Nat} {next : TapClient × Connection}
    (drops : config.dropToIdr) (nonempty : data ≠ [])
    (move : Move copy config data number late (c, k) next) (opening : Opening c k) :
    Opening next.1 next.2 := by
  have ledger := opening.ledger.move nonempty move
  cases move with
  | sps | pps => exact ⟨ledger, opening.first, opening.waits, opening.ready⟩
  | drop out => exact ⟨ledger, opening.first, fun _ _ => by simp [drops], fun _ _ held => by cases held⟩
  | write short =>
    have full : c.pending ≠ [] := fun none_left => by simp [none_left] at short
    obtain ⟨first, none_sent⟩ := opening.write full short.le
    exact ⟨ledger, first, fun empty => opening.waits (none_sent empty).1,
      fun empty => opening.ready (none_sent empty).1⟩
  | finish full | recover full => exact opening.whole full ledger
  | @load _ _ cap now empty may fresh =>
    have same : (k.line.start (assemble c data number)).sent = k.line.sent := by
      rw [Wire.Line.start, Wire.Orderly.sent_snoc, if_neg (Nat.lt_irrefl 0)]
    obtain ⟨-, loaded, -, -⟩ := pending_load copy {c with outCap := cap} (assemble c data number) now
    refine ⟨ledger, ?_, fun _ out => ?_, fun none_sent packet out => ?_⟩
    · dsimp only
      rw [same]
      exact opening.first
    · rw [loaded] at out
      cases out
    · dsimp only at none_sent
      rw [same] at none_sent
      rw [loaded] at out
      obtain rfl := Option.some.inj out
      have waiting := opening.waits none_sent empty
      exact ⟨waiting, may waiting⟩

/-- Nothing is left in the buffer of the slot. -/
structure Spent (c : TapClient) : Prop where
  out : c.out = none
  start : c.outOff = 0

theorem Spent.begun (spent : Spent c) (number : Nat) :
    ∀ packet, c.out = some packet → packet.number < number := by
  intro packet out
  rw [spent.out] at out
  cases out

/-- The agent lets a new client wait for an IDR. -/
theorem Opening.enter (s : State) (fd sid since : Nat) (granted : Bool × Bool) (spent : Spent c) :
    Opening (seat .agent s c fd sid granted) ⟨sid, since, c.out.toList.map (·, 0), [], []⟩ := by
  obtain ⟨out, start⟩ := spent
  refine ⟨Ledger.enter .agent s fd sid _ granted (Or.inl out) start, ?_, fun _ _ => rfl, ?_⟩
  · intro u first
    rw [out] at first
    cases first
  · intro _ packet held
    rw [show (seat .agent s c fd sid granted).out = c.out from rfl, out] at held
    cases held

/-- The law of the first bytes in the agent's copy. -/
def opening (config : Config) (drops : config.dropToIdr) : Law .agent config True False where
  seated := fun _ => Opening
  vacant := fun _ => Spent
  ended := fun _ k => ∀ u ∈ k.line.sent.head?, Recovers u.1
  known := fun _ _ _ _ => True
  tidy := fun opening => opening.ledger.tidy
  begun := fun spent => spent.begun _
  parted := fun opening => opening.first
  seated_later := fun _ opening => opening
  vacant_later := fun _ spent => spent
  ended_later := fun _ first => first
  known_later := fun _ known => known
  known_none := fun _ => trivial
  learn_sps := fun _ known => known
  learn_pps := fun _ known => known
  zeroed := ⟨rfl, rfl⟩
  closed := fun _ => ⟨rfl, rfl⟩
  reloaded := False.elim
  enter := fun fd granted spent _ _ => Opening.enter _ fd _ _ granted spent
  move := fun _ _ nonempty _ move opening => opening.move drops nonempty move

/-- What a viewer sees of the units that were published: each at most once and in order, behind a
start code, and behind parameter sets that were published themselves if it begins a recovery; one
that is cut short was given up by the stall rule, and a recovery follows. -/
structure Viewing (units : List Bytes) (k : Connection) : Prop where
  wire : k.wire = Wire.bytes TapPacket.bytes k.line.sent
  order : (k.line.sent.map fun u => u.1.payload).Sublist units
  marked : ∀ u ∈ k.line.sent,
    u.1.startCode = if hasStartCode u.1.payload then [] else startCode4
  sets : ∀ u ∈ k.line.sent, ∀ set ∈ [u.1.sps, u.1.pps], set ≠ [] → set ∈ units
  resumed : k.line.sent.IsChain fun u v =>
    Wire.Whole TapPacket.bytes u ∨ (u.1 ∈ k.dropped ∧ Recovers v.1)

theorem Viewing.mono {units more : List Bytes} (viewing : Viewing units k)
    (within : units.Sublist more) : Viewing more k where
  wire := viewing.wire
  order := viewing.order.trans within
  marked := viewing.marked
  sets := fun u member set which some_ => within.subset (viewing.sets u member set which some_)
  resumed := viewing.resumed

theorem Cached.published {pub : Publications} {streamId : Nat} {nalType : UInt8} {set : Bytes}
    (cached : Cached pub streamId nalType set) (some_ : set ≠ []) : set ∈ pub.map Prod.snd := by
  rcases cached with none_ | ⟨member, -⟩
  · exact absurd none_ some_
  · exact List.mem_map_of_mem member

theorem run_viewing (copy : Copy) (stallMs : UInt64) (inputs : List Input) :
    ∀ fd < (run copy ⟨stallMs, true⟩ inputs).accepted,
      Viewing ((inputs.filterMap Input.entry).map Prod.snd)
        ((run copy ⟨stallMs, true⟩ inputs).connections fd) := by
  intro fd below
  have holds := (integrity copy ⟨stallMs, true⟩ rfl).run_holds inputs
    (fun _ input _ _ => allowed_all _ input)
  have packets := (holds.ended fd below).packets
  rw [run_entries] at packets
  refine ⟨packets.wire, packets.order, ?_, ?_, packets.resumed⟩
  · intro u member
    obtain ⟨streamId, genuine⟩ := packets.genuine u member
    exact genuine.startCode
  · intro u member set which some_
    obtain ⟨streamId, genuine⟩ := packets.genuine u member
    rcases List.mem_pair.mp which with rfl | rfl
    · exact genuine.sps.published some_
    · exact genuine.pps.published some_

/-- A viewer of the agent begins with an IDR, unless a closed slot is loaded. -/
theorem run_opens (stallMs : UInt64) (inputs : List Input)
    (unbroken : Run.Always (step .agent ⟨stallMs, true⟩) .initial (Unbroken .agent ⟨stallMs, true⟩)
      inputs) :
    ∀ fd < (run .agent ⟨stallMs, true⟩ inputs).accepted,
      ∀ u ∈ ((run .agent ⟨stallMs, true⟩ inputs).connections fd).line.sent.head?, Recovers u.1 := by
  have holds := (opening ⟨stallMs, true⟩ rfl).run_holds inputs
    (fun past input rest split => unbroken_allowed.mp (unbroken past input rest split))
  exact holds.ended

end StreamRelay.Tap
