import StreamRelay.Tap.Table

/-! What the observer's record of a connection says about the client seated on it, and what
a packet on the record is made of. -/
namespace StreamRelay.Tap

variable {copy : Copy} {config : Config} {late : Prop} {pub : Publications} {streamId : Nat}
  {c : TapClient} {k : Connection}

/-- The connection has received what its record says, and the last packet on the record is
the one in the buffer, if any. -/
structure Ledger (c : TapClient) (k : Connection) : Prop where
  tidy : c.Tidy
  wire : k.wire = Wire.bytes TapPacket.bytes k.line
  last : ∀ packet, c.out = some packet → k.line.getLast? = some (packet, c.outOff)

theorem pending_of_out {packet : TapPacket} (out : c.out = some packet) :
    c.pending = packet.bytes.drop c.outOff := by
  simp [TapClient.pending, out]

theorem out_of_pending (full : c.pending ≠ []) : ∃ packet, c.out = some packet := by
  cases out : c.out with
  | none => simp [TapClient.pending, out] at full
  | some packet => exact ⟨packet, rfl⟩

/-- Bytes of the pending packet, sent. -/
theorem Ledger.write_wire (ledger : Ledger c k) {count : Nat} (full : c.pending ≠ [])
    (within : count ≤ c.pending.length) :
    (k.write (c.pending.take count)).wire =
        Wire.bytes TapPacket.bytes (k.write (c.pending.take count)).line ∧
      ∀ packet, c.out = some packet →
        (k.write (c.pending.take count)).line.getLast? = some (packet, c.outOff + count) := by
  obtain ⟨packet, out⟩ := out_of_pending full
  have last := ledger.last packet out
  have length : (c.pending.take count).length = count := by simp [within]
  simp only [Connection.write, length]
  constructor
  · rw [Wire.bytes_grow _ last, ledger.wire, pending_of_out out]
  · intro other same
    obtain rfl := Option.some.inj (out.symm.trans same)
    exact Wire.grow_last last count

theorem write_all (k : Connection) (c : TapClient) :
    k.write c.pending = k.write (c.pending.take c.pending.length) := by
  rw [List.take_length]

/-- A buffer that was sent to its end leaves its packet whole on the record. -/
theorem Ledger.whole (ledger : Ledger c k) (full : c.pending ≠ []) {packet : TapPacket}
    (out : c.out = some packet) :
    (k.write c.pending).line.getLast? = some (packet, packet.bytes.length) := by
  have last := (ledger.write_wire full (le_refl _)).2 packet out
  rw [write_all, last]
  rw [pending_of_out out, ne_eq, List.drop_eq_nil_iff] at full
  rw [pending_of_out out, List.length_drop, Nat.add_sub_cancel' (by omega)]

theorem emptied_out (copy : Copy) (c : TapClient) : (emptied copy c).out = none := by
  unfold emptied
  cases copy
  · rfl
  · dsimp only
    split <;> rfl

theorem Ledger.finished (ledger : Ledger c k) (full : c.pending ≠ []) {next : TapClient}
    (out : next.out = none) : Ledger next (k.write c.pending) where
  tidy := Or.inl out
  wire := by
    rw [write_all]
    exact (ledger.write_wire full (le_refl _)).1
  last := by simp [out]

theorem TapClient.Tidy.move {data : Bytes} {number : Nat} {next : TapClient × Connection}
    (tidy : c.Tidy) (nonempty : data ≠ []) (move : Move copy config data number late (c, k) next) :
    next.1.Tidy := by
  cases move with
  | sps => exact tidy
  | pps => exact tidy
  | drop => exact Or.inl rfl
  | @write _ _ count short =>
    have full : c.pending ≠ [] := fun none => by simp [none] at short
    obtain ⟨packet, out⟩ := out_of_pending full
    have rest := pending_of_out (c := {c with outOff := c.outOff + count}) out
    rw [pending_of_out out, List.length_drop] at short
    refine Or.inr ?_
    rw [rest, ne_eq, List.drop_eq_nil_iff]
    dsimp only
    omega
  | finish => exact Or.inl (emptied_out copy c)
  | recover => exact Or.inl (emptied_out copy c)
  | @load _ _ cap now =>
    obtain ⟨pending, -⟩ := pending_load copy {c with outCap := cap} (assemble c data number) now
    refine Or.inr ?_
    rw [pending]
    exact assemble_nonempty c nonempty number

theorem Ledger.move {data : Bytes} {number : Nat} {next : TapClient × Connection}
    (nonempty : data ≠ []) (move : Move copy config data number late (c, k) next)
    (ledger : Ledger c k) : Ledger next.1 next.2 := by
  have tidy := ledger.tidy.move nonempty move
  cases move with
  | sps => exact ⟨tidy, ledger.wire, ledger.last⟩
  | pps => exact ⟨tidy, ledger.wire, ledger.last⟩
  | drop => exact ⟨tidy, ledger.wire, by simp⟩
  | @write _ _ count short =>
    have full : c.pending ≠ [] := fun none => by simp [none] at short
    obtain ⟨wire, last⟩ := ledger.write_wire full short.le
    exact ⟨tidy, wire, last⟩
  | finish full => exact ledger.finished full (emptied_out copy c)
  | recover full => exact ledger.finished full (emptied_out copy c)
  | @load _ _ cap now empty =>
    obtain ⟨-, out, -, -⟩ :=
      pending_load copy {c with outCap := cap} (assemble c data number) now
    refine ⟨tidy, ?_, ?_⟩
    · simpa using ledger.wire
    · intro packet same
      obtain rfl := Option.some.inj (out.symm.trans same)
      have off : (load copy {c with outCap := cap} (assemble c data number) now).outOff = 0 := by
        unfold load
        cases copy
        · rfl
        · dsimp only
          split <;> rfl
      rw [off]
      simp

/-- A slot that can be given to a connection: what it still holds is at its beginning. -/
theorem Ledger.enter (copy : Copy) (s : State) (fd sid since : Nat) (granted : Bool × Bool)
    (tidy : c.Tidy) (off : c.outOff = 0) : Ledger (seat copy s c fd sid granted)
      ⟨sid, since, c.out.toList.map (·, 0), [], []⟩ := by
  have same : (seat copy s c fd sid granted).out = c.out ∧
      (seat copy s c fd sid granted).outOff = c.outOff ∧
      (seat copy s c fd sid granted).pending = c.pending := by
    cases copy <;> exact ⟨rfl, rfl, rfl⟩
  obtain ⟨out, start, pending⟩ := same
  refine ⟨?_, ?_, ?_⟩
  · rw [TapClient.Tidy, out, pending]
    exact tidy
  · cases c.out <;> simp [Wire.bytes]
  · intro packet holds
    rw [out] at holds
    simp [holds, start, off]

/-- A parameter set of a stream: absent, or published on it as a payload of its own. -/
def Cached (pub : Publications) (streamId : Nat) (nalType : UInt8) (set : Bytes) : Prop :=
  set = [] ∨ (streamId, set) ∈ pub ∧ firstNalType set = some nalType

/-- The packet carries the access unit of its publication, in front of it a start code if it
has none, and in the recovery, which begins with an IDR, the parameter sets of the stream. -/
structure Genuine (pub : Publications) (streamId : Nat) (packet : TapPacket) : Prop where
  published : pub[packet.number]? = some (streamId, packet.payload)
  payload : packet.payload ≠ []
  startCode : packet.startCode = if hasStartCode packet.payload then [] else startCode4
  sps : Cached pub streamId 7 packet.sps
  pps : Cached pub streamId 8 packet.pps
  recovery : packet.recovery → isIdr packet.payload
  plain : packet.recovery = false → packet.sps = [] ∧ packet.pps = []

theorem Cached.later {nalType : UInt8} {set : Bytes} (entry : Nat × Bytes)
    (cached : Cached pub streamId nalType set) : Cached (pub ++ [entry]) streamId nalType set :=
  cached.imp_right fun ⟨member, type⟩ => ⟨List.mem_append_left _ member, type⟩

theorem learned {data : Bytes} {nalType : UInt8} (type : firstNalType data = some nalType) :
    Cached (pub ++ [(streamId, data)]) streamId nalType data :=
  Or.inr ⟨by simp, type⟩

theorem Genuine.later {packet : TapPacket} (entry : Nat × Bytes)
    (genuine : Genuine pub streamId packet) : Genuine (pub ++ [entry]) streamId packet where
  published := by
    have below := (List.getElem?_eq_some_iff.mp genuine.published).1
    rw [List.getElem?_append_left below, genuine.published]
  payload := genuine.payload
  startCode := genuine.startCode
  sps := genuine.sps.later entry
  pps := genuine.pps.later entry
  recovery := genuine.recovery
  plain := genuine.plain

theorem Genuine.nonempty {packet : TapPacket} (genuine : Genuine pub streamId packet) :
    packet.bytes ≠ [] := by
  simp [TapPacket.bytes, genuine.payload]

/-- The parameter sets kept for a stream were published on it. -/
structure KnownSets (pub : Publications) (streamId : Nat) (sps pps : Bytes) : Prop where
  sps : Cached pub streamId 7 sps
  pps : Cached pub streamId 8 pps

theorem KnownSets.none (streamId : Nat) : KnownSets [] streamId [] [] := ⟨Or.inl rfl, Or.inl rfl⟩

theorem KnownSets.later {sps pps : Bytes} (entry : Nat × Bytes)
    (known : KnownSets pub streamId sps pps) : KnownSets (pub ++ [entry]) streamId sps pps :=
  ⟨known.sps.later entry, known.pps.later entry⟩

theorem KnownSets.learnSps {sps pps data : Bytes} (seven : firstNalType data = some 7)
    (known : KnownSets (pub ++ [(streamId, data)]) streamId sps pps) :
    KnownSets (pub ++ [(streamId, data)]) streamId data pps :=
  ⟨learned seven, known.pps⟩

theorem KnownSets.learnPps {sps pps data : Bytes} (eight : firstNalType data = some 8)
    (known : KnownSets (pub ++ [(streamId, data)]) streamId sps pps) :
    KnownSets (pub ++ [(streamId, data)]) streamId sps data :=
  ⟨known.sps, learned eight⟩

/-- The parameter sets kept for the client are of its stream. -/
structure Sets (pub : Publications) (c : TapClient) : Prop where
  sps : Cached pub c.streamId 7 c.sps
  pps : Cached pub c.streamId 8 c.pps

theorem Sets.later (entry : Nat × Bytes) (sets : Sets pub c) : Sets (pub ++ [entry]) c :=
  ⟨sets.sps.later entry, sets.pps.later entry⟩

theorem Sets.move {data : Bytes} {number : Nat} {next : TapClient × Connection}
    (same : c.streamId = streamId) (move : Move copy config data number late (c, k) next)
    (sets : Sets (pub ++ [(streamId, data)]) c) : Sets (pub ++ [(streamId, data)]) next.1 := by
  obtain ⟨sps, pps⟩ := sets
  cases move with
  | sps seven => exact ⟨by simpa only [same] using learned seven, pps⟩
  | pps eight => exact ⟨sps, by simpa only [same] using learned eight⟩
  | drop => exact ⟨sps, pps⟩
  | write => exact ⟨sps, pps⟩
  | finish | recover =>
    unfold emptied
    cases copy
    · exact ⟨sps, pps⟩
    · dsimp only
      split <;> exact ⟨sps, pps⟩
  | load =>
    unfold load
    cases copy
    · exact ⟨sps, pps⟩
    · dsimp only
      split <;> exact ⟨sps, pps⟩

theorem Sets.enter {s : State} {fd sid : Nat} {granted : Bool × Bool} (sps : c.sps = [])
    (pps : c.pps = []) (known : KnownSets pub sid (s.sps sid) (s.pps sid)) : Sets pub (seat copy s c fd sid granted) := by
  cases copy with
  | server => exact ⟨Or.inl sps, Or.inl pps⟩
  | agent =>
    simp only [seat, copyGlobalParamSets]
    constructor
    · dsimp only
      split
      · exact known.sps
      · exact Or.inl sps
    · dsimp only
      split
      · exact known.pps
      · exact Or.inl pps

theorem Sets.assemble {data : Bytes} (same : c.streamId = streamId)
    (sets : Sets (pub ++ [(streamId, data)]) c) (nonempty : data ≠ [])
    (may : c.needIdr → isIdr data) :
    Genuine (pub ++ [(streamId, data)]) streamId (assemble c data pub.length) where
  published := by simp [Tap.assemble]
  payload := nonempty
  startCode := rfl
  sps := by
    simp only [Tap.assemble]
    split
    · exact same ▸ sets.sps
    · exact Or.inl rfl
  pps := by
    simp only [Tap.assemble]
    split
    · exact same ▸ sets.pps
    · exact Or.inl rfl
  recovery := may
  plain := fun plain => by simp [Tap.assemble, show c.needIdr = false from plain]

end StreamRelay.Tap
