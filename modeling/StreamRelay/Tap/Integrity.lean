import StreamRelay.Tap.Isolation

/-! The bytes a subscriber receives are packets one after the other. With `g_drop_to_idr`
set, a packet that is cut short was given up by the stall rule, and the next one begins a
recovery. -/
namespace StreamRelay.Tap

/-- The packet starts anew behind one that was cut short. -/
def Recovers (packet : TapPacket) : Prop := packet.recovery ∧ isIdr packet.payload

/-- A connection's bytes as packets, with the number of bytes each was sent of. -/
structure Packets (pub : Publications) (k : Connection) (units : Wire.Line TapPacket) : Prop where
  wire : k.wire = Wire.bytes TapPacket.bytes units
  within : ∀ u ∈ units, 0 < u.2 ∧ u.2 ≤ u.1.bytes.length
  genuine : ∀ u ∈ units, ∃ streamId, Genuine pub streamId u.1
  once : units.Pairwise fun u v => u.1.number < v.1.number
  resumed : units.IsChain fun u v =>
    Wire.Whole TapPacket.bytes u ∨ (u.1 ∈ k.dropped ∧ Recovers v.1)

/-- The bytes of every connection are packets. As long as its client has a slot, the last of
them is all out, or is in the buffer, or was given up. -/
def Intact (s : State) : Prop :=
  ∀ fd < s.accepted, ∃ units, Packets s.published (s.connections fd) units ∧
    ∀ i, (s.clients i).active → (s.clients i).fd = some fd → ∀ u ∈ units.getLast?,
      Wire.Whole TapPacket.bytes u ∨
        ((s.clients i).out = some u.1 ∧ (s.clients i).outOff = u.2) ∨
        u.1 ∈ (s.connections fd).dropped

variable {copy : Copy} {config : Config} {late : Prop} {pub : Publications} {c : TapClient}
  {k : Connection}

/-- The record of a connection, whether its client is still there or not. -/
structure Recorded (pub : Publications) (k : Connection) : Prop where
  wire : k.wire = Wire.bytes TapPacket.bytes k.line
  genuine : ∀ packet ∈ k.line.frames, ∃ streamId, Genuine pub streamId packet
  once : k.line.frames.Pairwise fun p q => p.number < q.number
  orderly : Wire.Orderly TapPacket.bytes
    (Wire.Orderly.Resumes TapPacket.bytes (fun u => u.1 ∈ k.dropped) Recovers) k.line

theorem Recorded.later (entry : Nat × Bytes) (recorded : Recorded pub k) :
    Recorded (pub ++ [entry]) k where
  wire := recorded.wire
  genuine := fun packet member =>
    (recorded.genuine packet member).imp fun _ genuine => genuine.later entry
  once := recorded.once
  orderly := recorded.orderly

theorem mem_frames {u : TapPacket × Nat} {line : Wire.Line TapPacket} (member : u ∈ line) :
    u.1 ∈ line.frames := List.mem_map_of_mem member

theorem Recorded.packets (recorded : Recorded pub k) : Packets pub k k.line.sent := by
  have nonempty : ∀ u ∈ k.line, u.1.bytes ≠ [] := by
    intro u member
    obtain ⟨_, genuine⟩ := recorded.genuine u.1 (mem_frames member)
    exact genuine.nonempty
  have ordered := recorded.orderly.sent nonempty
  have inside (u : TapPacket × Nat) (member : u ∈ k.line.sent) : u ∈ k.line :=
    List.mem_of_mem_filter member
  refine ⟨?_, ?_, ?_, ?_, ordered.chain⟩
  · rw [Wire.bytes_sent]
    exact recorded.wire
  · intro u member
    exact ⟨by simpa [Wire.Line.sent] using (List.mem_filter.mp member).2, ordered.within u member⟩
  · intro u member
    exact recorded.genuine u.1 (mem_frames (inside u member))
  · have once : (k.line.sent.map Prod.fst).Pairwise fun p q => p.number < q.number :=
      recorded.once.sublist (Wire.frames_sent _)
    exact (List.pairwise_map (R := fun p q : TapPacket => p.number < q.number)).mp once

/-- A packet that is not in the buffer any more is all out or was given up. -/
def Settled (c : TapClient) (k : Connection) : Prop :=
  c.out = none → ∀ u ∈ k.line.getLast?,
    Wire.Whole TapPacket.bytes u ∨ (u.1 ∈ k.dropped ∧ c.needIdr)

structure Sound (pub : Publications) (c : TapClient) (k : Connection) : Prop where
  ledger : Ledger c k
  sets : Sets pub c
  recorded : Recorded pub k
  settled : Settled c k

/-- A vacant slot may hold a packet, none of which was sent. -/
structure Idle (pub : Publications) (c : TapClient) : Prop where
  tidy : c.Tidy
  start : c.outOff = 0
  sps : c.sps = []
  pps : c.pps = []
  genuine : ∀ packet, c.out = some packet → ∃ streamId, Genuine pub streamId packet

theorem Recorded.write (recorded : Recorded pub k) (ledger : Ledger c k) {count : Nat}
    (full : c.pending ≠ []) (within : count ≤ c.pending.length) :
    Recorded pub (k.write (c.pending.take count)) := by
  obtain ⟨packet, out⟩ := out_of_pending full
  have length : (c.pending.take count).length = count := by simp [within]
  refine ⟨(ledger.write_wire full within).1, ?_, ?_, ?_⟩
  · simpa [Connection.write] using recorded.genuine
  · simpa [Connection.write] using recorded.once
  · simp only [Connection.write, length]
    refine recorded.orderly.grow (ledger.last packet out) ?_
    rw [pending_of_out out, List.length_drop] at within
    have inside := recorded.orderly.within _ (List.mem_of_getLast? (ledger.last packet out))
    dsimp only at inside
    omega

theorem Sound.finished {next : TapClient} (sound : Sound pub c k) (full : c.pending ≠ [])
    (out : next.out = none) (sets : Sets pub next) : Sound pub next (k.write c.pending) := by
  refine ⟨sound.ledger.finished full out, sets, ?_, ?_⟩
  · rw [write_all]
    exact sound.recorded.write sound.ledger full (le_refl _)
  · intro _ u member
    obtain ⟨packet, loaded⟩ := out_of_pending full
    rw [sound.ledger.whole full loaded] at member
    obtain rfl := Option.some.inj member
    exact Or.inl rfl

theorem Sound.move {streamId : Nat} {data : Bytes} {next : TapClient × Connection}
    (drops : config.dropToIdr) (same : c.streamId = streamId) (nonempty : data ≠ [])
    (move : Move copy config data pub.length late (c, k) next)
    (sound : Sound (pub ++ [(streamId, data)]) c k) :
    Sound (pub ++ [(streamId, data)]) next.1 next.2 := by
  have ledger := sound.ledger.move nonempty move
  have sets := sound.sets.move same move
  obtain ⟨oldLedger, oldSets, recorded, settled⟩ := sound
  cases move with
  | sps => exact ⟨ledger, sets, recorded, settled⟩
  | pps => exact ⟨ledger, sets, recorded, settled⟩
  | @drop _ _ packet out =>
    refine ⟨ledger, sets, ⟨recorded.wire, recorded.genuine, recorded.once, ?_⟩, ?_⟩
    · exact recorded.orderly.mono fun u frame may w last =>
        (may w last).imp_right fun ⟨gone, recovers⟩ => ⟨List.mem_append_left _ gone, recovers⟩
    · intro _ u last
      rw [oldLedger.last packet out] at last
      obtain rfl := Option.some.inj last
      exact Or.inr ⟨by simp, by simp [drops]⟩
  | @write _ _ count short =>
    have full : c.pending ≠ [] := fun none => by simp [none] at short
    obtain ⟨packet, out⟩ := out_of_pending full
    refine ⟨ledger, sets, recorded.write oldLedger full short.le, ?_⟩
    intro empty
    rw [show c.out = none from empty] at out
    cases out
  | finish full =>
    exact Sound.finished ⟨oldLedger, oldSets, recorded, settled⟩ full (emptied_out copy c) sets
  | recover full =>
    exact Sound.finished ⟨oldLedger, oldSets, recorded, settled⟩ full (emptied_out copy c) sets
  | @load _ _ cap now empty may fresh =>
    refine ⟨ledger, sets, ⟨ledger.wire, ?_, ?_, ?_⟩, ?_⟩
    · intro packet member
      rw [Wire.frames_start] at member
      rcases List.mem_append.mp member with member | member
      · exact recorded.genuine packet member
      · obtain rfl := List.mem_singleton.mp member
        exact ⟨streamId, oldSets.assemble same nonempty may⟩
    · rw [Wire.frames_start]
      refine List.pairwise_append.mpr ⟨recorded.once, List.pairwise_singleton _ _, ?_⟩
      intro packet member other last
      obtain rfl := List.mem_singleton.mp last
      exact fresh packet member
    · refine recorded.orderly.start fun u last => (settled empty u last).imp_right ?_
      rintro ⟨gone, waits⟩
      exact ⟨gone, waits, may waits⟩
    · intro gone
      obtain ⟨-, out, -, -⟩ := pending_load copy {c with outCap := cap}
        (assemble c data pub.length) now
      rw [show (load copy {c with outCap := cap} (assemble c data pub.length) now).out = none
        from gone] at out
      cases out

theorem Idle.closed : Idle pub .closed :=
  ⟨Or.inl rfl, rfl, rfl, rfl, by simp [TapClient.closed]⟩

theorem reloaded_fields (copy : Copy) (data : Bytes) (number cap : Nat) (now : UInt64) :
    (TapClient.reloaded copy data number cap now).outOff = 0 ∧
      (TapClient.reloaded copy data number cap now).sps = [] ∧
      (TapClient.reloaded copy data number cap now).pps = [] ∧
      (TapClient.reloaded copy data number cap now).out = some (assemble .closed data number) ∧
      (TapClient.reloaded copy data number cap now).pending =
        (assemble .closed data number).bytes := by
  cases copy <;> exact ⟨rfl, rfl, rfl, rfl, rfl⟩

/-- The law of integrity, under `g_drop_to_idr`. -/
def integrity (copy : Copy) (config : Config) (drops : config.dropToIdr) :
    Law copy config True True where
  seated := Sound
  vacant := Idle
  ended := Recorded
  known := KnownSets
  tidy := fun sound => sound.ledger.tidy
  begun := by
    intro pub c idle packet out
    obtain ⟨_, genuine⟩ := idle.genuine packet out
    exact (List.getElem?_eq_some_iff.mp genuine.published).1
  parted := fun sound => sound.recorded
  seated_later := fun entry sound =>
    ⟨sound.ledger, sound.sets.later entry, sound.recorded.later entry, sound.settled⟩
  vacant_later := fun entry idle =>
    ⟨idle.tidy, idle.start, idle.sps, idle.pps, fun packet out =>
      (idle.genuine packet out).imp fun _ genuine => genuine.later entry⟩
  ended_later := fun entry recorded => recorded.later entry
  known_later := fun entry known => known.later entry
  known_none := fun streamId => KnownSets.none streamId
  learn_sps := fun seven known => known.learnSps seven
  learn_pps := fun eight known => known.learnPps eight
  zeroed := ⟨Or.inl rfl, rfl, rfl, rfl, by simp [TapClient.closed]⟩
  closed := fun _ => Idle.closed
  reloaded := by
    intro _ pub streamId data cap now nonempty
    obtain ⟨start, sps, pps, out, pending⟩ :=
      reloaded_fields copy data pub.length cap now
    refine ⟨Or.inr ?_, start, sps, pps, ?_⟩
    · rw [pending]
      exact assemble_nonempty _ nonempty _
    · intro packet same
      obtain rfl := Option.some.inj (out.symm.trans same)
      have sets : Sets (pub ++ [(streamId, data)]) {TapClient.closed with streamId := streamId} :=
        ⟨Or.inl rfl, Or.inl rfl⟩
      exact ⟨streamId, sets.assemble (c := {TapClient.closed with streamId := streamId}) rfl
        nonempty (by simp [TapClient.closed])⟩
  enter := by
    intro s c sid fd granted idle _ known
    have ledger := Ledger.enter copy s fd sid s.published.length granted idle.tidy idle.start
    refine ⟨ledger, Sets.enter idle.sps idle.pps known, ⟨ledger.wire, ?_, ?_, ?_⟩, ?_⟩
    · intro packet member
      exact idle.genuine packet (by simpa [Wire.Line.frames] using member)
    · cases c.out <;> simp [Wire.Line.frames]
    · cases c.out with
      | none => exact .nil
      | some packet => exact Wire.Orderly.nil.start (by simp [Wire.Orderly.Resumes])
    · intro out
      have none : c.out = none := by cases copy <;> exact out
      simp [none]
  move := fun _ same nonempty _ move sound => sound.move drops same nonempty move

/-- With `g_drop_to_idr` set, every run of either copy leaves all connections intact. -/
theorem run_intact (copy : Copy) (stallMs : UInt64) (inputs : List Input) :
    Intact (run copy ⟨stallMs, true⟩ inputs) := by
  have holds := (integrity copy ⟨stallMs, true⟩ rfl).run_holds inputs
    (fun past input rest _ => by cases input <;> simp [Allowed])
  intro fd below
  have recorded := holds.ended fd below
  refine ⟨_, recorded.packets, ?_⟩
  intro i active own u last
  obtain ⟨other, same, _, _, sound⟩ := holds.seated i active
  obtain rfl := Option.some.inj (same.symm.trans own)
  rcases recorded.orderly.sent_last u last with final | ⟨known, -⟩
  · cases out : ((run copy ⟨stallMs, true⟩ inputs).clients i).out with
    | none =>
      rcases sound.settled out u final with whole | dropped
      · exact Or.inl whole
      · exact Or.inr (Or.inr dropped.1)
    | some packet =>
      have pending := sound.ledger.last packet out
      obtain rfl := Option.some.inj (pending.symm.trans final)
      exact Or.inr (Or.inl ⟨rfl, rfl⟩)
  · exact known.imp_right Or.inr

end StreamRelay.Tap
