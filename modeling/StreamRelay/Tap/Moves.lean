import Mathlib.Logic.Relation
import StreamRelay.Tap.Slots

/-! What a publication can do to one subscriber and its connection, as single moves. A
publication is a sequence of them, after which the slot either keeps its client, is closed,
or is closed and nevertheless loaded with the packet. -/
namespace StreamRelay.Tap
open Relation

theorem sendLoop_spec (answers : List SendAnswer) :
    ∀ left, (sendLoop answers left).1 ≤ left ∧
      ((sendLoop answers left).2 = .all ↔ (sendLoop answers left).1 = left) := by
  induction answers with
  | nil =>
    intro left
    cases left <;> simp [sendLoop]
  | cons answer rest ih =>
    intro left
    cases left with
    | zero => simp [sendLoop]
    | succ left =>
    cases answer with
    | sent n =>
      cases n with
      | zero => simp [sendLoop]
      | succ n =>
        obtain ⟨within, ended⟩ := ih (left + 1 - min (n + 1) (left + 1))
        simp only [sendLoop]
        refine ⟨by omega, ended.trans ?_⟩
        omega
    | interrupted => simpa only [sendLoop] using ih (left + 1)
    | wouldBlock => simp [sendLoop]
    | failed => simp [sendLoop]

/-- The client when the publication comes to the bytes left over. -/
def leftOver (config : Config) (c : TapClient) (data : Bytes) (answers : ClientAnswers) : TapClient :=
  dropStalled config (maybeCacheParamSets c data answers.caches) answers.stallClock

/-- The sends of the bytes left over find the connection closed. -/
def LosesClient (config : Config) (c : TapClient) (data : Bytes) (answers : ClientAnswers) : Prop :=
  (leftOver config c data answers).pending ≠ [] ∧
    (sendLoop answers.flushes (leftOver config c data answers).pending.length).2 = .closed

/-- The sends of the bytes left over complete a packet of the recovery. -/
def CompletesLate (config : Config) (c : TapClient) (data : Bytes) (answers : ClientAnswers) : Prop :=
  (∃ packet, (leftOver config c data answers).out = some packet ∧ packet.recovery) ∧
    (leftOver config c data answers).pending ≠ [] ∧
    (sendLoop answers.flushes (leftOver config c data answers).pending.length).2 = .all

/-- A loaded buffer has bytes to send. -/
def TapClient.Tidy (c : TapClient) : Prop := c.out = none ∨ c.pending ≠ []

/-- A closed slot into which the publication goes on to put its packet. -/
def TapClient.reloaded (copy : Copy) (data : Bytes) (number cap : Nat) (now : UInt64) : TapClient :=
  load copy {TapClient.closed with outCap := cap} (assemble .closed data number) now

inductive Move (copy : Copy) (config : Config) (data : Bytes) (number : Nat) (late : Prop) :
    TapClient × Connection → TapClient × Connection → Prop
  | sps {c k} : firstNalType data = some 7 →
      Move copy config data number late (c, k) ({c with sps := data}, k)
  | pps {c k} : firstNalType data = some 8 →
      Move copy config data number late (c, k) ({c with pps := data}, k)
  | drop {c k packet} : c.out = some packet →
      Move copy config data number late (c, k)
        ({c with out := none, outOff := 0, outStartNs := 0,
                 needIdr := c.needIdr || config.dropToIdr},
          {k with dropped := k.dropped ++ [packet]})
  | write {c k count} : count < c.pending.length →
      Move copy config data number late (c, k)
        ({c with outOff := c.outOff + count}, k.write (c.pending.take count))
  | finish {c k} : c.pending ≠ [] →
      (copy = .server → ∀ packet, c.out = some packet → packet.recovery → late) →
      Move copy config data number late (c, k) (emptied copy c, k.write c.pending)
  | recover {c k} : c.pending ≠ [] → copy = .server → c.needIdr → isIdr data →
      Move copy config data number late (c, k)
        ({emptied copy c with needIdr := false}, k.write c.pending)
  | load {c k cap now} : c.out = none → (c.needIdr → isIdr data) →
      (∀ packet ∈ k.line.frames, packet.number < number) →
      Move copy config data number late (c, k)
        (load copy {c with outCap := cap} (assemble c data number) now,
          {k with line := k.line.start (assemble c data number)})

variable (copy : Copy) (config : Config) (data : Bytes) (number : Nat) (late : Prop)
  {c : TapClient} {k : Connection}

@[simp] theorem write_nil (k : Connection) : k.write [] = k := by simp [Connection.write]

theorem cache_moves (c : TapClient) (k : Connection) (granted : Bool) :
    ReflTransGen (Move copy config data number late) (c, k)
      (maybeCacheParamSets c data granted, k) := by
  unfold maybeCacheParamSets
  split
  · split
    · rename_i seven
      exact .single (.sps seven)
    · rename_i eight
      exact .single (.pps eight)
    · exact .refl
  · exact .refl

theorem cache_out (c : TapClient) (granted : Bool) :
    (maybeCacheParamSets c data granted).out = c.out ∧
      (maybeCacheParamSets c data granted).outOff = c.outOff ∧
      (maybeCacheParamSets c data granted).active = c.active := by
  unfold maybeCacheParamSets
  split
  · split <;> exact ⟨rfl, rfl, rfl⟩
  · exact ⟨rfl, rfl, rfl⟩

/-- How a flush of a loaded buffer ends. -/
theorem flush_cases (active : c.active) (answers : List SendAnswer) :
    (∃ took, took < c.pending.length ∧ (sendLoop answers c.pending.length).2 = .blocked ∧
      flushOutBuf copy c answers =
        ⟨{c with outOff := c.outOff + took}, c.pending.take took, false⟩) ∨
    ((sendLoop answers c.pending.length).2 = .all ∧
      flushOutBuf copy c answers = ⟨emptied copy c, c.pending, true⟩) ∨
    (∃ took, took < c.pending.length ∧ (sendLoop answers c.pending.length).2 = .closed ∧
      flushOutBuf copy c answers = ⟨.closed, c.pending.take took, true⟩) := by
  obtain ⟨within, ended⟩ := sendLoop_spec answers c.pending.length
  simp only [flushOutBuf, active, if_true]
  rcases loop : sendLoop answers c.pending.length with ⟨took, ending⟩
  rw [loop] at within ended
  cases ending with
  | all =>
    obtain rfl : took = c.pending.length := ended.mp rfl
    exact Or.inr (Or.inl ⟨rfl, by simp⟩)
  | blocked =>
    have short : took ≠ c.pending.length := fun same => by simpa using ended.mpr same
    exact Or.inl ⟨took, by dsimp only at within; omega, rfl, rfl⟩
  | closed =>
    have short : took ≠ c.pending.length := fun same => by simpa using ended.mpr same
    exact Or.inr (Or.inr ⟨took, by dsimp only at within; omega, rfl, rfl⟩)

theorem assemble_nonempty {data : Bytes} (c : TapClient) (nonempty : data ≠ []) (number : Nat) :
    (assemble c data number).bytes ≠ [] := by
  simp [TapPacket.bytes, assemble, nonempty]

theorem pending_load (c : TapClient) (packet : TapPacket) (now : UInt64) :
    (load copy c packet now).pending = packet.bytes ∧
      (load copy c packet now).out = some packet ∧
      (load copy c packet now).active = c.active ∧
      (load copy c packet now).needIdr = c.needIdr := by
  unfold load
  cases copy
  · exact ⟨rfl, rfl, rfl, rfl⟩
  · dsimp only
    split <;> exact ⟨rfl, rfl, rfl, rfl⟩

/-- Either there is room for the packet or memory was refused and nothing changed. -/
theorem ensureOutBuf_cases (c : TapClient) (need : Nat) (granted : Bool) :
    (∃ cap, need ≤ cap ∧ (need ≤ c.outCap ∨ granted) ∧
      ensureOutBuf c need granted = {c with outCap := cap}) ∨
      (c.outCap < need ∧ granted = false ∧ ensureOutBuf c need granted = c) := by
  unfold ensureOutBuf
  split
  · rename_i room
    exact Or.inl ⟨c.outCap, room, Or.inl room, rfl⟩
  · rename_i small
    split
    · rename_i grants
      refine Or.inl ⟨_, Capacity.grown_enough ?_, Or.inr grants, rfl⟩
      split <;> omega
    · rename_i refused
      exact Or.inr ⟨by omega, by simpa using refused, rfl⟩

/-- A publication either stops before a packet is loaded or loads and sends one. -/
theorem publishClient_cases (c : TapClient) (answers : ClientAnswers) :
    publishClient copy config c data number answers =
        ⟨(flushPending copy config c data answers).client,
          stalled config (maybeCacheParamSets c data answers.caches) answers.stallClock,
          flushPending copy config c data answers, none, []⟩ ∧
      ((flushPending copy config c data answers).cleared = false ∨
        ((flushPending copy config c data answers).client.needIdr ∧ isIdr data = false) ∨
        ((flushPending copy config c data answers).client.outCap <
            (assemble (flushPending copy config c data answers).client data number).bytes.length ∧
          answers.allocates = false)) ∨
    ∃ cap, (flushPending copy config c data answers).cleared ∧
      ((flushPending copy config c data answers).client.needIdr → isIdr data) ∧
      ((assemble (flushPending copy config c data answers).client data number).bytes.length ≤
          (flushPending copy config c data answers).client.outCap ∨ answers.allocates) ∧
      publishClient copy config c data number answers =
        let before := flushPending copy config c data answers
        let packet := assemble before.client data number
        let after := flushOutBuf copy
          (load copy {before.client with outCap := cap} packet answers.startClock) answers.sends
        ⟨settle copy after.client data,
          stalled config (maybeCacheParamSets c data answers.caches) answers.stallClock,
          before, some packet, after.wrote⟩ := by
  simp only [publishClient]
  by_cases cleared : (flushPending copy config c data answers).cleared
  · rw [cleared]
    simp only [Bool.not_true, Bool.false_eq_true, if_false]
    split
    · rename_i waits
      simp only [Bool.and_eq_true, Bool.not_eq_true'] at waits
      exact Or.inl ⟨rfl, Or.inr (Or.inl waits)⟩
    · rename_i may
      have may : (flushPending copy config c data answers).client.needIdr → isIdr data := by
        intro waits
        simpa [waits] using may
      rcases ensureOutBuf_cases (flushPending copy config c data answers).client
        (assemble (flushPending copy config c data answers).client data number).bytes.length
        answers.allocates with ⟨cap, room, grants, same⟩ | ⟨small, refused, same⟩
      · rw [same]
        refine Or.inr ⟨cap, trivial, may, grants, ?_⟩
        rw [if_neg (by simpa using room)]
      · rw [same, if_pos small]
        exact Or.inl ⟨rfl, Or.inr (Or.inr ⟨small, refused⟩)⟩
  · simp only [Bool.not_eq_true] at cleared
    rw [cleared]
    exact Or.inl ⟨rfl, Or.inl rfl⟩

/-- The moves of a flush, unless it finds the connection closed. -/
theorem flush_moves (active : c.active) (full : c.pending ≠ []) (answers : List SendAnswer)
    (may : (sendLoop answers c.pending.length).2 = .all → copy = .server →
      ∀ packet, c.out = some packet → packet.recovery → late) :
    ∃ left : TapClient, left.active ∧
      ReflTransGen (Move copy config data number late) (c, k)
        (left, k.write (flushOutBuf copy c answers).wrote) ∧
      ((flushOutBuf copy c answers).client = left ∨
        ((sendLoop answers c.pending.length).2 = .closed ∧
          (flushOutBuf copy c answers).client = .closed)) := by
  rcases flush_cases copy active answers with
    ⟨took, short, -, same⟩ | ⟨all, same⟩ | ⟨took, short, closed, same⟩
  · rw [same]
    exact ⟨{c with outOff := c.outOff + took}, active, .single (.write short), Or.inl rfl⟩
  · rw [same]
    refine ⟨_, ?_, .single (.finish full (may all)), Or.inl rfl⟩
    unfold emptied
    cases copy
    · exact active
    · dsimp only
      split <;> exact active
  · rw [same]
    exact ⟨{c with outOff := c.outOff + took}, active, .single (.write short),
      Or.inr ⟨closed, rfl⟩⟩

/-- The connection after the first half of a publication. -/
def Connection.flushed (k : Connection) (config : Config) (c : TapClient) (data : Bytes)
    (answers : ClientAnswers) (wrote : Bytes) : Connection :=
  (if stalled config (maybeCacheParamSets c data answers.caches) answers.stallClock then
    {k with dropped := k.dropped ++ c.out.toList} else k).write wrote

theorem flushed_frames (k : Connection) (c : TapClient) (answers : ClientAnswers) (wrote : Bytes) :
    (k.flushed config c data answers wrote).line.frames = k.line.frames := by
  unfold Connection.flushed Connection.write
  split <;> exact Wire.frames_grow _ _

theorem drop_moves (c : TapClient) (k : Connection) (now : UInt64) :
    ReflTransGen (Move copy config data number late) (c, k) (dropStalled config c now,
      if stalled config c now then {k with dropped := k.dropped ++ c.out.toList} else k) := by
  unfold dropStalled
  by_cases stall : stalled config c now
  · rw [if_pos stall, if_pos stall]
    cases out : c.out with
    | none => simp [stalled, TapClient.pending, out] at stall
    | some packet => exact .single (.drop out)
  · rw [if_neg stall, if_neg stall]

theorem dropStalled_active (c : TapClient) (now : UInt64) :
    (dropStalled config c now).active = c.active := by
  unfold dropStalled
  split <;> rfl

theorem leftOver_active (active : c.active) (answers : ClientAnswers) :
    (leftOver config c data answers).active := by
  rw [leftOver, dropStalled_active, (cache_out data c answers.caches).2.2]
  exact active

theorem leftOver_tidy (tidy : c.Tidy) (answers : ClientAnswers) :
    (leftOver config c data answers).Tidy := by
  obtain ⟨out, off, -⟩ := cache_out data c answers.caches
  unfold leftOver dropStalled
  split
  · exact Or.inl rfl
  · simpa only [TapClient.Tidy, TapClient.pending, out, off] using tidy

theorem flushPending_eq (c : TapClient) (answers : ClientAnswers) :
    flushPending copy config c data answers =
      if (leftOver config c data answers).pending = [] then
        ⟨leftOver config c data answers, [], true⟩
      else flushOutBuf copy (leftOver config c data answers) answers.flushes := rfl

/-- The moves of the first half. -/
theorem flushPending_moves (active : c.active) (k : Connection) (answers : ClientAnswers) :
    ∃ left : TapClient, left.active ∧
      ReflTransGen (Move copy config data number (CompletesLate config c data answers)) (c, k)
        (left, k.flushed config c data answers (flushPending copy config c data answers).wrote) ∧
      ((flushPending copy config c data answers).client = left ∨
        (LosesClient config c data answers ∧
          (flushPending copy config c data answers).client = .closed)) := by
  obtain ⟨out, -, -⟩ := cache_out data c answers.caches
  have start : ReflTransGen (Move copy config data number (CompletesLate config c data answers))
      (c, k) (leftOver config c data answers, k.flushed config c data answers []) := by
    refine (cache_moves copy config data number _ c k answers.caches).trans ?_
    have dropped := drop_moves copy config data number (CompletesLate config c data answers)
      (maybeCacheParamSets c data answers.caches) k answers.stallClock
    rw [out] at dropped
    simpa [Connection.flushed, leftOver] using dropped
  have alive := leftOver_active config data active answers
  rw [flushPending_eq]
  by_cases full : (leftOver config c data answers).pending = []
  · rw [if_pos full]
    exact ⟨_, alive, start, Or.inl rfl⟩
  · rw [if_neg full]
    obtain ⟨left, stays, moves, result⟩ := flush_moves copy config data number
      (CompletesLate config c data answers) (k := k.flushed config c data answers []) alive full
      answers.flushes
      (fun all _ packet loaded recovery => ⟨⟨packet, loaded, recovery⟩, full, all⟩)
    refine ⟨left, stays, ?_, ?_⟩
    · simpa [Connection.flushed] using start.trans moves
    · exact result.imp_right fun ⟨closed, gone⟩ => ⟨⟨full, closed⟩, gone⟩

theorem flushPending_cleared (tidy : c.Tidy) (active : c.active) (answers : ClientAnswers)
    (cleared : (flushPending copy config c data answers).cleared)
    (stays : (flushPending copy config c data answers).client.active) :
    (flushPending copy config c data answers).client.out = none := by
  rw [flushPending_eq] at cleared stays ⊢
  by_cases full : (leftOver config c data answers).pending = []
  · rw [if_pos full]
    exact (leftOver_tidy config data tidy answers).resolve_right (not_not_intro full)
  · rw [if_neg full] at cleared stays ⊢
    have alive := leftOver_active config data active answers
    rcases flush_cases copy alive answers.flushes with
      ⟨_, _, _, same⟩ | ⟨_, same⟩ | ⟨_, _, _, same⟩
    · simp [same] at cleared
    · rw [same]
      unfold emptied
      cases copy
      · rfl
      · dsimp only
        split <;> rfl
    · simp [same, TapClient.closed] at stays

/-- A loaded packet is sent, and the server's copy leaves the recovery if it is all out. -/
theorem loaded_moves (active : c.active) (may : c.needIdr → isIdr data) (cap : Nat) (now : UInt64)
    (nonempty : data ≠ []) (answers : List SendAnswer) :
    let loaded := load copy {c with outCap := cap} (assemble c data number) now
    ∃ left : TapClient, left.active ∧
      ReflTransGen (Move copy config data number late) (loaded, k)
        (left, k.write (flushOutBuf copy loaded answers).wrote) ∧
      (settle copy (flushOutBuf copy loaded answers).client data = left ∨
        settle copy (flushOutBuf copy loaded answers).client data = .closed) := by
  intro loaded
  obtain ⟨pending, out, live, waits⟩ :=
    pending_load copy {c with outCap := cap} (assemble c data number) now
  have full : loaded.pending ≠ [] := pending ▸ assemble_nonempty c nonempty number
  have alive : loaded.active := live.trans active
  rcases flush_cases copy alive answers with
    ⟨took, short, -, same⟩ | ⟨-, same⟩ | ⟨took, short, -, same⟩
  · rw [same]
    refine ⟨{loaded with outOff := loaded.outOff + took}, alive, .single (.write short), Or.inl ?_⟩
    cases copy
    · simp [settle, show loaded.out = _ from out]
    · rfl
  · rw [same]
    cases copy with
    | server =>
      by_cases recovers : c.needIdr
      · have waits : loaded.needIdr := waits.trans recovers
        refine ⟨{emptied .server loaded with needIdr := false}, alive,
          .single (.recover full rfl waits (may recovers)), Or.inl ?_⟩
        simp [settle, emptied, waits, may recovers]
      · have waits : loaded.needIdr = false := waits.trans (by simpa using recovers)
        refine ⟨emptied .server loaded, alive, .single (.finish full ?_), Or.inl ?_⟩
        · intro _ packet loads recovery
          obtain rfl : assemble c data number = packet := Option.some.inj (out.symm.trans loads)
          exact absurd recovery recovers
        · simp [settle, emptied, waits]
    | agent =>
      refine ⟨emptied .agent loaded, ?_, .single (.finish full (by simp)), Or.inl rfl⟩
      unfold emptied
      dsimp only
      split <;> exact alive
  · rw [same]
    refine ⟨{loaded with outOff := loaded.outOff + took}, alive, .single (.write short), Or.inr ?_⟩
    cases copy <;> rfl

theorem flushPending_loses (active : c.active) {answers : ClientAnswers}
    (loses : LosesClient config c data answers) :
    (flushPending copy config c data answers).client = .closed ∧
      (flushPending copy config c data answers).cleared := by
  obtain ⟨full, closed⟩ := loses
  rw [flushPending_eq, if_neg full]
  simp only [flushOutBuf, leftOver_active config data active answers, if_true]
  generalize sendLoop answers.flushes (leftOver config c data answers).pending.length = ends at closed
  obtain ⟨took, ending⟩ := ends
  dsimp only at closed
  subst closed
  exact ⟨rfl, rfl⟩

/-- Once the client is closed and memory is granted, the slot is loaded and left so. -/
theorem publishClient_reloads {answers : ClientAnswers}
    (gone : (flushPending copy config c data answers).client = .closed)
    (cleared : (flushPending copy config c data answers).cleared)
    (allocates : answers.allocates) :
    ∃ cap now, (publishClient copy config c data number answers).client =
      TapClient.reloaded copy data number cap now := by
  rcases publishClient_cases copy config data number c answers with
    ⟨-, stops⟩ | ⟨cap, -, -, -, same⟩
  · rcases stops with blocked | ⟨waits, -⟩ | ⟨-, refused⟩
    · simp [cleared] at blocked
    · simp [gone, TapClient.closed] at waits
    · simp [allocates] at refused
  · refine ⟨cap, answers.startClock, ?_⟩
    rw [same]
    dsimp only
    rw [gone]
    cases copy <;> rfl

/-- A publication to one client as a sequence of moves. Its slot keeps the client, or is
closed, or was closed by the flush of the bytes left over and is loaded all the same. -/
theorem publishClient_moves (active : c.active) (tidy : c.Tidy) (nonempty : data ≠ [])
    (k : Connection) (fresh : ∀ packet ∈ k.line.frames, packet.number < number)
    (answers : ClientAnswers) :
    ∃ left : TapClient, left.active ∧
      ReflTransGen (Move copy config data number (CompletesLate config c data answers)) (c, k)
        (left, k.serve c (publishClient copy config c data number answers)) ∧
      ((publishClient copy config c data number answers).client = left ∨
        (publishClient copy config c data number answers).client = .closed ∨
        (LosesClient config c data answers ∧ answers.allocates ∧
          ∃ cap now, (publishClient copy config c data number answers).client =
            TapClient.reloaded copy data number cap now)) := by
  obtain ⟨left, alive, moves, result⟩ :=
    flushPending_moves copy config data number active k answers
  rcases publishClient_cases copy config data number c answers with
    ⟨same, -⟩ | ⟨cap, cleared, may, grants, same⟩
  · refine ⟨left, alive, ?_, ?_⟩
    · rw [same]
      simpa [Connection.serve, Connection.flushed] using moves
    · rw [same]
      exact result.imp_right fun ⟨_, gone⟩ => Or.inl gone
  · rcases result with kept | ⟨loses, gone⟩
    · have stays : (flushPending copy config c data answers).client.active := kept ▸ alive
      have empty := flushPending_cleared copy config data tidy active answers cleared stays
      rw [kept] at may empty
      obtain ⟨final, lives, sends, ends⟩ := loaded_moves copy config data number
        (CompletesLate config c data answers)
        (k := {k.flushed config c data answers (flushPending copy config c data answers).wrote with
          line := (k.flushed config c data answers
            (flushPending copy config c data answers).wrote).line.start (assemble left data number)})
        alive may cap answers.startClock nonempty answers.sends
      refine ⟨final, lives, ?_, ?_⟩
      · rw [same]
        have begun : Move copy config data number (CompletesLate config c data answers)
            (left, k.flushed config c data answers (flushPending copy config c data answers).wrote)
            (load copy {left with outCap := cap} (assemble left data number) answers.startClock, _) :=
          .load empty may (by rwa [flushed_frames])
        have whole := (moves.tail begun).trans sends
        simpa [Connection.serve, Connection.flushed, kept, alive] using whole
      · rw [same]
        dsimp only
        rw [kept]
        exact ends.imp_right Or.inl
    · refine ⟨left, alive, ?_, Or.inr (Or.inr ⟨loses, ?_, cap, answers.startClock, ?_⟩)⟩
      · rw [same]
        simpa [Connection.serve, Connection.flushed, gone, TapClient.closed, flushOutBuf,
          pending_load] using moves
      · rcases grants with room | grants
        · rw [gone] at room
          exact absurd (List.length_eq_zero_iff.mp (Nat.le_zero.mp room))
            (assemble_nonempty _ nonempty number)
        · exact grants
      · rw [same]
        dsimp only
        rw [gone]
        cases copy <;> rfl

end StreamRelay.Tap
