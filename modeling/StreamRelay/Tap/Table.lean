import StreamRelay.Tap.Moves

/-! The induction rule for the table of subscribers. A law says what holds between a seated
client and its connection, of a vacant slot, of every connection that ever was and of the
parameter sets kept for a stream; what the moves keep of it holds in every state reached. -/
namespace StreamRelay.Tap
open Relation

abbrev Publications := List (Nat × Bytes)

/-- `late` says whether bytes left over may complete a packet of the recovery in the server's
copy, `leaks` whether a slot may be loaded after it was closed. -/
structure Law (copy : Copy) (config : Config) (late leaks : Prop) where
  seated : Publications → TapClient → Connection → Prop
  vacant : Publications → TapClient → Prop
  ended : Publications → Connection → Prop
  known : Publications → Nat → Bytes → Bytes → Prop
  tidy : ∀ {pub c k}, seated pub c k → c.Tidy
  begun : ∀ {pub c}, vacant pub c → ∀ packet, c.out = some packet → packet.number < pub.length
  parted : ∀ {pub c k}, seated pub c k → ended pub k
  seated_later : ∀ {pub c k} entry, seated pub c k → seated (pub ++ [entry]) c k
  vacant_later : ∀ {pub c} entry, vacant pub c → vacant (pub ++ [entry]) c
  ended_later : ∀ {pub k} entry, ended pub k → ended (pub ++ [entry]) k
  known_later : ∀ {pub streamId sps pps} entry, known pub streamId sps pps →
    known (pub ++ [entry]) streamId sps pps
  known_none : ∀ streamId, known [] streamId [] []
  learn_sps : ∀ {pub streamId sps pps data}, firstNalType data = some 7 →
    known (pub ++ [(streamId, data)]) streamId sps pps →
    known (pub ++ [(streamId, data)]) streamId data pps
  learn_pps : ∀ {pub streamId sps pps data}, firstNalType data = some 8 →
    known (pub ++ [(streamId, data)]) streamId sps pps →
    known (pub ++ [(streamId, data)]) streamId sps data
  zeroed : vacant [] {TapClient.closed with fd := some 0}
  closed : ∀ pub, vacant pub .closed
  reloaded : leaks → ∀ pub streamId data cap now, data ≠ [] →
    vacant (pub ++ [(streamId, data)]) (TapClient.reloaded copy data pub.length cap now)
  enter : ∀ {s : State} {c sid} fd granted, vacant s.published c → c.active = false →
    known s.published sid (s.sps sid) (s.pps sid) →
    seated s.published (seat copy s c fd sid granted)
      ⟨sid, s.published.length, c.out.toList.map (·, 0), [], []⟩
  move : ∀ {pub streamId data c k next}, c.active → c.streamId = streamId → data ≠ [] →
    k.since ≤ pub.length →
    Move copy config data pub.length late (c, k) next →
    seated (pub ++ [(streamId, data)]) c k → seated (pub ++ [(streamId, data)]) next.1 next.2

/-- The step comes upon neither of the two where it may not. -/
def Allowed (copy : Copy) (config : Config) (late leaks : Prop) (s : State) : Input → Prop
  | .accept .. => True
  | .publish streamId data _ answers => data ≠ [] → ∀ i < copy.slots, (s.clients i).active →
      (s.clients i).streamId = streamId →
      (CompletesLate config (s.clients i) data (answers i) → late) ∧
        (LosesClient config (s.clients i) data (answers i) → (answers i).allocates → leaks)

variable {copy : Copy} {config : Config} {late leaks : Prop}

theorem Move.frame {data : Bytes} {number : Nat} {before after : TapClient × Connection}
    (move : Move copy config data number late before after) :
    after.1.active = before.1.active ∧ after.1.streamId = before.1.streamId ∧
      after.1.fd = before.1.fd ∧ after.2.since = before.2.since := by
  have empty (c : TapClient) : (emptied copy c).active = c.active ∧
      (emptied copy c).streamId = c.streamId ∧ (emptied copy c).fd = c.fd := by
    unfold emptied
    cases copy
    · exact ⟨rfl, rfl, rfl⟩
    · dsimp only
      split <;> exact ⟨rfl, rfl, rfl⟩
  cases move with
  | sps | pps | drop | write => exact ⟨rfl, rfl, rfl, rfl⟩
  | finish | recover =>
    obtain ⟨active, streamId, fd⟩ := empty _
    exact ⟨active, streamId, fd, rfl⟩
  | load =>
    unfold Tap.load
    cases copy
    · exact ⟨rfl, rfl, rfl, rfl⟩
    · dsimp only
      split <;> exact ⟨rfl, rfl, rfl, rfl⟩

theorem Move.mono {data : Bytes} {number : Nat} {before after : TapClient × Connection}
    {narrow wide : Prop} (widens : narrow → wide)
    (move : Move copy config data number narrow before after) :
    Move copy config data number wide before after := by
  cases move with
  | sps seven => exact .sps seven
  | pps eight => exact .pps eight
  | drop out => exact .drop out
  | write short => exact .write short
  | finish full may =>
    exact .finish full fun server packet out recovery => widens (may server packet out recovery)
  | recover full server waits idr => exact .recover full server waits idr
  | load empty may fresh => exact .load empty may fresh

/-- The packets on the record after a move: what was there, or one more. -/
theorem frames_move {data : Bytes} {number : Nat} {c : TapClient} {k : Connection}
    {next : TapClient × Connection} (move : Move copy config data number late (c, k) next) :
    next.2.line.frames = k.line.frames ∨
      (next.2.line.frames = k.line.frames ++ [assemble c data number] ∧
        (c.needIdr → isIdr data) ∧ ∀ packet ∈ k.line.frames, packet.number < number) := by
  cases move with
  | sps | pps | drop => exact Or.inl rfl
  | write | finish | recover => exact Or.inl (Wire.frames_grow _ _)
  | load _ may fresh => exact Or.inr ⟨Wire.frames_start _ _, may, fresh⟩

/-- The connection and all packets on its record are older than the publication. -/
structure Connection.Before (k : Connection) (number : Nat) : Prop where
  since : k.since ≤ number
  frames : ∀ packet ∈ k.line.frames, packet.number < number

theorem Connection.Before.later {k : Connection} {number : Nat} (before : k.Before number) :
    k.Before (number + 1) :=
  ⟨Nat.le_succ_of_le before.since,
    fun packet member => Nat.lt_succ_of_lt (before.frames packet member)⟩

theorem Connection.Before.move {data : Bytes} {number : Nat} {c : TapClient} {k : Connection}
    {next : TapClient × Connection} (before : k.Before (number + 1))
    (move : Move copy config data number late (c, k) next) : next.2.Before (number + 1) := by
  obtain ⟨-, -, -, began⟩ := move.frame
  refine ⟨began.trans_le before.since, ?_⟩
  rcases frames_move move with same | ⟨more, -, -⟩
  · rw [same]
    exact before.frames
  · rw [more]
    intro packet member
    rcases List.mem_append.mp member with member | member
    · exact before.frames packet member
    · obtain rfl := List.mem_singleton.mp member
      exact Nat.lt_succ_self number

namespace Law
variable (law : Law copy config late leaks)

structure Holds (s : State) : Prop where
  seated : ∀ i, (s.clients i).active → ∃ fd, (s.clients i).fd = some fd ∧ fd < s.accepted ∧
    (s.connections fd).Before s.published.length ∧
    law.seated s.published (s.clients i) (s.connections fd)
  vacant : ∀ i, (s.clients i).active = false → law.vacant s.published (s.clients i)
  distinct : ∀ i j, (s.clients i).active → (s.clients j).active →
    (s.clients i).fd = (s.clients j).fd → i = j
  ended : ∀ fd < s.accepted, law.ended s.published (s.connections fd)
  known : ∀ streamId, law.known s.published streamId (s.sps streamId) (s.pps streamId)

variable {law} {s : State}

theorem Holds.initial : law.Holds .initial where
  seated := by simp [State.initial, TapClient.closed]
  vacant := fun _ _ => law.zeroed
  distinct := by simp [State.initial, TapClient.closed]
  ended := by simp [State.initial]
  known := law.known_none

theorem Holds.prune (holds : law.Holds s) (peeks : Nat → Peek) :
    law.Holds {s with clients := pruneDeadClients copy s.clients peeks} := by
  have kept (i : Nat) (active : (pruneDeadClients copy s.clients peeks i).active) :
      pruneDeadClients copy s.clients peeks i = s.clients i := by
    unfold pruneDeadClients at active ⊢
    split
    · rename_i dead
      simp [dead, TapClient.closed] at active
    · rfl
  constructor
  · intro i active
    have same := kept i active
    dsimp only at active ⊢
    rw [same] at active ⊢
    exact holds.seated i active
  · intro i inactive
    dsimp only at inactive ⊢
    unfold pruneDeadClients at inactive ⊢
    split
    · exact law.closed _
    · rename_i alive
      rw [if_neg alive] at inactive
      exact holds.vacant i inactive
  · intro i j active other same
    have left := kept i active
    have right := kept j other
    dsimp only at active other same
    rw [left] at active same
    rw [right] at other same
    exact holds.distinct i j active other same
  · exact holds.ended
  · exact holds.known

theorem seat_fields (copy : Copy) (s : State) (c : TapClient) (fd sid : Nat) (granted : Bool × Bool) :
    (seat copy s c fd sid granted).active ∧ (seat copy s c fd sid granted).fd = some fd := by
  cases copy <;> exact ⟨rfl, rfl⟩

/-- The connections stay distinct if nobody else has the new client's. -/
theorem distinct_update {clients : Nat → TapClient} {i : Nat} {client : TapClient}
    (distinct : ∀ j l, (clients j).active → (clients l).active →
      (clients j).fd = (clients l).fd → j = l)
    (apart : client.active → ∀ j, j ≠ i → (clients j).active → (clients j).fd ≠ client.fd)
    (j l : Nat) (active : (Function.update clients i client j).active)
    (other : (Function.update clients i client l).active)
    (same : (Function.update clients i client j).fd = (Function.update clients i client l).fd) :
    j = l := by
  by_cases here : j = i <;> by_cases there : l = i
  · exact here.trans there.symm
  · subst here
    simp only [Function.update_self, Function.update_of_ne there] at active other same
    exact absurd same.symm (apart active l there other)
  · subst there
    simp only [Function.update_self, Function.update_of_ne here] at active other same
    exact absurd same (apart other j here active)
  · simp only [Function.update_of_ne here, Function.update_of_ne there] at active other same
    exact distinct j l active other same

theorem Holds.placed (holds : law.Holds s) {i : Nat} (free : (s.clients i).active = false)
    (sid : Nat) (granted : Bool × Bool) : law.Holds (s.placed copy i sid granted) := by
  have entered := law.enter s.accepted granted (holds.vacant i free) free (holds.known sid)
  obtain ⟨-, fd⟩ := seat_fields copy s (s.clients i) s.accepted sid granted
  have elsewhere (j : Nat) (active : (s.clients j).active) (taken : Nat)
      (same : (s.clients j).fd = some taken) : taken < s.accepted := by
    obtain ⟨own, fd, below, -⟩ := holds.seated j active
    obtain rfl : own = taken := Option.some.inj (fd.symm.trans same)
    exact below
  constructor
  · intro j active
    by_cases here : j = i
    · subst here
      refine ⟨s.accepted, ?_, Nat.lt_succ_self _, ?_, ?_⟩
      · simpa [State.placed] using fd
      · refine ⟨by simp [State.placed], ?_⟩
        simpa [State.placed, Wire.Line.frames] using law.begun (holds.vacant j free)
      · simpa [State.placed] using entered
    · have active : (s.clients j).active := by simpa [State.placed, here] using active
      obtain ⟨own, same, below, since, seated⟩ := holds.seated j active
      refine ⟨own, ?_, Nat.lt_succ_of_lt below, ?_, ?_⟩
      · simpa [State.placed, here] using same
      · simpa [State.placed, Nat.ne_of_lt below] using since
      · simpa [State.placed, here, Nat.ne_of_lt below] using seated
  · intro j inactive
    by_cases here : j = i
    · subst here
      simp [State.placed, seat_fields] at inactive
    · simpa [State.placed, here] using holds.vacant j (by simpa [State.placed, here] using inactive)
  · apply distinct_update holds.distinct
    intro _ j _ active same
    exact absurd (elsewhere j active _ (same.trans fd)) (Nat.lt_irrefl _)
  · intro fd below
    by_cases new : fd = s.accepted
    · subst new
      simpa [State.placed] using law.parted entered
    · have below : fd < s.accepted := by simp only [State.placed] at below; omega
      simpa [State.placed, new] using holds.ended fd below
  · exact holds.known

theorem freeSlot_inactive {clients : Nat → TapClient} {i : Nat}
    (found : freeSlot copy clients = some i) : (clients i).active = false := by
  simpa using List.find?_some found

theorem Holds.accept (holds : law.Holds s) (named : Option Int) (peeks again : Nat → Peek)
    (granted : Bool × Bool) : law.Holds (accept copy s named peeks again granted) := by
  unfold Tap.accept
  split
  · exact holds
  · dsimp only
    split
    · rename_i i found
      exact (holds.prune peeks).placed (freeSlot_inactive found) _ granted
    · split
      · rename_i i found
        exact ((holds.prune peeks).prune again).placed (freeSlot_inactive found) _ granted
      · exact (holds.prune peeks).prune again

theorem moves_kept {pub : Publications} {streamId : Nat} {data : Bytes} {c : TapClient}
    {k : Connection} {next : TapClient × Connection} {narrow : Prop} (widens : narrow → late)
    (active : c.active) (same : c.streamId = streamId) (nonempty : data ≠ [])
    (before : k.Before pub.length)
    (moves : ReflTransGen (Move copy config data pub.length narrow) (c, k) next)
    (seated : law.seated (pub ++ [(streamId, data)]) c k) :
    next.1.active ∧ next.1.streamId = streamId ∧ next.1.fd = c.fd ∧ next.2.since = k.since ∧
      next.2.Before (pub.length + 1) ∧ law.seated (pub ++ [(streamId, data)]) next.1 next.2 := by
  induction moves with
  | refl => exact ⟨active, same, rfl, rfl, before.later, seated⟩
  | tail _ move ih =>
    obtain ⟨active, same, fd, began, later, seated⟩ := ih
    obtain ⟨live, stream, own, kept⟩ := move.frame
    exact ⟨live.trans active, stream.trans same, own.trans fd, kept.trans began,
      later.move move,
      law.move active same nonempty (began.trans_le before.since) (move.mono widens) seated⟩

/-- A seated client is replaced, by one that stays on its connection or by a vacant slot. -/
theorem Holds.replace (holds : law.Holds s) {i fd : Nat} (active : (s.clients i).active)
    (own : (s.clients i).fd = some fd) {client : TapClient} {k : Connection}
    (parted : law.ended s.published k)
    (before : k.Before s.published.length)
    (either : client.active ∧ client.fd = some fd ∧ law.seated s.published client k ∨
      client.active = false ∧ law.vacant s.published client) :
    law.Holds {s with
      clients := Function.update s.clients i client
      connections := Function.update s.connections fd k} := by
  have apart (j : Nat) (there : j ≠ i) (live : (s.clients j).active) {other : Nat}
      (same : (s.clients j).fd = some other) : other ≠ fd := by
    rintro rfl
    exact there (holds.distinct j i live active (same.trans own.symm))
  have stays (live : client.active) :
      client.fd = some fd ∧ law.seated s.published client k := by
    rcases either with ⟨-, fd, seated⟩ | ⟨dead, -⟩
    · exact ⟨fd, seated⟩
    · simp [dead] at live
  constructor
  · intro j live
    by_cases here : j = i
    · subst here
      obtain ⟨_, same, below, -⟩ := holds.seated j active
      obtain rfl := Option.some.inj (own.symm.trans same)
      simp only [Function.update_self] at live ⊢
      obtain ⟨fd, seated⟩ := stays live
      exact ⟨_, fd, below, by simpa using before, by simpa using seated⟩
    · simp only [Function.update_of_ne here] at live ⊢
      obtain ⟨other, same, below, began, seated⟩ := holds.seated j live
      refine ⟨other, same, below, ?_⟩
      rw [Function.update_of_ne (apart j here live same)]
      exact ⟨began, seated⟩
  · intro j dead
    by_cases here : j = i
    · subst here
      simp only [Function.update_self] at dead ⊢
      rcases either with ⟨live, -⟩ | ⟨-, vacant⟩
      · simp [dead] at live
      · exact vacant
    · simp only [Function.update_of_ne here] at dead ⊢
      exact holds.vacant j dead
  · apply distinct_update holds.distinct
    intro live j there active same
    exact apart j there active (same.trans (stays live).1) rfl
  · intro other below
    by_cases here : other = fd
    · subst here
      simpa using parted
    · simpa [here] using holds.ended other below
  · exact holds.known

theorem Holds.publishSlot {streamId : Nat} {data : Bytes} {past : Publications}
    (holds : law.Holds s) (published : s.published = past ++ [(streamId, data)])
    (nonempty : data ≠ []) (answers : Nat → ClientAnswers) (i : Nat)
    (early : (s.clients i).active → ∀ fd, (s.clients i).fd = some fd →
      (s.connections fd).Before past.length)
    (may : (s.clients i).active → (s.clients i).streamId = streamId →
      (CompletesLate config (s.clients i) data (answers i) → late) ∧
        (LosesClient config (s.clients i) data (answers i) → (answers i).allocates → leaks)) :
    law.Holds (publishSlot copy config streamId data past.length answers s i) := by
  unfold Tap.publishSlot
  dsimp only
  split
  · rename_i subscribed
    obtain ⟨active, same⟩ := subscribed
    obtain ⟨fd, own, below, since, seated⟩ := holds.seated i active
    obtain ⟨mayLate, mayLeak⟩ := may active same
    obtain ⟨left, -, moves, result⟩ := publishClient_moves copy config data past.length
      active (law.tidy seated) nonempty (s.connections fd)
      (early active fd own).frames (answers i)
    rw [published] at seated
    obtain ⟨lives, -, stays, -, later, kept⟩ :=
      moves_kept mayLate active same nonempty (early active fd own) moves seated
    rw [← published] at kept
    rw [own]
    refine holds.replace active own (law.parted kept) (by simpa [published] using later) ?_
    rcases result with result | result | ⟨loses, allocates, cap, now, result⟩
    · rw [result]
      exact Or.inl ⟨lives, stays.trans own, kept⟩
    · rw [result]
      exact Or.inr ⟨rfl, law.closed _⟩
    · rw [result, published]
      refine Or.inr ⟨?_, law.reloaded (mayLeak loses allocates) past streamId data cap now nonempty⟩
      cases copy <;> rfl
  · exact holds

theorem publishSlot_other (copy : Copy) (config : Config) (streamId : Nat) (data : Bytes)
    (number : Nat) (answers : Nat → ClientAnswers) (s : State) {i j : Nat} (there : j ≠ i) :
    (Tap.publishSlot copy config streamId data number answers s i).clients j = s.clients j := by
  unfold Tap.publishSlot
  dsimp only
  split
  · exact Function.update_of_ne there _ _
  · rfl

theorem publishSlot_published {streamId number : Nat} {data : Bytes}
    (answers : Nat → ClientAnswers) (s : State) (i : Nat) :
    (Tap.publishSlot copy config streamId data number answers s i).published = s.published := by
  unfold Tap.publishSlot
  dsimp only
  split <;> rfl

theorem publishSlot_connection {streamId number : Nat} {data : Bytes}
    (answers : Nat → ClientAnswers) (s : State) (i fd : Nat) (other : (s.clients i).fd ≠ some fd) :
    (Tap.publishSlot copy config streamId data number answers s i).connections fd =
      s.connections fd := by
  unfold Tap.publishSlot
  dsimp only
  split
  · dsimp only
    cases own : (s.clients i).fd with
    | none => rfl
    | some taken =>
      have apart : fd ≠ taken := by
        rintro rfl
        exact other own
      exact Function.update_of_ne apart _ _
  · rfl

theorem publishSlot_inactive {streamId number : Nat} {data : Bytes}
    (answers : Nat → ClientAnswers) (s : State) (i : Nat) (dead : (s.clients i).active = false) :
    Tap.publishSlot copy config streamId data number answers s i = s := by
  simp [Tap.publishSlot, dead]

theorem Holds.publishSlots {streamId : Nat} {data : Bytes} {past : Publications}
    (nonempty : data ≠ []) (answers : Nat → ClientAnswers) (slots : List Nat) :
    ∀ {s : State}, law.Holds s → s.published = past ++ [(streamId, data)] → slots.Nodup →
    (∀ i ∈ slots, (s.clients i).active → ∀ fd, (s.clients i).fd = some fd →
      (s.connections fd).Before past.length) →
    (∀ i ∈ slots, (s.clients i).active → (s.clients i).streamId = streamId →
      (CompletesLate config (s.clients i) data (answers i) → late) ∧
        (LosesClient config (s.clients i) data (answers i) → (answers i).allocates → leaks)) →
    law.Holds (slots.foldl (Tap.publishSlot copy config streamId data past.length answers) s) := by
  induction slots with
  | nil => exact fun holds _ _ _ _ => holds
  | cons i slots ih =>
    intro s holds published distinct early may
    obtain ⟨fresh, distinct⟩ := List.nodup_cons.mp distinct
    have elsewhere (j : Nat) (member : j ∈ slots) : j ≠ i := by
      rintro rfl
      exact fresh member
    refine ih (holds.publishSlot published nonempty answers i (early i List.mem_cons_self)
      (may i List.mem_cons_self)) ?_ distinct ?_ ?_
    · rw [publishSlot_published, published]
    · intro j member
      rw [publishSlot_other _ _ _ _ _ answers s (elsewhere j member)]
      intro active fd own
      have before := early j (List.mem_cons_of_mem _ member) active fd own
      cases live : (s.clients i).active with
      | false => rwa [publishSlot_inactive answers s i live]
      | true =>
        rwa [publishSlot_connection answers s i fd]
        intro shared
        exact elsewhere j member (holds.distinct j i active live (own.trans shared.symm))
    · intro j member
      rw [publishSlot_other _ _ _ _ _ answers s (elsewhere j member)]
      exact may j (List.mem_cons_of_mem _ member)

theorem Holds.publish (holds : law.Holds s) (streamId : Nat) (data : Bytes) (granted : Bool)
    (answers : Nat → ClientAnswers)
    (may : Allowed copy config late leaks s (.publish streamId data granted answers)) :
    law.Holds (publish copy config s streamId data granted answers) := by
  unfold Tap.publish
  split
  · exact holds
  · rename_i nonempty
    have later : law.Holds {s with published := s.published ++ [(streamId, data)]} :=
      { seated := fun i active => by
          obtain ⟨fd, own, below, since, seated⟩ := holds.seated i active
          exact ⟨fd, own, below, by simpa using since.later,
            law.seated_later _ seated⟩
        vacant := fun i dead => law.vacant_later _ (holds.vacant i dead)
        distinct := holds.distinct
        ended := fun fd below => law.ended_later _ (holds.ended fd below)
        known := fun streamId => law.known_later _ (holds.known streamId) }
    have learned : law.Holds (updateGlobalParamSets copy
        {s with published := s.published ++ [(streamId, data)]} streamId data granted) ∧
        (updateGlobalParamSets copy {s with published := s.published ++ [(streamId, data)]}
          streamId data granted).clients = s.clients ∧
        (updateGlobalParamSets copy {s with published := s.published ++ [(streamId, data)]}
          streamId data granted).published = s.published ++ [(streamId, data)] ∧
        (updateGlobalParamSets copy {s with published := s.published ++ [(streamId, data)]}
          streamId data granted).connections = s.connections := by
      unfold updateGlobalParamSets
      cases copy with
      | server => exact ⟨later, rfl, rfl, rfl⟩
      | agent =>
        dsimp only
        split
        · split
          · rename_i seven
            refine ⟨⟨later.seated, later.vacant, later.distinct, later.ended, ?_⟩, rfl, rfl, rfl⟩
            intro other
            by_cases same : other = streamId
            · subst same
              simpa using law.learn_sps seven (later.known other)
            · simpa [same] using later.known other
          · rename_i eight
            refine ⟨⟨later.seated, later.vacant, later.distinct, later.ended, ?_⟩, rfl, rfl, rfl⟩
            intro other
            by_cases same : other = streamId
            · subst same
              simpa using law.learn_pps eight (later.known other)
            · simpa [same] using later.known other
          · exact ⟨later, rfl, rfl, rfl⟩
        · exact ⟨later, rfl, rfl, rfl⟩
    obtain ⟨learned, clients, published, connections⟩ := learned
    refine Holds.publishSlots nonempty answers (List.range copy.slots) learned published
      List.nodup_range ?_ ?_
    · intro i _ active fd own
      rw [clients] at active own
      obtain ⟨other, same, -, since, -⟩ := holds.seated i active
      obtain rfl := Option.some.inj (same.symm.trans own)
      rw [connections]
      exact since
    · intro i member active same
      rw [clients] at active same ⊢
      exact may nonempty i (List.mem_range.mp member) active same

/-- What the moves keep holds in every state reached. -/
theorem run_holds (law : Law copy config late leaks) (inputs : List Input)
    (always : Run.Always (step copy config) .initial (Allowed copy config late leaks) inputs) :
    law.Holds (run copy config inputs) := by
  refine Run.history_while (step copy config) .initial _ (fun _ => law.Holds) Holds.initial ?_
    inputs always
  intro _ input holds may
  cases input with
  | accept named peeks again granted => exact holds.accept named peeks again granted
  | publish streamId data granted answers =>
    exact holds.publish streamId data granted answers may

end Law
end StreamRelay.Tap
