import StreamRelay.Tap.Recovery

/-! The two copies side by side. From the same state of a client and under the same outcomes
they send the same, as long as the server's copy completes no packet of a recovery late. -/
namespace StreamRelay.Tap
open Relation

/-- A client of the agent without the flag that the server's copy lacks. -/
def TapClient.twin (c : TapClient) : TapClient := {c with pendingIdr := false}

structure Offer where
  data : Bytes
  number : Nat
  answers : ClientAnswers

/-- What one publication sent: of the bytes left over, the packet begun, and of that packet. -/
abbrev Sent := Bytes × Option TapPacket × Bytes

def Served.sent (served : Served) : Sent := (served.before.wrote, served.packet, served.wrote)

/-- The publications offered to one client until its connection is closed. -/
def offered (copy : Copy) (config : Config) : TapClient → List Offer → List Sent
  | _, [] => []
  | c, offer :: rest =>
    if c.active ∧ offer.data ≠ [] then
      let served := publishClient copy config c offer.data offer.number offer.answers
      served.sent :: offered copy config served.client rest
    else offered copy config c rest

/-- The server's copy completes no packet of a recovery late. -/
def Timely (config : Config) : TapClient → List Offer → Prop
  | _, [] => True
  | c, offer :: rest =>
    if c.active ∧ offer.data ≠ [] then
      ¬ CompletesLate config c offer.data offer.answers ∧
        Timely config (publishClient .server config c offer.data offer.number offer.answers).client rest
    else Timely config c rest

variable {config : Config} {data : Bytes} {number : Nat} {c : TapClient} {answers : ClientAnswers}

theorem leftOver_twin :
    leftOver config c.twin data answers = (leftOver config c data answers).twin := by
  have cache : maybeCacheParamSets c.twin data answers.caches =
      (maybeCacheParamSets c data answers.caches).twin := by
    unfold maybeCacheParamSets
    split
    · split <;> rfl
    · rfl
  unfold leftOver
  rw [cache]
  unfold dropStalled
  split
  · rename_i stall
    exact (if_pos stall).symm ▸ rfl
  · rename_i still
    exact (if_neg still).symm ▸ rfl

theorem marked_moves {copy : Copy} {late : Prop} {before after : TapClient × Connection}
    (moves : ReflTransGen (Move copy config data number late) before after)
    (marked : Marked copy before.1) : Marked copy after.1 := by
  induction moves with
  | refl => exact marked
  | tail _ move ih => exact ih.move move

theorem tidy_moves {copy : Copy} {late : Prop} {before after : TapClient × Connection}
    (nonempty : data ≠ []) (moves : ReflTransGen (Move copy config data number late) before after)
    (tidy : before.1.Tidy) : after.1.Tidy := by
  induction moves with
  | refl => exact tidy
  | tail _ move ih => exact ih.move nonempty move

theorem leftOver_marked (config : Config) (data : Bytes) (marked : Marked .agent c)
    (answers : ClientAnswers) :
    Marked .agent (leftOver config c data answers) := by
  have k : Connection := ⟨0, 0, [], [], []⟩
  have cached := cache_moves .agent config data 0 True c k answers.caches
  exact marked_moves (cached.trans (drop_moves .agent config data 0 True _ k answers.stallClock))
    marked

/-- The flushes agree, if they agree on what an empty buffer means. -/
theorem flushOutBuf_twin (sends : List SendAnswer)
    (same : c.active → (sendLoop sends c.pending.length).2 = .all →
      emptied .server c.twin = (emptied .agent c).twin) :
    flushOutBuf .server c.twin sends =
      ⟨(flushOutBuf .agent c sends).client.twin, (flushOutBuf .agent c sends).wrote,
        (flushOutBuf .agent c sends).cleared⟩ := by
  have pending : c.twin.pending = c.pending := rfl
  have active : c.twin.active = c.active := rfl
  simp only [flushOutBuf, pending, active]
  split
  · rename_i live
    rcases loop : sendLoop sends c.pending.length with ⟨took, ending⟩
    cases ending with
    | all =>
      dsimp only
      rw [same live (by rw [loop])]
    | blocked => rfl
    | closed => rfl
  · rfl

theorem flushPending_twin (marked : Marked .agent c)
    (timely : ¬ CompletesLate config c data answers) :
    flushPending .server config c.twin data answers =
      ⟨(flushPending .agent config c data answers).client.twin,
        (flushPending .agent config c data answers).wrote,
        (flushPending .agent config c data answers).cleared⟩ := by
  have left := leftOver_marked config data marked answers
  rw [flushPending_eq, flushPending_eq, leftOver_twin]
  by_cases empty : (leftOver config c data answers).pending = []
  · rw [if_pos empty]
    exact if_pos empty
  · rw [if_neg empty]
    refine (if_neg empty).trans (flushOutBuf_twin answers.flushes fun _ all => ?_)
    obtain ⟨packet, out⟩ := out_of_pending empty
    have plain : packet.recovery = false := by
      by_contra recovery
      exact timely ⟨⟨packet, out, by simpa using recovery⟩, empty, all⟩
    have flag := (left.pending rfl packet out).trans plain
    simp [emptied, flag, TapClient.twin]

theorem ensureOutBuf_twin (c : TapClient) (need : Nat) (granted : Bool) :
    ensureOutBuf c.twin need granted = (ensureOutBuf c need granted).twin := by
  have cap : c.twin.outCap = c.outCap := rfl
  simp only [ensureOutBuf, cap]
  split
  · rfl
  · split <;> rfl

/-- The second half: where the agent's flush ends a recovery, so does what the server does
after its flush. -/
theorem settle_twin (packet : TapPacket) (flags : c.pendingIdr → c.needIdr)
    (may : c.needIdr → isIdr packet.payload) (now : UInt64) (sends : List SendAnswer) :
    let data := packet.payload
    let server := flushOutBuf .server (load .server c.twin packet now) sends
    let agent := flushOutBuf .agent (load .agent c packet now) sends
    settle .server server.client data = agent.client.twin ∧ server.wrote = agent.wrote := by
  have flag : c.needIdr = false → c.pendingIdr = false := by
    intro need
    by_contra pending
    simpa [need] using flags (by simpa using pending)
  have twin : load .server c.twin packet now = (load .agent c packet now).twin := by
    simp only [load]
    split <;> rfl
  have loaded : (load .agent c packet now).out = some packet ∧
      (load .agent c packet now).needIdr = c.needIdr ∧
      (load .agent c packet now).pendingIdr = c.needIdr := by
    simp only [load]
    cases need : c.needIdr with
    | true => simp [may need]
    | false => simp [flag need]
  rw [twin]
  generalize load .agent c packet now = a at loaded
  obtain ⟨out, need, pendingIdr⟩ := loaded
  have pending : a.twin.pending = a.pending := rfl
  have active : a.twin.active = a.active := rfl
  simp only [flushOutBuf, pending, active]
  split
  · rcases sendLoop sends a.pending.length with ⟨took, ending⟩
    cases ending with
    | all =>
      refine ⟨?_, rfl⟩
      cases waits : c.needIdr with
      | true => simp [settle, emptied, TapClient.twin, need, pendingIdr, waits, may waits]
      | false => simp [settle, emptied, TapClient.twin, need, pendingIdr, waits]
    | blocked => exact ⟨by simp [settle, TapClient.twin, out], rfl⟩
    | closed => exact ⟨rfl, rfl⟩
  · exact ⟨by simp [settle, TapClient.twin, out], rfl⟩

theorem completesLate_twin :
    CompletesLate config c.twin data answers ↔ CompletesLate config c data answers := by
  simp only [CompletesLate, leftOver_twin]
  exact Iff.rfl

/-- One publication: the same is sent and the clients are twins again. -/
theorem publishClient_twin (number : Nat) (active : c.active) (marked : Marked .agent c)
    (timely : ¬ CompletesLate config c data answers) :
    (publishClient .server config c.twin data number answers).sent =
        (publishClient .agent config c data number answers).sent ∧
      (publishClient .server config c.twin data number answers).client =
        (publishClient .agent config c data number answers).client.twin := by
  have flags : (flushPending .agent config c data answers).client.pendingIdr →
      (flushPending .agent config c data answers).client.needIdr := by
    obtain ⟨left, -, moves, result⟩ := flushPending_moves .agent config data number active
      ⟨0, 0, [], [], []⟩ answers
    rcases result with kept | ⟨-, gone⟩
    · rw [kept]
      exact (marked_moves moves marked).flags rfl
    · simp [gone, TapClient.closed]
  simp only [publishClient, flushPending_twin marked timely, Served.sent]
  generalize flushPending .agent config c data answers = f at flags
  have waits : f.client.twin.needIdr = f.client.needIdr := rfl
  have packet : assemble f.client.twin data number = assemble f.client data number := rfl
  rw [waits, packet]
  split
  · exact ⟨rfl, rfl⟩
  · split
    · exact ⟨rfl, rfl⟩
    · rename_i may
      have may : f.client.needIdr → isIdr data := by
        intro need
        simpa [need] using may
      rw [ensureOutBuf_twin]
      have room : ∀ a : TapClient, a.twin.outCap = a.outCap := fun _ => rfl
      rw [room]
      split
      · exact ⟨rfl, rfl⟩
      · have roomy : (ensureOutBuf f.client (assemble f.client data number).bytes.length
            answers.allocates).needIdr = f.client.needIdr ∧
            (ensureOutBuf f.client (assemble f.client data number).bytes.length
              answers.allocates).pendingIdr = f.client.pendingIdr := by
          unfold ensureOutBuf
          split
          · exact ⟨rfl, rfl⟩
          · split <;> exact ⟨rfl, rfl⟩
        obtain ⟨need, pending⟩ := roomy
        obtain ⟨client, wrote⟩ := settle_twin (assemble f.client data number)
          (by rw [need, pending]; exact flags) (by rw [need]; exact may) answers.startClock
          answers.sends
        refine ⟨?_, client⟩
        dsimp only
        rw [wrote]

theorem offered_twin (config : Config) (offers : List Offer) :
    ∀ c : TapClient, c.Tidy → Marked .agent c → Timely config c.twin offers →
      offered .server config c.twin offers = offered .agent config c offers := by
  induction offers with
  | nil => exact fun _ _ _ _ => rfl
  | cons offer rest ih =>
    intro c tidy marked timely
    have active : c.twin.active = c.active := rfl
    simp only [offered, Timely, active] at timely ⊢
    split
    · rename_i serves
      obtain ⟨live, nonempty⟩ := serves
      rw [if_pos ⟨live, nonempty⟩] at timely
      obtain ⟨early, later⟩ := timely
      rw [completesLate_twin] at early
      obtain ⟨sent, client⟩ := publishClient_twin offer.number live marked early
      rw [sent, client]
      rw [client] at later
      congr 1
      obtain ⟨left, -, moves, result⟩ := publishClient_moves .agent config offer.data offer.number
        live tidy nonempty ⟨0, 0, [], [], []⟩ (by simp [Wire.Line.frames]) offer.answers
      have next : (publishClient .agent config c offer.data offer.number offer.answers).client.Tidy ∧
          Marked .agent
            (publishClient .agent config c offer.data offer.number offer.answers).client := by
        rcases result with kept | gone | ⟨-, -, cap, now, reloads⟩
        · rw [kept]
          exact ⟨tidy_moves nonempty moves tidy, marked_moves moves marked⟩
        · rw [gone]
          exact ⟨Or.inl rfl, Marked.empty rfl (by simp [TapClient.closed])⟩
        · rw [reloads]
          obtain ⟨-, -, -, out, pending⟩ := reloaded_fields .agent offer.data offer.number cap now
          refine ⟨Or.inr (by rw [pending]; exact assemble_nonempty _ nonempty _), ?_⟩
          refine ⟨?_, ?_, ?_, ?_⟩
          · intro packet same recovery
            obtain rfl := Option.some.inj (out.symm.trans same)
            cases recovery
          · intro packet same recovery
            obtain rfl := Option.some.inj (out.symm.trans same)
            cases recovery
          · intro _ packet same
            obtain rfl := Option.some.inj (out.symm.trans same)
            rfl
          · intro _ set
            cases set
      exact ih _ next.1 next.2 later
    · rename_i skips
      rw [if_neg skips] at timely
      exact ih c tidy marked timely

/-- Recoveries end with their packet exactly if none is completed late in the server's copy,
and then the copies agree on what a client receives, from any state of it that both can be in. -/
theorem recovery_ends (copy : Copy) (config : Config) (inputs : List Input) (c : TapClient)
    (tidy : c.Tidy) (marked : Marked .agent c) (offers : List Offer) :
    (((∀ past rest, inputs = past ++ rest → RecoveryEnds (run copy config past)) ∧
        Run.Always (step copy config) .initial (EndsAtRule copy config) inputs) ↔
      Run.Always (step copy config) .initial (InTime copy config) inputs) ∧
    (Timely config c.twin offers →
      offered .server config c.twin offers = offered .agent config c offers) :=
  ⟨recovery_iff copy config inputs, offered_twin config offers c tidy marked⟩

/-- A client that waits for an IDR, as the agent seats it. -/
def sampleClient : TapClient := {TapClient.closed with fd := some 0, active := true, needIdr := true}

/-- The packet of the recovery goes out in two parts, and an access unit follows. -/
def sampleOffers : List Offer :=
  [⟨sampleIdr, 0, sampleAt 1 [] [.sent 3]⟩, ⟨[2], 1, sampleAt 1 [.sent 9] [.sent 9]⟩]

theorem sampleClient_marked : Marked .agent sampleClient :=
  Marked.empty rfl fun _ _ => rfl

def promptOffer : Offer := ⟨sampleIdr, 0, sampleAt 1 [] [.sent 9]⟩

theorem promptOffer_timely : Timely sampleConfig sampleClient.twin [promptOffer] := by
  have live : sampleClient.twin.active ∧ promptOffer.data ≠ [] := by decide
  rw [Timely, if_pos live]
  refine ⟨?_, trivial⟩
  rintro ⟨⟨packet, out, -⟩, -⟩
  have empty : (leftOver sampleConfig sampleClient.twin promptOffer.data promptOffer.answers).out =
      none := by decide
  rw [empty] at out
  cases out

theorem recovery_ends_prompt :
    offered .server sampleConfig sampleClient.twin [promptOffer] =
      offered .agent sampleConfig sampleClient [promptOffer] :=
  (recovery_ends .server sampleConfig [] sampleClient (Or.inl rfl) sampleClient_marked
    [promptOffer]).2 promptOffer_timely

/-- A stalled client of the server recovers with an IDR that goes out in two parts. -/
def lateRecovery : List Input :=
  [subscribe 1, .publish 1 [1] true fun _ => sampleAt 1 [] [],
    .publish 1 sampleIdr true fun _ => sampleAt 1000000000 [] [.sent 3],
    .publish 1 [2] true fun _ => sampleAt 1000000000 [.sent 9] []]

theorem lateRecovery_waits :
    ((run .server sampleConfig lateRecovery).clients 0).active = true ∧
      ((run .server sampleConfig lateRecovery).clients 0).fd = some 0 ∧
      ((run .server sampleConfig lateRecovery).clients 0).needIdr = true ∧
      ((run .server sampleConfig lateRecovery).connections 0).line.getLast? =
        some (⟨[], [], [], sampleIdr, true, 1⟩, 5) := by
  decide +kernel

/-- The server's client still waits behind the whole packet, and the copies differ in what
they then send. -/
theorem late_recovery :
    ¬ RecoveryEnds (run .server sampleConfig lateRecovery) ∧
      offered .server sampleConfig sampleClient.twin sampleOffers ≠
        offered .agent sampleConfig sampleClient sampleOffers := by
  constructor
  · intro ends
    obtain ⟨active, own, waits, last⟩ := lateRecovery_waits
    have recovers : Recovers ⟨[], [], [], sampleIdr, true, 1⟩ := ⟨rfl, by decide⟩
    have ended := ends 0 0 active own _ last recovers
    simp [waits] at ended
  · decide +kernel

end StreamRelay.Tap
