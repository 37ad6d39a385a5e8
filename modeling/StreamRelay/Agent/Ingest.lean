import StreamRelay.Agent.TlvProtocol
import StreamRelay.Server.Reception
import StreamRelay.Tap.Viewing

/-! The agent between a worker and its viewers: the packets of one connection after the other are
published to the tap, in the order in which they come. -/
namespace StreamRelay.Agent
open Server (Inbound TlvPacket packetVideos recvExact recvLoop wholly)
open StreamRelay.Tap (Publications Recovers Unbroken Viewing)
open Worker (DecodeUnit Event tcpConfig)

/-- The loop of ingest_thread on one connection for so many rounds, with what it publishes.
`malloc` answers the request of a round, told by the rounds that follow it. -/
def ingestLoop (malloc : Nat → Bool) : Nat → Inbound → Option Publications
  | 0, _ => none
  | rounds + 1, inbound =>
    let hdrb := recvExact tcpHeaderSize inbound
    match hdrb.1.bind tlvParseHeader with
    | none => some []
    | some hdr =>
      let payloadLen := (hdr.length - UInt32.ofNat tcpHeaderSize).toNat
      if payloadLen > tcpMaxPacketSize then some []
      else if payloadLen > 0 then
        if !malloc rounds then some []
        else
          let payload := recvExact payloadLen hdrb.2
          match payload.1 with
          | none => some []
          | some data =>
            let published :=
              if hdr.type = tcpMsgTypeVideoData then [(hdr.streamId.toNat, data)] else []
            (ingestLoop malloc rounds payload.2).map (published ++ ·)
      else ingestLoop malloc rounds hdrb.2

/-- Each packet takes a header at least, so the bytes bound the rounds. -/
def ingestConnection (malloc : Nat → Bool) (inbound : Inbound) : Option Publications :=
  ingestLoop malloc (inbound.bytes.length + 1) inbound

/-- The next connection is accepted when the last one has ended. -/
def ingestThread : List ((Nat → Bool) × Inbound) → Option Publications
  | [] => some []
  | (malloc, inbound) :: later => do
    let published ← ingestConnection malloc inbound
    let rest ← ingestThread later
    some (published ++ rest)

/-- What the agent publishes of these packets. -/
def publications (packets : List TlvPacket) : Publications :=
  (packets.filter fun packet => packet.type = .videoData ∧ packet.payload ≠ []).map fun packet =>
    (packet.streamId.toNat, packet.payload)

theorem publications_append (packets later : List TlvPacket) :
    publications (packets ++ later) = publications packets ++ publications later := by
  rw [publications, List.filter_append, List.map_append]
  rfl

/-- Either all bytes that are wanted have come and the rest is left, or there is an error. -/
theorem recvLoop_some (wanted : Nat) (received bytes : Bytes) (answers : List Server.RecvAnswer)
    {got : Bytes} (done : (recvLoop wanted received bytes answers).1 = some got) :
    wanted ≤ bytes.length ∧ got = received ++ bytes.take wanted ∧
      (recvLoop wanted received bytes answers).2.bytes = bytes.drop wanted := by
  induction answers generalizing wanted received bytes with
  | nil =>
    simp only [recvLoop] at done ⊢
    split at done
    · rename_i enough
      rw [if_pos enough]
      exact ⟨enough, (Option.some.inj done).symm, rfl⟩
    · cases done
  | cons answer rest ih =>
    simp only [recvLoop] at done ⊢
    split at done
    · rename_i none_wanted
      subst none_wanted
      rw [if_pos rfl]
      exact ⟨Nat.zero_le _, by simpa using (Option.some.inj done).symm, rfl⟩
    · rename_i wants
      rw [if_neg wants]
      cases answer with
      | interrupted => exact ih wanted received bytes done
      | failed => cases done
      | some further =>
        dsimp only at done ⊢
        split at done
        · cases done
        · rename_i open_
          rw [if_neg open_]
          generalize chosen : min (further + 1) (min wanted bytes.length) = count at done ⊢
          have asked : count ≤ wanted := by omega
          obtain ⟨enough, same, left⟩ := ih _ _ _ done
          rw [List.length_drop] at enough
          refine ⟨by omega, ?_, ?_⟩
          · rw [same, List.append_assoc, ← List.take_add, Nat.add_sub_cancel' asked]
          · rw [left, List.drop_drop, Nat.add_sub_cancel' asked]

theorem recvExact_some {n : Nat} {inbound : Inbound} {got : Bytes}
    (done : (recvExact n inbound).1 = some got) :
    n ≤ inbound.bytes.length ∧ got = inbound.bytes.take n ∧
      (recvExact n inbound).2.bytes = inbound.bytes.drop n := by
  obtain ⟨enough, same, left⟩ := recvLoop_some n [] inbound.bytes inbound.answers done
  exact ⟨enough, same, left⟩

/-- If no recv fails, an error means that the bytes have ended. -/
theorem recvExact_none {n : Nat} {inbound : Inbound} (patient : inbound.Patient)
    (failed : (recvExact n inbound).1 = none) : inbound.bytes.length < n := by
  by_contra enough
  obtain ⟨-, all, -⟩ := Server.recvLoop_spec n [] inbound.bytes patient
  rw [recvExact, (all (Nat.not_lt.mp enough)).1] at failed
  cases failed

theorem recvExact_patient (n : Nat) {inbound : Inbound} (patient : inbound.Patient) :
    (recvExact n inbound).2.Patient :=
  (Server.recvLoop_spec n [] inbound.bytes patient).1

/-- What has come is the beginning and then more. -/
theorem take_whole {first rest : Bytes} {n : Nat}
    (whole : first.length ≤ ((first ++ rest).take n).length) :
    first.length ≤ n ∧ ((first ++ rest).take n).take first.length = first ∧
      ((first ++ rest).take n).drop first.length = rest.take (n - first.length) := by
  rw [List.length_take] at whole
  have within : first.length ≤ n := whole.trans (Nat.min_le_left _ _)
  refine ⟨within, ?_, ?_⟩
  · rw [List.take_take, Nat.min_eq_left within, List.take_left]
  · rw [List.drop_take, List.drop_left]

theorem tlvParseHeader_packet {packet : TlvPacket} (served : packet.streamId.toNat ≤ maxStreams) :
    tlvParseHeader packet.headerBuf = some packet.header := by
  obtain ⟨read, least, most, -, named, -⟩ :=
    (Server.protocolParseHeader_iff _ _).mp packet.parse_headerBuf
  apply (tlvParseHeader_iff _ _).mpr
  refine ⟨read, least, most, ?_, served⟩
  rw [UInt16.le_iff_toNat_le]
  apply Nat.pos_of_ne_zero
  intro zero
  exact named (UInt16.toNat_inj.mp zero)

/-- One round on packets up to a cut: it ends, and if nothing fails then the packet is not whole;
or it publishes what there is to publish of the packet and goes on behind it. -/
theorem ingestLoop_packet (malloc : Nat → Bool) {packet : TlvPacket} (later : List TlvPacket)
    (served : packet.streamId.toNat ≤ maxStreams) {n : Nat} {inbound : Inbound}
    (come : inbound.bytes = ((packet :: later).flatMap TlvPacket.encode).take n) (rounds : Nat) :
    (ingestLoop malloc (rounds + 1) inbound = some [] ∧
      (inbound.Patient → malloc rounds = true → n < packet.encode.length)) ∨
    packet.encode.length ≤ n ∧ ∃ next : Inbound,
      next.bytes = (later.flatMap TlvPacket.encode).take (n - packet.encode.length) ∧
      (inbound.Patient → next.Patient) ∧
      ingestLoop malloc (rounds + 1) inbound =
        (ingestLoop malloc rounds next).map (publications [packet] ++ ·) := by
  have encoded := packet.encode_length
  rw [List.flatMap_cons, TlvPacket.encode, List.append_assoc] at come
  cases header : (recvExact tcpHeaderSize inbound).1 with
  | none =>
    refine .inl ⟨?_, fun patient _ => ?_⟩
    · simp only [ingestLoop, header, Option.bind_none]
    · have short := recvExact_none patient header
      rw [come, List.length_take, List.length_append, packet.headerBuf_length] at short
      omega
  | some got =>
    obtain ⟨all, rfl, left⟩ := recvExact_some header
    rw [come, ← packet.headerBuf_length] at all
    obtain ⟨begun, first, behind⟩ := take_whole all
    rw [packet.headerBuf_length] at begun first behind
    rw [come, behind] at left
    rw [come, first] at header
    have parsed := tlvParseHeader_packet served
    have calm := fun patient : inbound.Patient => recvExact_patient tcpHeaderSize patient
    have within : ¬packet.payload.length > tcpMaxPacketSize := by
      have := packet.fits
      omega
    by_cases empty : packet.payload = []
    · have length : packet.payload.length = 0 := by rw [empty, List.length_nil]
      refine .inr ⟨by omega, (recvExact tcpHeaderSize inbound).2, ?_, calm, ?_⟩
      · rw [left, empty, List.nil_append, encoded, length, Nat.add_zero]
      · have silent : publications [packet] = [] := by simp [publications, empty]
        have none_there : ¬packet.payload.length > 0 := by omega
        rw [silent]
        simp only [ingestLoop, header, Option.bind_some, parsed, TlvPacket.payloadLen, if_neg within,
          if_neg none_there, List.nil_append, Option.map_id']
    · have some_ : packet.payload.length > 0 := List.length_pos_iff.mpr empty
      cases granted : malloc rounds with
      | false =>
        refine .inl ⟨?_, fun _ grants => by cases grants⟩
        simp only [ingestLoop, header, Option.bind_some, parsed, TlvPacket.payloadLen, if_neg within,
          if_pos some_, granted, Bool.not_false, if_true]
      | true =>
        cases payload : (recvExact packet.payload.length (recvExact tcpHeaderSize inbound).2).1 with
        | none =>
          refine .inl ⟨?_, fun patient _ => ?_⟩
          · simp only [ingestLoop, header, Option.bind_some, parsed, TlvPacket.payloadLen,
              if_neg within, if_pos some_, granted, Bool.not_true, Bool.false_eq_true, if_false,
              payload]
          · have short := recvExact_none (calm patient) payload
            rw [left, List.length_take, List.length_append] at short
            omega
        | some data =>
          obtain ⟨here, rfl, rest⟩ := recvExact_some payload
          rw [left] at here rest payload
          obtain ⟨whole, came, further⟩ := take_whole here
          rw [further] at rest
          rw [came] at payload
          refine .inr ⟨by omega,
            (recvExact packet.payload.length (recvExact tcpHeaderSize inbound).2).2, ?_,
            fun patient => recvExact_patient _ (calm patient), ?_⟩
          · rw [rest, encoded, Nat.sub_sub]
          · have told : publications [packet] =
                if packet.header.type = tcpMsgTypeVideoData then
                  [(packet.header.streamId.toNat, packet.payload)] else [] := by
              rw [publications, List.filter_singleton]
              simp only [empty, TlvPacket.header, Server.code_video, ne_eq, not_false_eq_true,
                and_true]
              split <;> simp_all
            simp only [ingestLoop, header, Option.bind_some, parsed, TlvPacket.payloadLen,
              if_neg within, if_pos some_, granted, Bool.not_true, Bool.false_eq_true, if_false,
              payload, told]

/-- On packets up to a cut: whatever recv and malloc answer, the first ones are published; if
nothing fails, all that came whole. -/
theorem ingestLoop_packets (malloc : Nat → Bool) (packets : List TlvPacket)
    (served : ∀ packet ∈ packets, packet.streamId.toNat ≤ maxStreams) {n rounds : Nat}
    {inbound : Inbound} (come : inbound.bytes = (packets.flatMap TlvPacket.encode).take n)
    (enough : inbound.bytes.length < rounds) :
    ∃ first, first <+: packets ∧ ingestLoop malloc rounds inbound = some (publications first) ∧
      (inbound.Patient → (∀ round, malloc round = true) → first = wholly n packets) := by
  induction packets generalizing n rounds inbound with
  | nil =>
    obtain ⟨rounds, rfl⟩ := Nat.exists_eq_succ_of_ne_zero (Nat.ne_zero_of_lt enough)
    have failed : (recvExact tcpHeaderSize inbound).1 = none := by
      by_contra done
      obtain ⟨got, done⟩ := Option.ne_none_iff_exists'.mp done
      have all := (recvExact_some done).1
      rw [come, List.flatMap_nil, List.take_nil] at all
      exact absurd all (by decide)
    refine ⟨[], List.prefix_refl _, ?_, fun _ _ => rfl⟩
    simp only [ingestLoop, failed, Option.bind_none]
    rfl
  | cons packet later ih =>
    obtain ⟨rounds, rfl⟩ := Nat.exists_eq_succ_of_ne_zero (Nat.ne_zero_of_lt enough)
    obtain ⟨here, rest⟩ := List.forall_mem_cons.mp served
    rw [wholly]
    rcases ingestLoop_packet malloc later here come rounds with
      ⟨ends, short⟩ | ⟨whole, next, left, calm, goes⟩
    · refine ⟨[], List.nil_prefix, ends, fun patient grants => ?_⟩
      rw [if_neg (Nat.not_le.mpr (short patient (grants rounds)))]
    · have fewer : next.bytes.length < rounds := by
        have encoded := packet.encode_length
        rw [come, List.flatMap_cons, List.length_take, List.length_append] at enough
        rw [left, List.length_take]
        simp only [tcpHeaderSize] at encoded
        omega
      obtain ⟨first, begins, published, all⟩ := ih rest left fewer
      refine ⟨packet :: first, ?_, ?_, fun patient grants => ?_⟩
      · exact List.cons_prefix_cons.mpr ⟨rfl, begins⟩
      · rw [goes, published, Option.map_some, ← publications_append]
        rfl
      · rw [if_pos whole, ← all (calm patient) grants]

theorem ingestThread_packets {malloc : Nat → Nat → Bool} {inbound : Nat → Inbound}
    {first : Nat → List TlvPacket} (list : List Nat)
    (each : ∀ fd, ingestConnection (malloc fd) (inbound fd) = some (publications (first fd))) :
    ingestThread (list.map fun fd => (malloc fd, inbound fd)) =
      some (publications (list.flatMap first)) := by
  induction list with
  | nil => rfl
  | cons fd later ih =>
    rw [List.map_cons, ingestThread, each, ih, List.flatMap_cons, publications_append]
    rfl

theorem publications_videos (packets : List TlvPacket) :
    (publications packets).map Prod.snd = (packetVideos packets).filter (· ≠ []) := by
  rw [publications, packetVideos, List.map_map, List.filter_map, List.filter_filter]
  congr 1
  apply List.filter_congr
  intro packet _
  simp [Bool.and_comm]

/-- What the agent makes of a worker's connections: the access units that it publishes, and what its
viewers see of them. -/
structure Publishes (tcp : Sender.TcpSenderConfig) (units : List Bytes) (t : Worker.Session)
    (handed : List Bytes) (arrives : Nat → Nat) (answers : Nat → List Server.RecvAnswer)
    (malloc : Nat → Nat → Bool) (published : Publications) : Prop where
  stream : ∀ entry ∈ published, entry.1 = tcp.streamId.toNat
  order : (published.map Prod.snd).Sublist units
  all : t.fatal = .none → (∀ fd, (t.system.links fd).written.length ≤ arrives fd) →
    (∀ fd, ∀ answer ∈ answers fd, answer ≠ .failed) → (∀ fd round, malloc fd round = true) →
    published.map Prod.snd = handed.filter (· ≠ [])
  viewing : ∀ stallMs inputs, inputs.filterMap StreamRelay.Tap.Input.entry <+: published →
    ∀ fd < (StreamRelay.Tap.run .agent ⟨stallMs, true⟩ inputs).accepted,
      Viewing units ((StreamRelay.Tap.run .agent ⟨stallMs, true⟩ inputs).connections fd)
  opens : ∀ stallMs inputs,
    Run.Always (StreamRelay.Tap.step .agent ⟨stallMs, true⟩) .initial
      (Unbroken .agent ⟨stallMs, true⟩) inputs →
    ∀ fd < (StreamRelay.Tap.run .agent ⟨stallMs, true⟩ inputs).accepted,
      ∀ u ∈ ((StreamRelay.Tap.run .agent ⟨stallMs, true⟩ inputs).connections fd).line.sent.head?,
        Recovers u.1

/-- From the units that a worker is given to the bytes that the viewers of its agent receive:
whatever fails on the way, each unit at most once and in order, and beside them only start codes
and parameter sets that were units themselves. -/
theorem worker_reaches_viewer {cfg : Worker.WorkerRenderConfig} {videoFormat width height : Int}
    {room : Bool} {connect : Sender.ConnectAnswers} {w : Worker.Session}
    (accepted : Worker.Session.start.workerSetup videoFormat width height (some cfg) room connect =
      (w, true)) (served : cfg.streamId.toNat ≤ maxStreams)
    (events : List Event) (proper : ∀ event ∈ events, event.Proper)
    (small : ∀ unit ∈ events.filterMap Event.unit,
      tcpHeaderSize + unit.bytes.length ≤ tcpMaxPacketSize) (arrives : Nat → Nat)
    (answers : Nat → List Server.RecvAnswer) (malloc : Nat → Nat → Bool) :
    ∃ t handed published, w.run events = some (t, handed) ∧
      ingestThread ((List.range t.system.sockets).map fun fd =>
        (malloc fd, ⟨(t.system.links fd).written.take (arrives fd), answers fd⟩)) =
          some published ∧
      Publishes (tcpConfig cfg videoFormat width height (cfg.codec, cfg.chroma, cfg.bitdepth))
        ((events.filterMap Event.unit).map DecodeUnit.bytes) t handed arrives answers malloc
        published := by
  obtain ⟨t, handed, log, ran, relayed⟩ := Worker.session_relays accepted events proper
  obtain ⟨named, below⟩ := Server.tcpConfig_stream cfg videoFormat width height
    (cfg.codec, cfg.chroma, cfg.bitdepth) (by decide) served
  generalize tcpConfig cfg videoFormat width height (cfg.codec, cfg.chroma, cfg.bitdepth) =
    tcp at relayed named below ⊢
  have line := Server.relayed_line relayed small
  have known : tcp.streamId.toNat ≤ maxStreamsLimit := below.trans (by decide)
  choose packets cut bytes same whole using fun fd =>
    Server.line_packets (relayed.carries.orderly fd) (line fd).1 named known (line fd).2 (arrives fd)
  have stream (fd : Nat) : ∀ packet ∈ packets fd, packet.streamId = tcp.streamId := by
    intro packet member
    apply Server.told_stream ((line fd).1 packet.frame _)
    rw [← same fd]
    exact List.mem_map_of_mem member
  have come (fd : Nat) :
      (Inbound.mk ((t.system.links fd).written.take (arrives fd)) (answers fd)).bytes =
        ((packets fd).flatMap TlvPacket.encode).take (cut fd) := by
    rw [← bytes fd, relayed.carries.written]
  have taken (fd : Nat) : ∀ packet ∈ packets fd, packet.streamId.toNat ≤ maxStreams := by
    intro packet member
    rw [stream fd packet member]
    exact below
  choose first begins published all using fun fd =>
    ingestLoop_packets (malloc fd) (packets fd) (taken fd) (come fd) (Nat.lt_succ_self _)
  have frames (fd : Nat) : (first fd).map TlvPacket.frame <+: (log.line fd).frames := by
    rw [← same fd]
    exact (begins fd).map TlvPacket.frame
  obtain ⟨within, every⟩ := Server.received_videos relayed frames
  have order : ((publications ((List.range t.system.sockets).flatMap first)).map Prod.snd).Sublist
      ((events.filterMap Event.unit).map DecodeUnit.bytes) := by
    rw [publications_videos]
    exact (List.filter_sublist.trans within).trans relayed.order
  refine ⟨t, handed, _, ran, ingestThread_packets _ published, ?_, order, ?_, ?_, ?_⟩
  · intro entry member
    obtain ⟨packet, inside, rfl⟩ := List.mem_map.mp member
    obtain ⟨fd, -, received⟩ := List.mem_flatMap.mp (List.mem_filter.mp inside).1
    rw [stream fd packet ((begins fd).subset received)]
  · intro unset there patient granted
    rw [publications_videos, every unset]
    intro fd
    rw [all fd (patient fd) (granted fd)]
    apply whole
    rw [← relayed.carries.written]
    exact there fd
  · intro stallMs inputs seen fd taken
    exact (StreamRelay.Tap.run_viewing .agent stallMs inputs fd taken).mono
      ((seen.sublist.map Prod.snd).trans order)
  · exact StreamRelay.Tap.run_opens

/-- The first unit is cut after four bytes, and the second comes on a new connection. -/
theorem worker_reaches_viewer_reconnect : ∃ t handed published,
    Worker.sampleSetup.1.run Worker.sampleEvents = some (t, handed) ∧
      ingestThread ((List.range t.system.sockets).map fun fd =>
        ((fun _ => true), ⟨(t.system.links fd).written.take 100, [.some 2, .interrupted]⟩)) =
          some published ∧
      Publishes (tcpConfig Worker.sampleOptions Worker.videoFormatH265 1920 1080 (1, 0, 8))
        [Worker.sampleUnit.bytes, Worker.sampleUnit.bytes] t handed (fun _ => 100)
        (fun _ => [.some 2, .interrupted]) (fun _ _ => true) published :=
  worker_reaches_viewer
    (show Worker.Session.start.workerSetup Worker.videoFormatH265 1920 1080 (some Worker.sampleOptions) true
      Worker.goodConnect = (Worker.sampleSetup.1, true) from Prod.ext rfl (by decide))
    (by decide) Worker.sampleEvents
    (by simp [Worker.sampleEvents, Event.Proper, Worker.sampleUnit_proper])
    (by decide) (fun _ => 100) (fun _ => [.some 2, .interrupted]) fun _ _ => true

end StreamRelay.Agent
