import StreamRelay.Sender.Metadata
import StreamRelay.Server.Framing
import StreamRelay.Worker.Session

/-! What the server gets of a worker: the bytes of its connections as far as they arrive, read by a
handler for each. -/
namespace StreamRelay.Server
open Sender (Frame Log)
open Worker (DecodeUnit Event Told tcpConfig)

section Sorted

variable {α : Type*} (key : α → Nat) {list : List α}

theorem filter_sorted_succ (sorted : list.Pairwise fun a b => key a ≤ key b) (n : Nat) :
    list.filter (fun a => key a < n) ++ list.filter (fun a => key a = n) =
      list.filter fun a => key a < n + 1 := by
  induction sorted with
  | nil => rfl
  | @cons a list least _ ih =>
    by_cases below : key a < n
    · rw [List.filter_cons_of_pos (by simpa using below), List.cons_append,
        List.filter_cons_of_neg (by simpa using below.ne), ih,
        List.filter_cons_of_pos (by simpa using below.le)]
    · have above : ∀ b ∈ a :: list, n ≤ key b := by
        intro b member
        rcases List.mem_cons.mp member with rfl | later
        · exact Nat.not_lt.mp below
        · exact (Nat.not_lt.mp below).trans (least b later)
      have none_below : (a :: list).filter (fun b => key b < n) = [] := by
        rw [List.filter_eq_nil_iff]
        intro b member
        simpa using above b member
      rw [none_below, List.nil_append]
      apply List.filter_congr
      intro b member
      have least := above b member
      simp only [decide_eq_decide]
      omega

/-- A list sorted by a number is the lists for each number one after another. -/
theorem flatMap_filter_sorted (sorted : list.Pairwise fun a b => key a ≤ key b) (n : Nat) :
    (List.range n).flatMap (fun k => list.filter fun a => key a = k) =
      list.filter fun a => key a < n := by
  induction n with
  | zero => simp
  | succ n ih =>
    rw [List.range_succ, List.flatMap_append, ih, List.flatMap_singleton,
      filter_sorted_succ key sorted]

end Sorted

def TlvPacket.frame (packet : TlvPacket) : Frame :=
  ⟨packet.type.code, packet.streamId, packet.payload⟩

theorem TlvPacket.frame_bytes (packet : TlvPacket) : packet.frame.bytes = packet.encode := by
  rw [TlvPacket.encode, TlvPacket.headerBuf_total]
  rfl

theorem wholly_append (packets later : List TlvPacket) (n : Nat) :
    wholly ((packets.flatMap TlvPacket.encode).length + n) (packets ++ later) =
      packets ++ wholly n later := by
  induction packets with
  | nil => simp
  | cons packet packets ih =>
    rw [List.cons_append, wholly, List.flatMap_cons, List.length_append, if_pos (by omega)]
    rw [Nat.add_assoc, Nat.add_sub_cancel_left, ih, List.cons_append]

/-- What a worker may send within the server's limits is a packet of the protocol. -/
theorem told_packet {tcp : Sender.TcpSenderConfig} {frame : Frame} (told : Told tcp frame)
    (named : tcp.streamId ≠ 0) (served : tcp.streamId.toNat ≤ maxStreamsLimit)
    (small : tcpHeaderSize + frame.payload.length ≤ tcpMaxPacketSize) :
    ∃ packet : TlvPacket, packet.frame = frame := by
  rcases told with rfl | ⟨data, rfl⟩ | rfl | rfl
  · exact ⟨⟨.streamStart, tcp.streamId, _, named, served, small⟩, rfl⟩
  · exact ⟨⟨.videoData, tcp.streamId, data, named, served, small⟩, rfl⟩
  · exact ⟨⟨.heartbeat, tcp.streamId, [], named, served, small⟩, rfl⟩
  · exact ⟨⟨.streamStop, tcp.streamId, [], named, served, small⟩, rfl⟩

theorem exists_packets {frames : List Frame}
    (each : ∀ frame ∈ frames, ∃ packet : TlvPacket, packet.frame = frame) :
    ∃ packets : List TlvPacket, packets.map TlvPacket.frame = frames := by
  induction frames with
  | nil => exact ⟨[], rfl⟩
  | cons frame later ih =>
    obtain ⟨here, rest⟩ := List.forall_mem_cons.mp each
    obtain ⟨packet, rfl⟩ := here
    obtain ⟨packets, rfl⟩ := ih rest
    exact ⟨packet :: packets, rfl⟩

theorem encode_frames (packets : List TlvPacket) :
    packets.flatMap TlvPacket.encode = (packets.map TlvPacket.frame).flatMap Frame.bytes := by
  rw [List.flatMap_map]
  exact List.flatMap_congr fun packet _ => packet.frame_bytes.symm

/-- The frames on a line that came whole. -/
def wholeFrames (line : Wire.Line Frame) : List Frame :=
  (line.filter fun u => u.2 = u.1.bytes.length).map Prod.fst

/-- All frames before the last one on an orderly line are whole. -/
theorem orderly_past {line : Wire.Line Frame} {frame : Frame} {sent : Nat}
    (orderly : Sender.Orderly (line ++ [(frame, sent)])) :
    wholeFrames line = line.frames ∧ Wire.bytes Frame.bytes line = line.frames.flatMap Frame.bytes := by
  obtain ⟨before, may, -⟩ := orderly.init
  induction line using List.reverseRecOn generalizing frame sent with
  | nil => exact ⟨rfl, rfl⟩
  | append_singleton past last ih =>
    obtain ⟨f, count⟩ := last
    rw [List.getLast?_concat] at may
    have whole : count = f.bytes.length := may.1
    obtain ⟨earlier, first, -⟩ := before.init
    obtain ⟨all, bytes⟩ := ih before earlier first
    constructor
    · rw [wholeFrames, List.filter_append, List.map_append, ← wholeFrames, all, Wire.frames_snoc]
      simp [whole]
    · rw [Wire.bytes_snoc, Wire.frames_snoc, List.flatMap_append, bytes, whole]
      simp

/-- The packets that lie wholly in the bytes of a line are the frames that came whole. -/
theorem wholly_line {line : Wire.Line Frame} (orderly : Sender.Orderly line)
    {packets : List TlvPacket} (same : packets.map TlvPacket.frame = line.frames) :
    (wholly (Wire.bytes Frame.bytes line).length packets).map TlvPacket.frame = wholeFrames line := by
  rcases List.eq_nil_or_concat' line with rfl | ⟨past, ⟨frame, sent⟩, rfl⟩
  · obtain rfl := List.map_eq_nil_iff.mp same
    rfl
  · obtain ⟨all, bytes⟩ := orderly_past orderly
    obtain ⟨-, -, within⟩ := orderly.init
    rw [Wire.frames_snoc] at same
    obtain ⟨earlier, last, rfl, before, behind⟩ := List.map_eq_append_iff.mp same
    obtain ⟨packet, rfl, rfl⟩ := List.map_eq_singleton_iff.mp behind
    have length : (Wire.bytes Frame.bytes (past ++ [(packet.frame, sent)])).length =
        (earlier.flatMap TlvPacket.encode).length + sent := by
      rw [Wire.bytes_snoc, bytes, ← before, ← encode_frames, List.length_append, List.length_take,
        Nat.min_eq_left within]
    rw [length, wholly_append, List.map_append, before, wholeFrames, List.filter_append,
      List.map_append, ← wholeFrames, all]
    congr 1
    rw [packet.frame_bytes] at within
    by_cases whole : sent = packet.encode.length
    · simp [wholly, whole, packet.frame_bytes]
    · simp [wholly, whole, packet.frame_bytes, show ¬ packet.encode.length ≤ sent by omega]

def frameVideos (frames : List Frame) : List Bytes :=
  (frames.filter fun frame => frame.type = tcpMsgTypeVideoData).map Frame.payload

/-- The payloads of the video packets. -/
def packetVideos (packets : List TlvPacket) : List Bytes :=
  (packets.filter fun packet => packet.type = .videoData).map TlvPacket.payload

theorem code_video (type : MessageType) : type.code = tcpMsgTypeVideoData ↔ type = .videoData := by
  cases type <;> decide

theorem packetVideos_frames (packets : List TlvPacket) :
    packetVideos packets = frameVideos (packets.map TlvPacket.frame) := by
  rw [packetVideos, frameVideos, List.filter_map, List.map_map]
  have same (packet : TlvPacket) :
      packet.frame.type = tcpMsgTypeVideoData ↔ packet.type = .videoData := code_video packet.type
  simp only [Function.comp_def, same]
  rfl

/-- The frames begun, connection after connection. -/
theorem lines_frames {log : Log} {sockets : Nat} (known : ∀ sent ∈ log, sent.fd < sockets)
    (sorted : log.Pairwise fun earlier later => earlier.fd ≤ later.fd) :
    (List.range sockets).flatMap (fun fd => (log.line fd).frames) = log.frames ∧
      (List.range sockets).flatMap (fun fd => wholeFrames (log.line fd)) =
        (log.filter fun sent => sent.Whole).map Sender.Sent.frame := by
  have all : (List.range sockets).flatMap (fun fd => log.filter fun sent => sent.fd = fd) = log := by
    rw [flatMap_filter_sorted Sender.Sent.fd sorted, List.filter_eq_self]
    simpa using known
  constructor
  · have line (fd : Nat) : (log.line fd).frames =
        (log.filter fun sent => sent.fd = fd).map Sender.Sent.frame := by
      rw [Wire.Line.frames, Log.line, List.map_map]
      rfl
    simp only [line]
    rw [← List.map_flatMap, all]
    rfl
  · have line (fd : Nat) : wholeFrames (log.line fd) =
        ((log.filter fun sent => sent.fd = fd).filter fun sent => sent.Whole).map
          Sender.Sent.frame := by
      rw [wholeFrames, Log.line, List.filter_map, List.map_map]
      rfl
    simp only [line]
    rw [← List.map_flatMap, ← List.filter_flatMap, all]

/-- The handler of a connection hands on these packets, whatever pieces the bytes come in. -/
def Handles (bytes : Bytes) (packets : List TlvPacket) : Prop :=
  ∀ (Server : Type) (memory : Nat → UInt8) (realloc : Nat → Bool),
    (∀ size, realloc size = true) →
    ∀ (handlePacket : PacketHeader → Bytes → Server → Server) (answers : List RecvAnswer),
      (∀ answer ∈ answers, answer ≠ .failed) → ∀ server : Server,
        clientHandler memory realloc handlePacket ⟨bytes, answers⟩ server =
          some (deliver handlePacket packets server)

theorem handles_wholly (packets : List TlvPacket) (n : Nat) :
    Handles ((packets.flatMap TlvPacket.encode).take n) (wholly n packets) := by
  intro Server memory realloc granted handlePacket answers patient server
  apply handlerLoop_wholly granted packets
  · simp only [Client.create, List.length_map, List.length_range]
    decide
  · exact patient
  · rfl
  · exact Nat.lt_succ_self _

theorem deliver_collected (packets : List TlvPacket) (before : List (PacketHeader × Bytes)) :
    deliver (fun header payload before => before ++ [(header, payload)]) packets before =
      before ++ packets.map fun packet => (packet.header, packet.payload) := by
  induction packets generalizing before with
  | nil => simp [deliver]
  | cons packet packets ih =>
    refine (ih (before ++ [(packet.header, packet.payload)])).trans ?_
    simp

theorem MessageType.code_injective {type other : MessageType} (same : type.code = other.code) :
    type = other := by
  have found := congrArg MessageType.ofCode same
  rw [ofCode_code, ofCode_code] at found
  exact Option.some.inj found

theorem TlvPacket.header_injective {packet other : TlvPacket} (header : packet.header = other.header)
    (payload : packet.payload = other.payload) : packet = other := by
  obtain ⟨type, streamId, data, named, known, fits⟩ := packet
  obtain ⟨type', streamId', data', named', known', fits'⟩ := other
  obtain ⟨-, code, rfl⟩ := PacketHeader.mk.inj header
  obtain rfl : data = data' := payload
  obtain rfl := MessageType.code_injective code
  rfl

/-- The bytes of a connection determine what is handed on. -/
theorem Handles.unique {bytes : Bytes} {packets others : List TlvPacket}
    (one : Handles bytes packets) (two : Handles bytes others) : packets = others := by
  have collected := (one _ (fun _ => 0) (fun _ => true) (fun _ => rfl)
    (fun header payload before => before ++ [(header, payload)]) [] (by simp) []).symm.trans
    (two _ (fun _ => 0) (fun _ => true) (fun _ => rfl) _ [] (by simp) [])
  rw [Option.some.injEq, deliver_collected, deliver_collected, List.nil_append, List.nil_append]
    at collected
  refine List.map_injective_iff.mpr (fun packet other same => ?_) collected
  obtain ⟨header, payload⟩ := Prod.mk.inj same
  exact TlvPacket.header_injective header payload

/-- One connection of a worker, as far as its bytes arrive: packets of the protocol up to a cut. -/
theorem line_packets {tcp : Sender.TcpSenderConfig} {line : Wire.Line Frame}
    (orderly : Sender.Orderly line) (told : ∀ frame ∈ line.frames, Told tcp frame)
    (named : tcp.streamId ≠ 0) (served : tcp.streamId.toNat ≤ maxStreamsLimit)
    (small : ∀ frame ∈ line.frames, tcpHeaderSize + frame.payload.length ≤ tcpMaxPacketSize)
    (arrives : Nat) :
    ∃ (packets : List TlvPacket) (n : Nat),
      (Wire.bytes Frame.bytes line).take arrives = (packets.flatMap TlvPacket.encode).take n ∧
      packets.map TlvPacket.frame = line.frames ∧
      ((Wire.bytes Frame.bytes line).length ≤ arrives →
        (wholly n packets).map TlvPacket.frame = wholeFrames line) := by
  obtain ⟨packets, same⟩ := exists_packets fun frame member =>
    told_packet (told frame member) named served (small frame member)
  have within := (Sender.orderly_sentence orderly).2.1
  rw [← same, ← encode_frames] at within
  refine ⟨packets, min arrives (Wire.bytes Frame.bytes line).length, ?_, same, fun all => ?_⟩
  · rw [← List.take_take, ← List.prefix_iff_eq_take.mp within]
  · rw [Nat.min_eq_right all]
    exact wholly_line orderly same

/-- One connection of a worker at the server. -/
theorem line_received {tcp : Sender.TcpSenderConfig} {line : Wire.Line Frame}
    (orderly : Sender.Orderly line) (told : ∀ frame ∈ line.frames, Told tcp frame)
    (named : tcp.streamId ≠ 0) (served : tcp.streamId.toNat ≤ maxStreamsLimit)
    (small : ∀ frame ∈ line.frames, tcpHeaderSize + frame.payload.length ≤ tcpMaxPacketSize)
    (arrives : Nat) :
    ∃ packets : List TlvPacket, Handles ((Wire.bytes Frame.bytes line).take arrives) packets ∧
      packets.map TlvPacket.frame <+: line.frames ∧
      ((Wire.bytes Frame.bytes line).length ≤ arrives →
        packets.map TlvPacket.frame = wholeFrames line) := by
  obtain ⟨packets, n, bytes, same, whole⟩ :=
    line_packets orderly told named served small arrives
  refine ⟨wholly n packets, ?_, ?_, whole⟩
  · rw [bytes]
    exact handles_wholly packets n
  · rw [← same]
    exact ((wholly_iff packets _ _).mp (List.prefix_refl _)).1.map TlvPacket.frame

/-- What the server is handed of a worker, over all its connections. -/
structure Reaches (tcp : Sender.TcpSenderConfig) (units : List DecodeUnit) (t : Worker.Session)
    (handed : List Bytes) (arrives : Nat → Nat) (received : Nat → List TlvPacket) : Prop where
  handles : ∀ fd, Handles ((t.system.links fd).written.take (arrives fd)) (received fd)
  opens : ∀ fd, ∀ packet ∈ (received fd).head?, packet.type = .streamStart ∧
    protocolParseStreamInfo packet.payload = some tcp.info
  once : ∀ fd, ∀ packet ∈ (received fd).tail, packet.type ≠ .streamStart
  stream : ∀ fd, ∀ packet ∈ received fd, packet.streamId = tcp.streamId
  order : (packetVideos ((List.range t.system.sockets).flatMap received)).Sublist
    (units.map DecodeUnit.bytes)
  all : t.fatal = .none → (∀ fd, (t.system.links fd).written.length ≤ arrives fd) →
    packetVideos ((List.range t.system.sockets).flatMap received) = handed

theorem told_stream {tcp : Sender.TcpSenderConfig} {frame : Frame} (told : Told tcp frame) :
    frame.streamId = tcp.streamId := by
  rcases told with rfl | ⟨data, rfl⟩ | rfl | rfl <;> rfl

theorem told_small {tcp : Sender.TcpSenderConfig} {frames : List Frame} {handed : List Bytes}
    (told : ∀ frame ∈ frames, Told tcp frame) (begun : frameVideos frames ⊆ handed)
    (small : ∀ data ∈ handed, tcpHeaderSize + data.length ≤ tcpMaxPacketSize) :
    ∀ frame ∈ frames, tcpHeaderSize + frame.payload.length ≤ tcpMaxPacketSize := by
  intro frame member
  rcases told frame member with rfl | ⟨data, rfl⟩ | rfl | rfl
  · exact (by decide : tcpHeaderSize + Sender.System.streamInfoSize ≤ tcpMaxPacketSize)
  · apply small
    apply begun
    exact List.mem_map_of_mem (List.mem_filter.mpr ⟨member, decide_eq_true rfl⟩)
  · exact (by decide : tcpHeaderSize + 0 ≤ tcpMaxPacketSize)
  · exact (by decide : tcpHeaderSize + 0 ≤ tcpMaxPacketSize)

/-- What a worker sends on a connection is told by its settings, and within the limit if its
units are. -/
theorem relayed_line {tcp : Sender.TcpSenderConfig} {units : List DecodeUnit} {t : Worker.Session}
    {handed : List Bytes} {log : Log} (relayed : Worker.Relayed tcp units t handed log)
    (small : ∀ unit ∈ units, tcpHeaderSize + unit.bytes.length ≤ tcpMaxPacketSize) (fd : Nat) :
    (∀ frame ∈ (log.line fd).frames, Told tcp frame) ∧
      ∀ frame ∈ (log.line fd).frames, tcpHeaderSize + frame.payload.length ≤ tcpMaxPacketSize := by
  have told : ∀ frame ∈ (log.line fd).frames, Told tcp frame := by
    intro frame member
    obtain ⟨u, known, rfl⟩ := List.mem_map.mp member
    exact relayed.told _ (Worker.Log_line_member known)
  have begun : frameVideos (log.line fd).frames ⊆ handed := by
    intro data member
    obtain ⟨frame, known, rfl⟩ := List.mem_map.mp member
    obtain ⟨inside, video⟩ := List.mem_filter.mp known
    obtain ⟨u, there, rfl⟩ := List.mem_map.mp inside
    apply relayed.begun.subset
    exact List.mem_map_of_mem (List.mem_filter.mpr ⟨Worker.Log_line_member there, video⟩)
  refine ⟨told, told_small told begun ?_⟩
  intro data member
  obtain ⟨unit, given, rfl⟩ := List.mem_map.mp (relayed.order.subset member)
  exact small unit given

theorem tcpConfig_stream (cfg : Worker.WorkerRenderConfig) (videoFormat width height : Int)
    (negotiated : UInt32 × UInt32 × UInt32) {most : Nat} (some_ : 1 ≤ most)
    (served : cfg.streamId.toNat ≤ most) :
    (tcpConfig cfg videoFormat width height negotiated).streamId ≠ 0 ∧
      (tcpConfig cfg videoFormat width height negotiated).streamId.toNat ≤ most := by
  simp only [tcpConfig]
  split
  · rename_i set
    exact ⟨set, served⟩
  · exact ⟨by decide, some_⟩

/-- The video packets that begin the connections are frames handed to the sender, in their order;
all of them if no fatal code is set and nothing that came whole is missing. -/
theorem received_videos {tcp : Sender.TcpSenderConfig} {units : List DecodeUnit} {t : Worker.Session}
    {handed : List Bytes} {log : Log} (relayed : Worker.Relayed tcp units t handed log)
    {received : Nat → List TlvPacket}
    (frames : ∀ fd, (received fd).map TlvPacket.frame <+: (log.line fd).frames) :
    (packetVideos ((List.range t.system.sockets).flatMap received)).Sublist handed ∧
      (t.fatal = .none →
        (∀ fd, (received fd).map TlvPacket.frame = wholeFrames (log.line fd)) →
        packetVideos ((List.range t.system.sockets).flatMap received) = handed) := by
  obtain ⟨all_frames, all_whole⟩ := lines_frames relayed.carries.known relayed.carries.sorted
  rw [packetVideos_frames, List.map_flatMap]
  constructor
  · have within := (List.Sublist.flatMap_right (List.range t.system.sockets) fun fd _ =>
      (frames fd).sublist).filter fun frame => frame.type = tcpMsgTypeVideoData
    rw [all_frames] at within
    exact (within.map Frame.payload).trans relayed.begun
  · intro unset came
    simp only [came]
    rw [all_whole, ← relayed.all unset, frameVideos, Log.videos, List.filter_map, List.map_map,
      List.filter_filter]
    simp only [Function.comp_def, Bool.decide_and]

theorem sentence_tail {frames : List Frame} (sentence : Sender.Sentence frames) :
    ∀ frame ∈ frames.tail, frame.type ≠ tcpMsgTypeStreamStart := by
  have inner {frame : Frame} (inside : frame.Inner) : frame.type ≠ tcpMsgTypeStreamStart := by
    rcases inside with same | same <;> rw [same] <;> decide
  cases sentence with
  | empty => nofun
  | started _ all => exact fun frame member => inner (all frame member)
  | stopped _ all closes =>
    intro frame member
    rcases List.mem_append.mp member with inside | last
    · exact inner (all frame inside)
    · obtain rfl := List.mem_singleton.mp last
      rw [closes]
      decide

theorem code_start {type : MessageType} (start : type.code = tcpMsgTypeStreamStart) :
    type = .streamStart := by
  revert start
  cases type <;> decide

theorem relayed_reaches {tcp : Sender.TcpSenderConfig} {units : List DecodeUnit} {t : Worker.Session}
    {handed : List Bytes} {log : Log} (relayed : Worker.Relayed tcp units t handed log)
    (named : tcp.streamId ≠ 0) (served : tcp.streamId.toNat ≤ maxStreamsLimit)
    (small : ∀ unit ∈ units, tcpHeaderSize + unit.bytes.length ≤ tcpMaxPacketSize)
    (arrives : Nat → Nat) : ∃ received, Reaches tcp units t handed arrives received := by
  have line := relayed_line relayed small
  choose received handles frames whole using fun fd =>
    line_received (relayed.carries.orderly fd) (line fd).1 named served (line fd).2 (arrives fd)
  refine ⟨received, ?_, ?_, ?_, ?_, ?_, ?_⟩
  · intro fd
    rw [relayed.carries.written]
    exact handles fd
  · intro fd packet first
    have opened : packet.frame = Sender.startFrame tcp := by
      obtain ⟨rest, split⟩ := List.head?_eq_some_iff.mp first
      obtain ⟨later, line⟩ := frames fd
      rw [split, List.map_cons, List.cons_append] at line
      obtain ⟨u, behind, begins, same, -⟩ := List.map_eq_cons_iff.mp line.symm
      rw [← same]
      exact relayed.opens fd u (by rw [begins]; rfl)
    have start : packet.type.code = tcpMsgTypeStreamStart := congrArg Frame.type opened
    have payload : packet.payload = Sender.System.streamInfoBytes tcp.info :=
      congrArg Frame.payload opened
    refine ⟨code_start start, ?_⟩
    rw [payload]
    apply Sender.parse_received
    rw [List.append_nil]
  · intro fd packet member start
    have later : packet.frame ∈ (log.line fd).frames.tail := by
      have some_there : (received fd).map TlvPacket.frame ≠ [] := by
        intro empty
        rw [List.map_eq_nil_iff.mp empty] at member
        cases member
      obtain ⟨rest, line⟩ := frames fd
      rw [← line, List.tail_append_of_ne_nil some_there, ← List.map_tail]
      exact List.mem_append_left _ (List.mem_map_of_mem member)
    apply sentence_tail (Sender.orderly_sentence (relayed.carries.orderly fd)).1 _ later
    rw [TlvPacket.frame, start]
    rfl
  · intro fd packet member
    exact told_stream ((line fd).1 _ ((frames fd).subset (List.mem_map_of_mem member)))
  · exact (received_videos relayed frames).1.trans relayed.order
  · intro unset there
    apply (received_videos relayed frames).2 unset
    intro fd
    apply whole
    rw [← relayed.carries.written]
    exact there fd

/-- From the units that a worker is given to the packets that the server handles: on every
connection first the metadata of the stream, once, and over all connections each unit at most
once and in order; all of them if no fatal code is set and the bytes arrive. -/
theorem worker_reaches_server {cfg : Worker.WorkerRenderConfig} {videoFormat width height : Int}
    {malloc : Bool} {connect : Sender.ConnectAnswers} {w : Worker.Session}
    (accepted : Worker.Session.start.workerSetup videoFormat width height (some cfg) malloc connect =
      (w, true)) (served : cfg.streamId.toNat ≤ maxStreamsLimit)
    (events : List Event) (proper : ∀ event ∈ events, event.Proper)
    (small : ∀ unit ∈ events.filterMap Event.unit,
      tcpHeaderSize + unit.bytes.length ≤ tcpMaxPacketSize) (arrives : Nat → Nat) :
    ∃ t handed received, w.run events = some (t, handed) ∧
      Reaches (tcpConfig cfg videoFormat width height (cfg.codec, cfg.chroma, cfg.bitdepth))
        (events.filterMap Event.unit) t handed arrives received := by
  obtain ⟨t, handed, log, ran, relayed⟩ := Worker.session_relays accepted events proper
  obtain ⟨named, below⟩ := tcpConfig_stream cfg videoFormat width height
    (cfg.codec, cfg.chroma, cfg.bitdepth) (by decide) served
  obtain ⟨received, reaches⟩ := relayed_reaches relayed named below small arrives
  exact ⟨t, handed, received, ran, reaches⟩

/-- The first unit is cut after four bytes, and the second goes out on a new connection. -/
theorem worker_reaches_server_reconnect : ∃ t handed received,
    Worker.sampleSetup.1.run Worker.sampleEvents = some (t, handed) ∧
      Reaches (tcpConfig Worker.sampleOptions Worker.videoFormatH265 1920 1080 (1, 0, 8))
        [Worker.sampleUnit, Worker.sampleUnit] t handed (fun _ => 100) received :=
  worker_reaches_server
    (show Worker.Session.start.workerSetup Worker.videoFormatH265 1920 1080 (some Worker.sampleOptions) true
      Worker.goodConnect = (Worker.sampleSetup.1, true) from Prod.ext rfl (by decide))
    (by decide) Worker.sampleEvents
    (by simp [Worker.sampleEvents, Event.Proper, Worker.sampleUnit_proper])
    (by decide) fun _ => 100

end StreamRelay.Server
