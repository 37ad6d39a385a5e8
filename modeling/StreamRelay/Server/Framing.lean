import StreamRelay.Capacity
import StreamRelay.Server.Header

/-! The handler of one client: the packets that it takes from the stream of bytes, whatever
pieces the stream comes in. -/
namespace StreamRelay.Server

/-- What one recv returns: some bytes, one and so many further ones if they are asked for and
have come, or an error. -/
inductive RecvAnswer where
  | some (further : Nat)
  | interrupted
  | failed
  deriving DecidableEq, Repr

/-- The bytes that will come before the peer closes, and the answers of the system. -/
structure Inbound where
  bytes : Bytes
  answers : List RecvAnswer
  deriving DecidableEq, Repr

/-- The loop of recv_exact with the count still wanted and the bytes received. When the answers
end each recv returns all that is asked for and has come. -/
def recvLoop : (wanted : Nat) → (received bytes : Bytes) → List RecvAnswer → Option Bytes × Inbound
  | wanted, received, bytes, [] =>
    if wanted ≤ bytes.length then (some (received ++ bytes.take wanted), ⟨bytes.drop wanted, []⟩)
    else (none, ⟨[], []⟩)
  | wanted, received, bytes, answer :: rest =>
    if wanted = 0 then (some received, ⟨bytes, answer :: rest⟩)
    else
      match answer with
      | .interrupted => recvLoop wanted received bytes rest
      | .failed => (none, ⟨bytes, rest⟩)
      | .some further =>
        if bytes = [] then (none, ⟨[], rest⟩)
        else
          let count := min (further + 1) (min wanted bytes.length)
          recvLoop (wanted - count) (received ++ bytes.take count) (bytes.drop count) rest

def recvExact (n : Nat) (inbound : Inbound) : Option Bytes × Inbound :=
  recvLoop n [] inbound.bytes inbound.answers

/-- No recv fails or times out. -/
def Inbound.Patient (inbound : Inbound) : Prop := ∀ answer ∈ inbound.answers, answer ≠ .failed

theorem recvLoop_spec (wanted : Nat) (received bytes : Bytes) {answers : List RecvAnswer}
    (patient : ∀ answer ∈ answers, answer ≠ .failed) :
    (recvLoop wanted received bytes answers).2.Patient ∧
      (wanted ≤ bytes.length →
        (recvLoop wanted received bytes answers).1 = some (received ++ bytes.take wanted) ∧
          (recvLoop wanted received bytes answers).2.bytes = bytes.drop wanted) ∧
      (bytes.length < wanted → (recvLoop wanted received bytes answers).1 = none) := by
  induction answers generalizing wanted received bytes with
  | nil =>
    simp only [recvLoop]
    split
    · rename_i enough
      exact ⟨nofun, fun _ => ⟨rfl, rfl⟩, fun short => absurd enough (Nat.not_le.mpr short)⟩
    · rename_i short
      exact ⟨nofun, fun enough => absurd enough short, fun _ => rfl⟩
  | cons answer rest ih =>
    have later := fun a member => patient a (List.mem_cons_of_mem answer member)
    by_cases done : wanted = 0
    · subst done
      simp only [recvLoop, if_pos]
      exact ⟨patient, by simp, fun short => absurd short (Nat.not_lt_zero _)⟩
    · simp only [recvLoop, if_neg done]
      cases answer with
      | interrupted => exact ih wanted received bytes later
      | failed => exact absurd rfl (patient .failed List.mem_cons_self)
      | some further =>
        dsimp only
        split
        · rename_i closed
          subst closed
          refine ⟨later, fun enough => absurd (Nat.le_zero.mp enough) done, fun _ => rfl⟩
        · rename_i open_
          generalize chosen : min (further + 1) (min wanted bytes.length) = count
          have asked : count ≤ wanted := by omega
          have there : count ≤ bytes.length := by omega
          obtain ⟨still, all, short⟩ :=
            ih (wanted - count) (received ++ bytes.take count) (bytes.drop count) later
          rw [List.length_drop] at all short
          refine ⟨still, fun enough => ?_, fun lacking => short (by omega)⟩
          obtain ⟨got, left⟩ := all (by omega)
          constructor
          · rw [got, List.append_assoc, ← List.take_add, Nat.add_sub_cancel' asked]
          · rw [left, List.drop_drop, Nat.add_sub_cancel' asked]

theorem recvExact_all {n : Nat} {inbound : Inbound} (patient : inbound.Patient)
    {got left : Bytes} (split : inbound.bytes = got ++ left) (length : got.length = n) :
    (recvExact n inbound).1 = some got ∧ (recvExact n inbound).2.bytes = left ∧
      (recvExact n inbound).2.Patient := by
  obtain ⟨still, all, -⟩ := recvLoop_spec n [] inbound.bytes patient
  obtain ⟨took, dropped⟩ := all (by rw [split, List.length_append]; omega)
  rw [split, List.nil_append, List.take_left' length] at took
  rw [split, List.drop_left' length] at dropped
  refine ⟨?_, ?_, still⟩
  · rw [recvExact, split, took]
  · rw [recvExact, split, dropped]

theorem recvExact_short {n : Nat} {inbound : Inbound} (patient : inbound.Patient)
    (short : inbound.bytes.length < n) : (recvExact n inbound).1 = none :=
  (recvLoop_spec n [] inbound.bytes patient).2.2 short

/-- The loop that enlarges the buffer for a payload, for so many rounds at most. -/
def sizeLoop (need least : Nat) : Nat → Nat → Nat
  | 0, size => size
  | rounds + 1, size =>
    if size < need then
      let twice := size * 2 % 2 ^ 64
      if twice < least then need else sizeLoop need least rounds twice
    else size

theorem sizeLoop_enough {need : Nat} (least : Nat) (word : need < 2 ^ 32) :
    ∀ rounds size, 0 < size → need ≤ size + rounds → need ≤ sizeLoop need least rounds size
  | 0, size, _, near => near
  | rounds + 1, size, positive, near => by
    simp only [sizeLoop]
    split
    · rename_i small
      have fits : size * 2 % 2 ^ 64 = size * 2 := Nat.mod_eq_of_lt (by omega)
      rw [fits]
      split
      · exact le_rfl
      · exact sizeLoop_enough least word rounds (size * 2) (by omega) (by omega)
    · omega

structure Client where
  inbound : Inbound
  recvBuf : Bytes

def defaultRecvBufSize : Nat := 1024 * 1024

namespace Client

/-- A buffer of so many bytes that hold what the memory holds. -/
def create (memory : Nat → UInt8) (inbound : Inbound) : Client :=
  ⟨inbound, (List.range defaultRecvBufSize).map memory⟩

/-- Room for a payload; the buffer keeps its content and grows at the end. -/
def reserve (memory : Nat → UInt8) (realloc : Nat → Bool) (payloadLen : Nat) (client : Client) :
    Option Client :=
  let old := client.recvBuf.length
  if payloadLen > old then
    let size := sizeLoop payloadLen old payloadLen old
    if realloc size then
      some {client with recvBuf := client.recvBuf ++ (List.range (size - old)).map memory}
    else none
  else some client

/-- What was received, over the beginning of the buffer and not beyond its end. -/
def store (received : Bytes) (client : Client) : Client :=
  {client with
    recvBuf := (received ++ client.recvBuf.drop received.length).take client.recvBuf.length}

end Client

section Handler

variable {Server : Type*} (memory : Nat → UInt8) (realloc : Nat → Bool)
  (handlePacket : PacketHeader → Bytes → Server → Server)

/-- The loop of client_handler for so many rounds, while the server runs: what is left of the
server when the loop has ended. -/
def handlerLoop : Nat → Client → Server → Option Server
  | 0, _, _ => none
  | rounds + 1, client, server =>
    let headerBuf := recvExact tcpHeaderSize client.inbound
    let client := {client with inbound := headerBuf.2}
    match headerBuf.1.bind protocolParseHeader with
    | none => some server
    | some header =>
      let payloadLen := (header.length - UInt32.ofNat tcpHeaderSize).toNat
      if payloadLen > 0 then
        if payloadLen > tcpMaxPacketSize then some server
        else
          match client.reserve memory realloc payloadLen with
          | none => some server
          | some client =>
            let payload := recvExact payloadLen client.inbound
            match payload.1 with
            | none => some server
            | some received =>
              let client := {client with inbound := payload.2}.store received
              handlerLoop rounds client
                (handlePacket header (client.recvBuf.take payloadLen) server)
      else handlerLoop rounds client (handlePacket header [] server)

/-- Each packet takes a header at least, so the bytes bound the rounds. -/
def clientHandler (inbound : Inbound) (server : Server) : Option Server :=
  handlerLoop memory realloc handlePacket (inbound.bytes.length + 1) (.create memory inbound) server

end Handler

/-- A packet that the protocol allows. -/
structure TlvPacket where
  type : MessageType
  streamId : UInt16
  payload : Bytes
  named : streamId ≠ 0
  known : streamId.toNat ≤ maxStreamsLimit
  fits : tcpHeaderSize + payload.length ≤ tcpMaxPacketSize

namespace TlvPacket

def header (packet : TlvPacket) : PacketHeader :=
  ⟨UInt32.ofNat (tcpHeaderSize + packet.payload.length), packet.type.code, packet.streamId⟩

def headerBuf (packet : TlvPacket) : Bytes :=
  protocolBuildHeader packet.type.code packet.streamId (UInt32.ofNat packet.payload.length)

def encode (packet : TlvPacket) : Bytes := packet.headerBuf ++ packet.payload

@[simp] theorem headerBuf_length (packet : TlvPacket) :
    packet.headerBuf.length = tcpHeaderSize := rfl

theorem encode_length (packet : TlvPacket) :
    packet.encode.length = tcpHeaderSize + packet.payload.length := by
  rw [encode, List.length_append, headerBuf_length]

theorem payload_word (packet : TlvPacket) : packet.payload.length < 2 ^ 32 := by
  have fits := packet.fits
  simp only [tcpMaxPacketSize] at fits
  omega

theorem header_length (packet : TlvPacket) :
    packet.header.length.toNat = tcpHeaderSize + packet.payload.length := by
  have fits := packet.fits
  apply UInt32.toNat_ofNat_of_lt'
  simp only [tcpMaxPacketSize] at fits
  simp only [UInt32.size]
  omega

theorem payloadLen (packet : TlvPacket) :
    (packet.header.length - UInt32.ofNat tcpHeaderSize).toNat = packet.payload.length := by
  have length := packet.header_length
  have seven : (UInt32.ofNat tcpHeaderSize).toNat = tcpHeaderSize := rfl
  rw [UInt32.toNat_sub_of_le, length, seven, Nat.add_sub_cancel_left]
  rw [UInt32.le_iff_toNat_le, length, seven]
  exact Nat.le_add_right _ _

theorem headerBuf_total (packet : TlvPacket) :
    packet.headerBuf =
      headerBytes (tcpHeaderSize + packet.payload.length) packet.type.code packet.streamId := by
  have total : (UInt32.ofNat tcpHeaderSize + UInt32.ofNat packet.payload.length).toNat =
      tcpHeaderSize + packet.payload.length := by
    rw [← UInt32.ofNat_add]
    exact packet.header_length
  rw [headerBuf, protocolBuildHeader, total]

theorem parse_headerBuf (packet : TlvPacket) :
    protocolParseHeader packet.headerBuf = some packet.header := by
  have read := read_headerBytes (tcpHeaderSize + packet.payload.length) packet.type.code
    packet.streamId []
  rw [List.append_nil, ← headerBuf_total] at read
  apply (protocolParseHeader_iff _ _).mpr
  refine ⟨read, ?_, ?_, code_known packet.type, packet.named, packet.known⟩
  · rw [header_length]
    exact Nat.le_add_right _ _
  · rw [header_length]
    exact packet.fits

end TlvPacket

/-- The packets that lie wholly in the first so many bytes. -/
def wholly : Nat → List TlvPacket → List TlvPacket
  | _, [] => []
  | n, packet :: later =>
    if packet.encode.length ≤ n then packet :: wholly (n - packet.encode.length) later else []

theorem wholly_all (packets : List TlvPacket) {n : Nat}
    (all : (packets.flatMap TlvPacket.encode).length ≤ n) : wholly n packets = packets := by
  induction packets generalizing n with
  | nil => rfl
  | cons packet later ih =>
    rw [List.flatMap_cons, List.length_append] at all
    rw [wholly, if_pos (by omega), ih (by omega)]

/-- They are the first packets, and no more of them lie in these bytes. -/
theorem wholly_iff (packets first : List TlvPacket) (n : Nat) :
    first <+: wholly n packets ↔
      first <+: packets ∧ (first.flatMap TlvPacket.encode).length ≤ n := by
  induction packets generalizing first n with
  | nil =>
    simp only [wholly, List.prefix_nil]
    constructor
    · rintro rfl
      exact ⟨rfl, Nat.zero_le n⟩
    · exact And.left
  | cons packet later ih =>
    rcases first with - | ⟨head, first⟩
    · simp
    · simp only [wholly]
      split
      · rename_i fits
        rw [List.cons_prefix_cons, List.cons_prefix_cons, ih, List.flatMap_cons,
          List.length_append]
        constructor
        · rintro ⟨rfl, within, short⟩
          exact ⟨⟨rfl, within⟩, by omega⟩
        · rintro ⟨⟨rfl, within⟩, short⟩
          exact ⟨rfl, within, by omega⟩
      · rename_i torn
        rw [List.cons_prefix_cons, List.flatMap_cons, List.length_append]
        constructor
        · intro absurd_
          cases List.prefix_nil.mp absurd_
        · rintro ⟨⟨rfl, -⟩, short⟩
          omega

section Delivery

variable {Server : Type*} {memory : Nat → UInt8} {realloc : Nat → Bool}
  {handlePacket : PacketHeader → Bytes → Server → Server}

/-- What is left when the handler is called for each packet in turn. -/
def deliver (handlePacket : PacketHeader → Bytes → Server → Server) (packets : List TlvPacket)
    (server : Server) : Server :=
  packets.foldl (fun server packet => handlePacket packet.header packet.payload server) server

/-- With the system's help there is room for the payload, and the socket is left alone. -/
theorem reserve_room (memory : Nat → UInt8) (granted : ∀ size, realloc size = true) (client : Client)
    (positive : 0 < client.recvBuf.length) {payloadLen : Nat} (word : payloadLen < 2 ^ 32) :
    ∃ roomy, client.reserve memory realloc payloadLen = some roomy ∧
      roomy.inbound = client.inbound ∧ payloadLen ≤ roomy.recvBuf.length ∧
      0 < roomy.recvBuf.length := by
  simp only [Client.reserve, granted, if_true]
  split
  · rename_i small
    have enough := sizeLoop_enough client.recvBuf.length word payloadLen client.recvBuf.length positive
      (Nat.le_add_left _ _)
    refine ⟨_, rfl, rfl, ?_, ?_⟩
    · simp only [List.length_append, List.length_map, List.length_range]
      omega
    · simp only [List.length_append]
      omega
  · rename_i roomy
    exact ⟨client, rfl, rfl, Nat.not_lt.mp roomy, positive⟩

/-- What was stored is what the handler is given. -/
theorem store_take (client : Client) {received : Bytes}
    (room : received.length ≤ client.recvBuf.length) :
    (client.store received).recvBuf.take received.length = received ∧
      (client.store received).recvBuf.length = client.recvBuf.length := by
  constructor
  · rw [Client.store, List.take_take, Nat.min_eq_left room, List.take_left]
  · simp only [Client.store, List.length_take, List.length_append, List.length_drop]
    omega

/-- The handler stops if the header is not whole. -/
theorem handlerLoop_closed {client : Client} (patient : client.inbound.Patient)
    (short : client.inbound.bytes.length < tcpHeaderSize) (rounds : Nat) (server : Server) :
    handlerLoop memory realloc handlePacket (rounds + 1) client server = some server := by
  simp only [handlerLoop, recvExact_short patient short, Option.bind_none]

/-- The client after a whole header, and the way the handler goes on. -/
theorem handlerLoop_header {client : Client} {packet : TlvPacket} {left : Bytes}
    (patient : client.inbound.Patient) (come : client.inbound.bytes = packet.headerBuf ++ left) :
    (recvExact tcpHeaderSize client.inbound).1.bind protocolParseHeader = some packet.header ∧
      (recvExact tcpHeaderSize client.inbound).2.bytes = left ∧
      (recvExact tcpHeaderSize client.inbound).2.Patient := by
  obtain ⟨got, rest, still⟩ := recvExact_all patient come packet.headerBuf_length
  rw [got]
  exact ⟨packet.parse_headerBuf, rest, still⟩

/-- The handler stops if the payload is not whole. -/
theorem handlerLoop_torn (granted : ∀ size, realloc size = true) {client : Client}
    (positive : 0 < client.recvBuf.length) (patient : client.inbound.Patient) {packet : TlvPacket}
    {left : Bytes} (come : client.inbound.bytes = packet.headerBuf ++ left)
    (short : left.length < packet.payload.length) (rounds : Nat) (server : Server) :
    handlerLoop memory realloc handlePacket (rounds + 1) client server = some server := by
  obtain ⟨parsed, rest, still⟩ := handlerLoop_header patient come
  obtain ⟨roomy, room, same, -⟩ := reserve_room memory granted
    {client with inbound := (recvExact tcpHeaderSize client.inbound).2} positive
    packet.payload_word
  have lacking : (recvExact packet.payload.length roomy.inbound).1 = none := by
    rw [same]
    exact recvExact_short still (by rw [rest]; exact short)
  simp only [handlerLoop, parsed, TlvPacket.payloadLen, room, lacking, ite_self]
  rw [if_pos (Nat.zero_lt_of_lt short)]

theorem handlerLoop_packet (granted : ∀ size, realloc size = true) {client : Client}
    (positive : 0 < client.recvBuf.length) (patient : client.inbound.Patient) {packet : TlvPacket}
    {left : Bytes} (come : client.inbound.bytes = packet.encode ++ left) (rounds : Nat)
    (server : Server) :
    ∃ next : Client, 0 < next.recvBuf.length ∧ next.inbound.Patient ∧ next.inbound.bytes = left ∧
      handlerLoop memory realloc handlePacket (rounds + 1) client server =
        handlerLoop memory realloc handlePacket rounds next
          (handlePacket packet.header packet.payload server) := by
  rw [TlvPacket.encode, List.append_assoc] at come
  obtain ⟨parsed, rest, still⟩ := handlerLoop_header patient come
  by_cases empty : packet.payload = []
  · refine ⟨{client with inbound := (recvExact tcpHeaderSize client.inbound).2}, positive, still,
      ?_, ?_⟩
    · dsimp only
      rw [rest, empty, List.nil_append]
    · simp only [handlerLoop, parsed, TlvPacket.payloadLen, empty, List.length_nil, gt_iff_lt,
        lt_self_iff_false, if_false]
  · obtain ⟨roomy, room, same, fits, large⟩ := reserve_room memory granted
      {client with inbound := (recvExact tcpHeaderSize client.inbound).2} positive
      packet.payload_word
    have ahead := (congrArg Inbound.bytes same).trans rest
    have calm : roomy.inbound.Patient := by
      rw [same]
      exact still
    obtain ⟨got, behind, patient⟩ := recvExact_all calm ahead rfl
    obtain ⟨kept, size⟩ := store_take
      {roomy with inbound := (recvExact packet.payload.length roomy.inbound).2} fits
    refine ⟨Client.store packet.payload
      {roomy with inbound := (recvExact packet.payload.length roomy.inbound).2}, ?_, patient, behind,
      ?_⟩
    · rw [size]
      exact large
    · have within : ¬packet.payload.length > tcpMaxPacketSize := by
        have := packet.fits
        omega
      simp only [handlerLoop, parsed, TlvPacket.payloadLen, room, got]
      rw [if_pos (List.length_pos_iff.mpr empty), if_neg within, kept]

/-- From any buffer, on the packets as far as they have come. -/
theorem handlerLoop_wholly (granted : ∀ size, realloc size = true) (packets : List TlvPacket)
    {n : Nat} {client : Client} (positive : 0 < client.recvBuf.length)
    (patient : client.inbound.Patient)
    (come : client.inbound.bytes = (packets.flatMap TlvPacket.encode).take n) {rounds : Nat}
    (enough : client.inbound.bytes.length < rounds) (server : Server) :
    handlerLoop memory realloc handlePacket rounds client server =
      some (deliver handlePacket (wholly n packets) server) := by
  induction packets generalizing n client rounds server with
  | nil =>
    obtain ⟨rounds, rfl⟩ := Nat.exists_eq_succ_of_ne_zero (Nat.ne_zero_of_lt enough)
    apply handlerLoop_closed patient
    rw [come, List.flatMap_nil, List.take_nil]
    decide
  | cons packet later ih =>
    obtain ⟨rounds, rfl⟩ := Nat.exists_eq_succ_of_ne_zero (Nat.ne_zero_of_lt enough)
    rw [List.flatMap_cons, List.take_append] at come
    have length := packet.encode_length
    rw [wholly]
    split
    · rename_i whole
      rw [List.take_of_length_le whole] at come
      obtain ⟨next, room, still, left, went⟩ :=
        handlerLoop_packet granted positive patient come rounds server
      have fewer : next.inbound.bytes.length < rounds := by
        rw [come, ← left, List.length_append, length] at enough
        simp only [tcpHeaderSize] at enough
        omega
      rw [went, ih room still left fewer]
      rfl
    · rename_i torn
      have none_left : n - packet.encode.length = 0 := by omega
      rw [none_left, List.take_zero, List.append_nil] at come
      by_cases short : n < tcpHeaderSize
      · apply handlerLoop_closed patient
        rw [come, List.length_take]
        omega
      · rw [TlvPacket.encode, List.take_append, packet.headerBuf_length,
          List.take_of_length_le (by rw [packet.headerBuf_length]; omega)] at come
        apply handlerLoop_torn granted positive patient come
        rw [List.length_take]
        omega

end Delivery

/-- The handler hands on exactly the packets that came whole before the cut, in order and as
they were sent, and then ends. -/
theorem clientHandler_delivers {Server : Type*} (memory : Nat → UInt8) (realloc : Nat → Bool)
    (granted : ∀ size, realloc size = true)
    (handlePacket : PacketHeader → Bytes → Server → Server) (packets : List TlvPacket)
    (cut : Nat) (answers : List RecvAnswer) (patient : ∀ answer ∈ answers, answer ≠ .failed)
    (server : Server) :
    clientHandler memory realloc handlePacket
        ⟨(packets.flatMap TlvPacket.encode).take cut, answers⟩ server =
      some (deliver handlePacket (wholly cut packets) server) ∧
    ((packets.flatMap TlvPacket.encode).length ≤ cut → wholly cut packets = packets) ∧
    ∀ first, first <+: wholly cut packets ↔
      first <+: packets ∧ (first.flatMap TlvPacket.encode).length ≤ cut := by
  refine ⟨?_, wholly_all packets, fun first => wholly_iff packets first cut⟩
  apply handlerLoop_wholly granted packets
  · simp only [Client.create, List.length_map, List.length_range]
    decide
  · exact patient
  · rfl
  · exact Nat.lt_succ_self _

/-- The server's own handle_packet, with what the system answers to its calls. -/
def State.receive {Picture : Type*} (cfg : ServerConfig) (codec : Codec Picture)
    (answers : Nat → PacketAnswers) (header : PacketHeader) (payload : Bytes)
    (s : State Picture × Nat) : State Picture × Nat :=
  match MessageType.ofCode header.type with
  | some type =>
    (s.1.handlePacket cfg codec ⟨type, header.streamId.toNat, payload⟩ (answers s.2), s.2 + 1)
  | none => (s.1, s.2 + 1)

/-- The packets of a client are inputs of the server. -/
theorem deliver_receive {Picture : Type*} (cfg : ServerConfig) (codec : Codec Picture)
    (answers : Nat → PacketAnswers) (packets : List TlvPacket) (s : State Picture) (calls : Nat) :
    (deliver (State.receive cfg codec answers) packets (s, calls)).1 =
      Run.run (step cfg codec) s ((packets.zipIdx calls).map fun (packet, call) =>
        .packet ⟨packet.type, packet.streamId.toNat, packet.payload⟩ (answers call)) := by
  induction packets generalizing s calls with
  | nil => rfl
  | cons packet later ih =>
    have received : State.receive cfg codec answers packet.header packet.payload (s, calls) =
        (s.handlePacket cfg codec ⟨packet.type, packet.streamId.toNat, packet.payload⟩
          (answers calls), calls + 1) := by
      simp only [State.receive, TlvPacket.header, ofCode_code]
    rw [deliver, List.foldl_cons, received]
    exact ih _ (calls + 1)

def samplePacket : TlvPacket :=
  ⟨.videoData, 7, [0, 0, 1], by decide, by decide, by decide⟩

/-- The second packet is cut in its payload. -/
theorem clientHandler_delivers_cut :
    clientHandler (fun _ => 0) (fun _ => true) (fun header payload log => log ++ [(header, payload)])
        ⟨([samplePacket, samplePacket].flatMap TlvPacket.encode).take 18,
          [.some 2, .interrupted, .some 0, .some 11]⟩ [] =
      some [(⟨10, tcpMsgTypeVideoData, 7⟩, [0, 0, 1])] :=
  (clientHandler_delivers (fun _ => 0) (fun _ => true) (fun _ => rfl)
    (fun header payload log => log ++ [(header, payload)]) [samplePacket, samplePacket] 18
    [.some 2, .interrupted, .some 0, .some 11] (by decide) []).1

end StreamRelay.Server
