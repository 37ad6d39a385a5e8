import StreamRelay.Protocol
import StreamRelay.Capacity

/-! One subscriber of the H.264 tap: the buffer kept for it while its socket is full, and
what a published access unit does to it. The stream server and the agent each have a copy
of this code; they differ in the bookkeeping of the recovery after a stall. -/
namespace StreamRelay.Tap

inductive Copy
  | server
  | agent
  deriving DecidableEq, Repr

/-- g_stall_ms and g_drop_to_idr. -/
structure Config where
  stallMs : UInt64
  dropToIdr : Bool

def startCode4 : Bytes := [0, 0, 0, 1]

def startCode3 : Bytes := [0, 0, 1]

def hasStartCode (data : Bytes) : Bool :=
  data.take 4 == startCode4 || data.take 3 == startCode3

/-- The scan stops where fewer than five bytes are left. -/
def containsNalType (nalType : UInt8) : Bytes → Bool
  | a :: b :: c :: d :: e :: rest =>
    if a = 0 ∧ b = 0 ∧ c = 1 then
      d &&& 0x1F == nalType || containsNalType nalType (e :: rest)
    else if a = 0 ∧ b = 0 ∧ c = 0 ∧ d = 1 then
      e &&& 0x1F == nalType || containsNalType nalType rest
    else containsNalType nalType (b :: c :: d :: e :: rest)
  | _ => false

def isIdr (data : Bytes) : Bool := containsNalType 5 data

def firstNalType (data : Bytes) : Option UInt8 :=
  if data.take 4 = startCode4 then data[4]?.map (· &&& 0x1F)
  else if data.take 3 = startCode3 then data[3]?.map (· &&& 0x1F)
  else none

/-- What is assembled in `out_buf` for one access unit. Whether it was in the recovery and
of which publication the access unit is, is noted for the observer. -/
structure TapPacket where
  sps : Bytes
  pps : Bytes
  startCode : Bytes
  payload : Bytes
  recovery : Bool
  number : Nat
  deriving DecidableEq, Repr

def TapPacket.bytes (p : TapPacket) : Bytes := p.sps ++ p.pps ++ p.startCode ++ p.payload

/-- The fields of TapClient. `fd` is the accepted connection, `out` the first `out_len` bytes
of `out_buf`, an empty `sps` or `pps` an absent one; `pendingIdr` is in the agent only. -/
structure TapClient where
  fd : Option Nat
  streamId : Nat
  active : Bool
  out : Option TapPacket
  outCap : Nat
  outOff : Nat
  outStartNs : UInt64
  needIdr : Bool
  pendingIdr : Bool
  sps : Bytes
  pps : Bytes

/-- A slot as `client_close` leaves it. -/
def TapClient.closed : TapClient :=
  { fd := none, streamId := 0, active := false, out := none, outCap := 0, outOff := 0,
    outStartNs := 0, needIdr := false, pendingIdr := false, sps := [], pps := [] }

/-- The bytes between `out_off` and `out_len`. -/
def TapClient.pending (c : TapClient) : Bytes := (c.out.elim [] TapPacket.bytes).drop c.outOff

/-- A parameter set that comes alone in its payload is kept, if memory is granted. -/
def maybeCacheParamSets (c : TapClient) (data : Bytes) (granted : Bool) : TapClient :=
  if granted then
    match firstNalType data with
    | some 7 => {c with sps := data}
    | some 8 => {c with pps := data}
    | _ => c
  else c

/-- One outcome of `send`. -/
inductive SendAnswer
  | sent (n : Nat)
  | interrupted
  | wouldBlock
  | failed
  deriving DecidableEq, Repr

inductive SendEnd
  | all
  | blocked
  | closed
  deriving DecidableEq, Repr

/-- How many of the bytes left the socket takes and what ends the loop. Where the answers
run out the socket is full. -/
def sendLoop : List SendAnswer → Nat → Nat × SendEnd
  | _, 0 => (0, .all)
  | [], _ + 1 => (0, .blocked)
  | .sent 0 :: _, _ + 1 => (0, .closed)
  | .sent (n + 1) :: rest, left + 1 =>
    let took := min (n + 1) (left + 1)
    let later := sendLoop rest (left + 1 - took)
    (took + later.1, later.2)
  | .interrupted :: rest, left + 1 => sendLoop rest (left + 1)
  | .wouldBlock :: _, _ + 1 => (0, .blocked)
  | .failed :: _, _ + 1 => (0, .closed)

/-- `wrote` went to the socket; `cleared` is the returned value. -/
structure Flush where
  client : TapClient
  wrote : Bytes
  cleared : Bool

/-- The buffer is empty. In the agent a recovery that was waiting for this is over. -/
def emptied (copy : Copy) (c : TapClient) : TapClient :=
  let c := {c with out := none, outOff := 0, outStartNs := 0}
  match copy with
  | .server => c
  | .agent => if c.pendingIdr then {c with pendingIdr := false, needIdr := false} else c

def flushOutBuf (copy : Copy) (c : TapClient) (answers : List SendAnswer) : Flush :=
  if c.active then
    match sendLoop answers c.pending.length with
    | (took, .all) => ⟨emptied copy c, c.pending.take took, true⟩
    | (took, .blocked) => ⟨{c with outOff := c.outOff + took}, c.pending.take took, false⟩
    | (took, .closed) => ⟨.closed, c.pending.take took, true⟩
  else ⟨c, [], true⟩

/-- The environment of one client in one publication: whether its parameter-set cache is
granted memory, the clock of the stall test, the sends of the bytes left over, whether a
larger buffer is granted, the clock at the start of the packet and its sends. -/
structure ClientAnswers where
  caches : Bool
  stallClock : UInt64
  flushes : List SendAnswer
  allocates : Bool
  startClock : UInt64
  sends : List SendAnswer

def stalled (config : Config) (c : TapClient) (now : UInt64) : Bool :=
  c.pending ≠ [] && c.outStartNs ≠ 0 && config.stallMs * 1000 * 1000 < now - c.outStartNs

/-- Bytes left over for too long are given up, and the client waits for an IDR. -/
def dropStalled (config : Config) (c : TapClient) (now : UInt64) : TapClient :=
  if stalled config c now then
    {c with out := none, outOff := 0, outStartNs := 0, needIdr := c.needIdr || config.dropToIdr}
  else c

/-- The first half of a publication to one client, up to the rule that reads `need_idr`. -/
def flushPending (copy : Copy) (config : Config) (c : TapClient) (data : Bytes)
    (answers : ClientAnswers) : Flush :=
  let c := dropStalled config (maybeCacheParamSets c data answers.caches) answers.stallClock
  if c.pending = [] then ⟨c, [], true⟩ else flushOutBuf copy c answers.flushes

def ensureOutBuf (c : TapClient) (need : Nat) (granted : Bool) : TapClient :=
  if need ≤ c.outCap then c
  else if granted then
    {c with outCap := Capacity.grown need (if c.outCap = 0 then 256 * 1024 else c.outCap)}
  else c

/-- In the recovery the cached parameter sets go first. -/
def assemble (c : TapClient) (data : Bytes) (number : Nat) : TapPacket :=
  { sps := if c.needIdr then c.sps else []
    pps := if c.needIdr then c.pps else []
    startCode := if hasStartCode data then [] else startCode4
    payload := data
    recovery := c.needIdr
    number := number }

def load (copy : Copy) (c : TapClient) (packet : TapPacket) (now : UInt64) : TapClient :=
  let c := {c with out := some packet, outOff := 0, outStartNs := now}
  match copy with
  | .server => c
  | .agent => if c.needIdr && isIdr packet.payload then {c with pendingIdr := true} else c

/-- The server's copy leaves the recovery here, if the buffer is empty. -/
def settle (copy : Copy) (c : TapClient) (data : Bytes) : TapClient :=
  match copy with
  | .server => if c.needIdr && isIdr data && c.out.isNone then {c with needIdr := false} else c
  | .agent => c

/-- What a publication does with one client: the client after it, whether bytes were given
up, the flush of the bytes left over, the packet assembled and what was sent of it. -/
structure Served where
  client : TapClient
  dropped : Bool
  before : Flush
  packet : Option TapPacket
  wrote : Bytes

def publishClient (copy : Copy) (config : Config) (c : TapClient) (data : Bytes) (number : Nat)
    (answers : ClientAnswers) : Served :=
  let dropped := stalled config (maybeCacheParamSets c data answers.caches) answers.stallClock
  let before := flushPending copy config c data answers
  if !before.cleared then ⟨before.client, dropped, before, none, []⟩
  else if before.client.needIdr && !isIdr data then ⟨before.client, dropped, before, none, []⟩
  else
    let packet := assemble before.client data number
    let roomy := ensureOutBuf before.client packet.bytes.length answers.allocates
    if roomy.outCap < packet.bytes.length then ⟨roomy, dropped, before, none, []⟩
    else
      let after := flushOutBuf copy (load copy roomy packet answers.startClock) answers.sends
      ⟨settle copy after.client data, dropped, before, some packet, after.wrote⟩

end StreamRelay.Tap
