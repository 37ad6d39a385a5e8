import StreamRelay.Capacity
import StreamRelay.Run
import StreamRelay.Tlv

/-! The sender of a stream, with the bytes it has written on each of its connections. What
the system answers to a call is an argument of the call. -/
namespace StreamRelay.Sender

inductive TcpState where
  | disconnected
  | connecting
  | connected
  | error
  deriving DecidableEq, Repr

inductive TcpError where
  | none
  | noMemory
  | socketCreate
  | connect
  | send
  | notConnected
  | packetTooLarge
  deriving DecidableEq, Repr

structure TcpSenderConfig where
  host : Bytes
  port : UInt16
  streamId : UInt16
  info : StreamInfo
  deriving DecidableEq, Repr

def TcpSenderConfig.zero : TcpSenderConfig := ⟨[], 0, 0, .zero⟩

/-- The socket is the number of its connection; without a buffer its size is 0. -/
structure TcpSender where
  sockFd : Option Nat
  state : TcpState
  config : TcpSenderConfig
  packetsSent : UInt64
  bytesSent : UInt64
  lastHeartbeatNs : UInt64
  connectTimeNs : UInt64
  lastError : TcpError
  sendBufferSize : Nat
  deriving DecidableEq, Repr

def TcpSender.zero : TcpSender := ⟨none, .disconnected, .zero, 0, 0, 0, 0, .none, 0⟩

/-- What was written on a connection, and whether a send on it has failed. -/
structure Link where
  written : Bytes
  failed : Bool
  deriving DecidableEq, Repr

structure System where
  sender : TcpSender
  links : Nat → Link
  sockets : Nat

/-- A sender as tcp_sender_destroy leaves it, before its first call. -/
def System.zero : System := ⟨.zero, fun _ => ⟨[], false⟩, 0⟩

def defaultSendBufferSize : Nat := 2 * 1024 * 1024

def maxRetries : Nat := 100

/-- What one send returns; a count beyond what was asked for stands for all of it. When the
answers end the connection has failed. -/
inductive SendAnswer where
  | sent (count : Nat)
  | again
  | interrupted
  | error
  deriving DecidableEq, Repr

/-- The loop of send_all over the bytes that are left, with the bytes written. -/
def sendLoop : (data : Bytes) → (retries : Nat) → List SendAnswer → Bytes × Bool
  | data, _, [] => ([], data = [])
  | data, retries, answer :: rest =>
    if data = [] then ([], true)
    else if retries ≥ maxRetries then ([], false)
    else
      match answer with
      | .interrupted => sendLoop data retries rest
      | .again => sendLoop data (retries + 1) rest
      | .error => ([], false)
      | .sent count =>
        if count = 0 then ([], false)
        else
          let later := sendLoop (data.drop count) 0 rest
          (data.take count ++ later.1, later.2)

/-- The answers of the system to a call that writes one packet. -/
structure WriteAnswers where
  realloc : Bool
  sends : List SendAnswer

/-- How connect goes: at once, later, or not. -/
inductive ConnectAnswer where
  | done
  | inProgress (selected : Bool) (soError : Bool)
  | failed
  deriving DecidableEq, Repr

structure ConnectAnswers where
  socket : Bool
  resolved : Bool
  connect : ConnectAnswer
  now : UInt64
  start : WriteAnswers

namespace System

def onSender (f : TcpSender → TcpSender) (s : System) : System := {s with sender := f s.sender}

/-- ensure_buffer_size, with whether there is room. -/
def ensureBufferSize (needed : Nat) (realloc : Bool) (s : System) : System × Bool :=
  if s.sender.sendBufferSize ≥ needed then (s, true)
  else
    let size := if s.sender.sendBufferSize = 0 then defaultSendBufferSize else s.sender.sendBufferSize
    if realloc then
      (s.onSender fun sender => {sender with sendBufferSize := Capacity.grown needed size}, true)
    else (s.onSender fun sender => {sender with lastError := .noMemory}, false)

/-- send_all on the sender's socket, with whether all was sent. -/
def sendAll (data : Bytes) (sends : List SendAnswer) (s : System) : System × Bool :=
  match s.sender.sockFd with
  | none => (s, false)
  | some fd =>
    let sent := sendLoop data 0 sends
    let link : Link := ⟨(s.links fd).written ++ sent.1, (s.links fd).failed || !sent.2⟩
    ({s with links := Function.update s.links fd link}, sent.2)

def sendFailed (s : System) : System :=
  s.onSender fun sender => {sender with lastError := .send, state := .error}

def init (config : TcpSenderConfig) (malloc : Bool) (s : System) : System × Bool :=
  if config.port = 0 || config.host.headD 0 = 0 then (s, false)
  else if config.streamId = 0 then (s, false)
  else
    let sender := {TcpSender.zero with config := config}
    if malloc then
      ({s with sender := {sender with sendBufferSize := defaultSendBufferSize}}, true)
    else ({s with sender := {sender with lastError := .noMemory}}, false)

def sendVideo (data : Bytes) (answers : WriteAnswers) (s : System) : System × Bool :=
  if data = [] then (s, false)
  else if s.sender.state ≠ .connected then
    (s.onSender fun sender => {sender with lastError := .notConnected}, false)
  else if data.length > tcpMaxPacketSize then
    (s.onSender fun sender => {sender with lastError := .packetTooLarge}, false)
  else
    let total := tcpHeaderSize + data.length
    let room := s.ensureBufferSize total answers.realloc
    if !room.2 then (room.1, false)
    else
      let sent := room.1.sendAll
        (headerBytes total tcpMsgTypeVideoData s.sender.config.streamId ++ data) answers.sends
      if !sent.2 then (sent.1.sendFailed, false)
      else
        (sent.1.onSender fun sender =>
            {sender with
              packetsSent := sender.packetsSent + 1
              bytesSent := sender.bytesSent + UInt64.ofNat total},
          true)

def sendHeartbeat (now : UInt64) (sends : List SendAnswer) (s : System) : System × Bool :=
  if s.sender.state ≠ .connected then (s, false)
  else
    let sent := s.sendAll
      (headerBytes tcpHeaderSize tcpMsgTypeHeartbeat s.sender.config.streamId) sends
    if !sent.2 then (sent.1.sendFailed, false)
    else (sent.1.onSender fun sender => {sender with lastHeartbeatNs := now}, true)

/-- The payload of a STREAM_START, forty bytes. -/
def streamInfoBytes (info : StreamInfo) : Bytes :=
  BigEndian.bytes32 info.width.toNat ++ BigEndian.bytes32 info.height.toNat ++
    BigEndian.bytes32 info.fps.toNat ++ BigEndian.bytes32 info.bitrate.toNat ++
    BigEndian.bytes32 info.codec.toNat ++ BigEndian.bytes32 info.chroma.toNat ++
    BigEndian.bytes32 info.bitdepth.toNat ++ BigEndian.bytes32 info.videoFormat.toNat ++
    BigEndian.bytes32 info.colorSpace.toNat ++ BigEndian.bytes32 info.colorRange.toNat

def streamInfoSize : Nat := 40

def sendStreamStart (answers : WriteAnswers) (s : System) : System × Bool :=
  if s.sender.state ≠ .connected then (s, false)
  else
    let total := tcpHeaderSize + streamInfoSize
    let room := s.ensureBufferSize total answers.realloc
    if !room.2 then (room.1, false)
    else
      let sent := room.1.sendAll
        (headerBytes total tcpMsgTypeStreamStart s.sender.config.streamId ++
          streamInfoBytes s.sender.config.info) answers.sends
      if !sent.2 then (sent.1.sendFailed, false) else (sent.1, true)

/-- A failure is reported, but the state stays as it is. -/
def sendStreamStop (sends : List SendAnswer) (s : System) : System × Bool :=
  if s.sender.state ≠ .connected then (s, false)
  else s.sendAll (headerBytes tcpHeaderSize tcpMsgTypeStreamStop s.sender.config.streamId) sends

def connectFailed (s : System) : System × Bool :=
  (s.onSender fun sender => {sender with sockFd := none, lastError := .connect, state := .error},
    false)

/-- connect does not look at what the STREAM_START returns. -/
def connected (now : UInt64) (start : WriteAnswers) (s : System) : System × Bool :=
  let s := s.onSender fun sender =>
    {sender with
      state := .connected, connectTimeNs := now, lastHeartbeatNs := now
      packetsSent := 0, bytesSent := 0}
  ((s.sendStreamStart start).1, true)

def connect (answers : ConnectAnswers) (s : System) : System × Bool :=
  if s.sender.state = .connected then (s, true)
  else
    let s := s.onSender fun sender =>
      {sender with sockFd := none, state := .connecting, lastError := .none}
    if !answers.socket then
      (s.onSender fun sender => {sender with lastError := .socketCreate, state := .error}, false)
    else
      let s : System :=
        {s with sender := {s.sender with sockFd := some s.sockets}, sockets := s.sockets + 1}
      if !answers.resolved then s.connectFailed
      else
        match answers.connect with
        | .failed => s.connectFailed
        | .inProgress false _ => s.connectFailed
        | .inProgress true true => s.connectFailed
        | .inProgress true false => s.connected answers.now answers.start
        | .done => s.connected answers.now answers.start

def disconnect (sends : List SendAnswer) (s : System) : System :=
  let s := if s.sender.state = .connected then (s.sendStreamStop sends).1 else s
  s.onSender fun sender => {sender with sockFd := none, state := .disconnected}

def checkHeartbeat (interval now sentAt : UInt64) (sends : List SendAnswer) (s : System) :
    System × Bool :=
  if s.sender.state ≠ .connected then (s, true)
  else if now - s.sender.lastHeartbeatNs ≥ interval then s.sendHeartbeat sentAt sends
  else (s, true)

def destroy (sends : List SendAnswer) (s : System) : System :=
  (s.disconnect sends).onSender fun _ => .zero

end System

/-- A call of a public function. -/
inductive Call where
  | init (config : TcpSenderConfig) (malloc : Bool)
  | connect (answers : ConnectAnswers)
  | disconnect (sends : List SendAnswer)
  | sendVideo (data : Bytes) (answers : WriteAnswers)
  | sendHeartbeat (now : UInt64) (sends : List SendAnswer)
  | sendStreamStart (answers : WriteAnswers)
  | sendStreamStop (sends : List SendAnswer)
  | checkHeartbeat (interval now sentAt : UInt64) (sends : List SendAnswer)
  | destroy (sends : List SendAnswer)

/-- The state after a call, and whether it returned 0; the void functions count as that. -/
def System.call (s : System) : Call → System × Bool
  | .init config malloc => s.init config malloc
  | .connect answers => s.connect answers
  | .disconnect sends => (s.disconnect sends, true)
  | .sendVideo data answers => s.sendVideo data answers
  | .sendHeartbeat now sends => s.sendHeartbeat now sends
  | .sendStreamStart answers => s.sendStreamStart answers
  | .sendStreamStop sends => s.sendStreamStop sends
  | .checkHeartbeat interval now sentAt sends => s.checkHeartbeat interval now sentAt sends
  | .destroy sends => (s.destroy sends, true)

def step (s : System) (call : Call) : System := (s.call call).1

def run (calls : List Call) : System := Run.run step .zero calls

end StreamRelay.Sender
