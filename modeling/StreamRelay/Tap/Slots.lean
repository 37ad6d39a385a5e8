import Mathlib.Logic.Function.Basic
import StreamRelay.Run
import StreamRelay.Wire
import StreamRelay.Tap.Client

/-! The table of subscribers. Accepting a connection and publishing an access unit hold the
lock throughout, so a run is a sequence of the two. Beside the table stand, for the
observer, what was published and what each accepted connection has received. -/
namespace StreamRelay.Tap

/-- TAP_MAX_CLIENTS -/
def Copy.slots : Copy → Nat
  | .server => 8
  | .agent => 16

/-- The highest stream a subscriber can name, in both copies. -/
def maxStreamId : Nat := 20

/-- A connection that was given a slot: the stream it subscribed to, the number of
publications before it, the packets begun for it, the bytes it received and the packets
given up by the stall rule. -/
structure Connection where
  streamId : Nat
  since : Nat
  line : Wire.Line TapPacket
  wire : Bytes
  dropped : List TapPacket

/-- `sps` and `pps` are the agent's latest parameter sets of each stream. Connections are
numbered in the order of their acceptance. -/
structure State where
  clients : Nat → TapClient
  sps : Nat → Bytes
  pps : Nat → Bytes
  connections : Nat → Connection
  accepted : Nat
  published : List (Nat × Bytes)

/-- What `h264_tap_start` leaves: all slots are zeroed, so their `fd` is 0 and unused. -/
def State.initial : State where
  clients := fun _ => {TapClient.closed with fd := some 0}
  sps := fun _ => []
  pps := fun _ => []
  connections := fun _ => ⟨0, 0, [], [], []⟩
  accepted := 0
  published := []

/-- One outcome of the peeking `recv` of the pruning. -/
inductive Peek
  | data
  | ended
  | interrupted
  | wouldBlock
  | failed
  deriving DecidableEq, Repr

def Peek.dead : Peek → Bool
  | .ended | .failed => true
  | .data | .interrupted | .wouldBlock => false

def clampStreamId (sid : Int) : Nat :=
  if sid < 1 then 1 else if (maxStreamId : Int) < sid then maxStreamId else sid.toNat

/-- The stream of a connection, from the number its subscription names if there is one. The
server takes a default; the agent refuses the connection. -/
def subscribedStream : Copy → Option Int → Option Nat
  | _, some sid => some (clampStreamId sid)
  | .server, none => some 1
  | .agent, none => none

def pruneDeadClients (copy : Copy) (clients : Nat → TapClient) (peeks : Nat → Peek) :
    Nat → TapClient := fun i =>
  if i < copy.slots ∧ (clients i).active ∧ (peeks i).dead then .closed else clients i

def freeSlot (copy : Copy) (clients : Nat → TapClient) : Option Nat :=
  (List.range copy.slots).find? fun i => !(clients i).active

/-- `granted` is whether memory is there for the copies of the parameter sets. -/
def copyGlobalParamSets (c : TapClient) (sps pps : Bytes) (granted : Bool × Bool) : TapClient :=
  { c with
    sps := if sps ≠ [] ∧ granted.1 then sps else c.sps
    pps := if pps ≠ [] ∧ granted.2 then pps else c.pps }

/-- The accepting loop writes the connection and its stream into a free slot and leaves the
other fields alone. The agent's waits for an IDR and copies the parameter sets. -/
def seat (copy : Copy) (s : State) (c : TapClient) (fd sid : Nat) (granted : Bool × Bool) :
    TapClient :=
  let c := {c with fd := some fd, streamId := sid, active := true}
  match copy with
  | .server => c
  | .agent => copyGlobalParamSets {c with needIdr := true} (s.sps sid) (s.pps sid) granted

/-- The bytes a slot still holds are in front of those of the new connection. -/
def State.placed (copy : Copy) (s : State) (i sid : Nat) (granted : Bool × Bool) : State :=
  { s with
    clients := Function.update s.clients i (seat copy s (s.clients i) s.accepted sid granted)
    connections := Function.update s.connections s.accepted
      ⟨sid, s.published.length, (s.clients i).out.toList.map (·, 0), [], []⟩
    accepted := s.accepted + 1 }

/-- One accepted connection: dead clients are pruned, and once more if no slot is free. -/
def accept (copy : Copy) (s : State) (named : Option Int) (peeks again : Nat → Peek)
    (granted : Bool × Bool) : State :=
  match subscribedStream copy named with
  | none => s
  | some sid =>
    let s := {s with clients := pruneDeadClients copy s.clients peeks}
    match freeSlot copy s.clients with
    | some i => s.placed copy i sid granted
    | none =>
      let s := {s with clients := pruneDeadClients copy s.clients again}
      match freeSlot copy s.clients with
      | some i => s.placed copy i sid granted
      | none => s

def Connection.write (k : Connection) (bytes : Bytes) : Connection :=
  {k with line := k.line.grow bytes.length, wire := k.wire ++ bytes}

/-- A packet assembled after the connection was closed is not begun on it. -/
def Connection.serve (k : Connection) (c : TapClient) (served : Served) : Connection :=
  let k := if served.dropped then {k with dropped := k.dropped ++ c.out.toList} else k
  let k := k.write served.before.wrote
  let k := match served.packet with
    | some packet =>
      if served.before.client.active then {k with line := k.line.start packet} else k
    | none => k
  k.write served.wrote

def publishSlot (copy : Copy) (config : Config) (streamId : Nat) (data : Bytes) (number : Nat)
    (answers : Nat → ClientAnswers) (s : State) (i : Nat) : State :=
  let c := s.clients i
  if c.active ∧ c.streamId = streamId then
    let served := publishClient copy config c data number (answers i)
    { s with
      clients := Function.update s.clients i served.client
      connections := match c.fd with
        | some fd => Function.update s.connections fd ((s.connections fd).serve c served)
        | none => s.connections }
  else s

/-- The agent keeps the latest parameter sets of its streams, if memory is granted. -/
def updateGlobalParamSets (copy : Copy) (s : State) (streamId : Nat) (data : Bytes)
    (granted : Bool) : State :=
  match copy with
  | .server => s
  | .agent =>
    if 1 ≤ streamId ∧ streamId ≤ maxStreamId ∧ granted then
      match firstNalType data with
      | some 7 => {s with sps := Function.update s.sps streamId data}
      | some 8 => {s with pps := Function.update s.pps streamId data}
      | _ => s
    else s

def publish (copy : Copy) (config : Config) (s : State) (streamId : Nat) (data : Bytes)
    (granted : Bool) (answers : Nat → ClientAnswers) : State :=
  if data = [] then s
  else
    let number := s.published.length
    let s := {s with published := s.published ++ [(streamId, data)]}
    let s := updateGlobalParamSets copy s streamId data granted
    (List.range copy.slots).foldl (publishSlot copy config streamId data number answers) s

inductive Input
  | accept (named : Option Int) (peeks again : Nat → Peek) (granted : Bool × Bool)
  | publish (streamId : Nat) (data : Bytes) (granted : Bool) (answers : Nat → ClientAnswers)

def step (copy : Copy) (config : Config) (s : State) : Input → State
  | .accept named peeks again granted => accept copy s named peeks again granted
  | .publish streamId data granted answers => publish copy config s streamId data granted answers

def run (copy : Copy) (config : Config) (inputs : List Input) : State :=
  Run.run (step copy config) .initial inputs

end StreamRelay.Tap
