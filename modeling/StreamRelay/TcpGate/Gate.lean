import StreamRelay.Census
import StreamRelay.Link.Gate
import StreamRelay.TcpGate.Tokens

/-! The TCP gate of stream_service_tcp_gate: its manager, and its handlers over the manager and the
token store. A step is what one thread does from one lock to the next. -/
namespace StreamRelay.TcpGate

open PyText

/-- Timers as in the manager of agent_link_service. -/
structure OnDemandManager where
  activeByStream : Int → Nat
  stopTimerByStream : Int → Option Nat
  timers : Nat → Link.Timer
  made : Nat

namespace OnDemandManager

def init : OnDemandManager := ⟨fun _ => 0, fun _ => none, fun _ => ⟨0, 0, .done⟩, 0⟩

def setTimer (i : Nat) (phase : Link.TimerPhase) (m : OnDemandManager) : OnDemandManager :=
  {m with timers := Function.update m.timers i {m.timers i with phase := phase}}

def cancel (i : Nat) (m : OnDemandManager) : OnDemandManager :=
  if (m.timers i).phase = .pending then m.setTimer i .cancelled else m

def setActive (streamId : Int) (count : Nat) (m : OnDemandManager) : OnDemandManager :=
  {m with activeByStream := Function.update m.activeByStream streamId count}

def popTimer (streamId : Int) (m : OnDemandManager) : OnDemandManager :=
  match m.stopTimerByStream streamId with
  | none => m
  | some i =>
    cancel i {m with stopTimerByStream := Function.update m.stopTimerByStream streamId none}

def onConnect (streamId : Int) (m : OnDemandManager) : OnDemandManager :=
  (m.popTimer streamId).setActive streamId (m.activeByStream streamId + 1)

def arm (now : Nat) (streamId : Int) (m : OnDemandManager) : OnDemandManager :=
  {m with
    timers := Function.update m.timers m.made ⟨streamId, now, .pending⟩
    stopTimerByStream := Function.update m.stopTimerByStream streamId (some m.made)
    made := m.made + 1}

def onDisconnect (idleStopSec now : Nat) (streamId : Int) (m : OnDemandManager) :
    OnDemandManager :=
  let cur := m.activeByStream streamId - 1
  let m := m.setActive streamId cur
  if cur ≠ 0 ∨ idleStopSec = 0 then m else m.arm now streamId

/-- What fire does under the lock; the record of the stream stays. -/
def fire (i : Nat) (m : OnDemandManager) : OnDemandManager :=
  if m.activeByStream (m.timers i).stream ≠ 0 then m.setTimer i .done else m.setTimer i .stopping

end OnDemandManager

def parseHandshake (unicode : Unicode) (lines : List Text) : Text × Int :=
  let said := lines.foldl (Link.hearCtrl unicode) ⟨[], 0⟩
  (said.tok, said.streamId)

/-- The two names that a handler looks up as it ends, if they have been set. -/
structure Locals where
  token : Option Text
  streamId : Option Int
  deriving DecidableEq

/-- The finally clause sets both names before it looks them up. -/
def Locals.released (locals : Locals) : Int :=
  let locals : Locals := {locals with token := some [], streamId := some 0}
  locals.streamId.getD 0

/-- Where a handler is: it reads the two lines; it is in validate; it is in on_connect; it proxies,
or fails to; it is in its finally clause; it has finished. Of one that ends it is kept for which
stream it has called on_connect. -/
inductive Stage where
  | reading
  | validating (token : Text) (streamId : Int)
  | connecting (token : Text) (streamId : Int)
  | live (token : Text) (streamId : Int)
  | leaving (locals : Locals) (connected : Option Int)
  | finished (connected : Option Int)
  deriving DecidableEq

structure Handler where
  ip : Text
  stage : Stage
  deriving DecidableEq

inductive ManagerCall where
  | onConnect (id : Nat) (streamId : Int)
  | onDisconnect (id : Nat) (streamId : Int)
  deriving DecidableEq, Repr

/-- Handlers are numbered as they are accepted; the calls of the manager are kept. The manager reads
a clock in seconds. -/
structure State where
  tokens : TokenState
  manager : OnDemandManager
  handlers : Nat → Handler
  accepted : Nat
  calls : List ManagerCall
  now : Nat

def State.start (startMs : Int) : State :=
  ⟨.start startMs, .init, fun _ => ⟨[], .finished none⟩, 0, [], 0⟩

structure Config where
  unicode : Unicode
  tokens : TokenConfig
  idleStopSec : Nat

/-- What happens next, and to which handler or timer. A handler exits while it reads, or while it
proxies, in any way. -/
inductive Input where
  | post (streamId : Int) (ip : Text) (drawn : Fin 1000000) (wait gcWait : Nat)
  | accept (ip : Text)
  | handshake (id : Nat) (l1 l2 : Text)
  | validate (id : Nat) (wait gcWait : Nat)
  | connect (id : Nat)
  | exit (id : Nat)
  | release (id : Nat)
  | expire (i : Nat)
  | fire (i : Nat)
  | stopSoft (i : Nat)
  | tick

namespace State

def setStage (id : Nat) (stage : Stage) (s : State) : State :=
  {s with handlers := Function.update s.handlers id {s.handlers id with stage := stage}}

def setManager (manager : OnDemandManager) (s : State) : State := {s with manager := manager}

def call (call : ManagerCall) (s : State) : State := {s with calls := s.calls ++ [call]}

end State

def httpToken : Text := ['h', 't', 't', 'p', '_', 't', 'o', 'k', 'e', 'n']

def step (cfg : Config) (s : State) : Input → State
  | .post streamId ip drawn wait gcWait =>
    if streamId ≤ 0 then s
    else
      {s with tokens := (issueStep cfg.tokens streamId ip httpToken drawn wait gcWait s.tokens).2}
  | .accept ip =>
    {s with
      handlers := Function.update s.handlers s.accepted ⟨ip, .reading⟩
      accepted := s.accepted + 1}
  | .handshake id l1 l2 =>
    match (s.handlers id).stage with
    | .reading =>
      let (token, streamId) := parseHandshake cfg.unicode [l1, l2]
      if token = [] ∨ streamId ≤ 0 then s.setStage id (.leaving ⟨some token, some streamId⟩ none)
      else s.setStage id (.validating token streamId)
    | _ => s
  | .validate id wait gcWait =>
    match (s.handlers id).stage with
    | .validating token streamId =>
      let (valid, tokens) :=
        validateStep cfg.tokens token (s.handlers id).ip streamId wait gcWait s.tokens
      {s with tokens := tokens}.setStage id
        (if valid then .connecting token streamId else .leaving ⟨some token, some streamId⟩ none)
    | _ => s
  | .connect id =>
    match (s.handlers id).stage with
    | .connecting token streamId =>
      ((s.setManager (s.manager.onConnect streamId)).call (.onConnect id streamId)).setStage id
        (.live token streamId)
    | _ => s
  | .exit id =>
    match (s.handlers id).stage with
    | .reading => s.setStage id (.leaving ⟨none, none⟩ none)
    | .live token streamId => s.setStage id (.leaving ⟨some token, some streamId⟩ (some streamId))
    | _ => s
  | .release id =>
    match (s.handlers id).stage with
    | .leaving locals connected =>
      let s :=
        if locals.released > 0 then
          (s.setManager (s.manager.onDisconnect cfg.idleStopSec s.now locals.released)).call
            (.onDisconnect id locals.released)
        else s
      s.setStage id (.finished connected)
    | _ => s
  | .expire i =>
    if (s.manager.timers i).phase = .pending ∧ (s.manager.timers i).armedAt + cfg.idleStopSec ≤ s.now
    then s.setManager (s.manager.setTimer i .running)
    else s
  | .fire i =>
    if (s.manager.timers i).phase = .running then s.setManager (s.manager.fire i) else s
  | .stopSoft i =>
    if (s.manager.timers i).phase = .stopping then s.setManager (s.manager.setTimer i .done) else s
  | .tick => {s with now := s.now + 1}

def run (cfg : Config) (startMs : Int) (inputs : List Input) : State :=
  Run.run (step cfg) (.start startMs) inputs

end StreamRelay.TcpGate
