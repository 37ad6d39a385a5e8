import StreamRelay.Census
import StreamRelay.Link.OnDemand
import StreamRelay.PyText
import StreamRelay.Run

/-! The gate handlers of agent_link_service over its manager. A step is what one thread does from
one lock to the next. -/
namespace StreamRelay.Link

open PyText

def authPrefix : Text := ['A', 'U', 'T', 'H', ' ']

def subPrefix : Text := ['S', 'U', 'B', ' ']

inductive Refusal where
  | badAuth
  | badStream
  deriving DecidableEq, Repr

/-- What a handshake comes to, with the stream that it names; 0 stands for none. -/
inductive Verdict where
  | refused (error : Refusal) (streamId : Int)
  | passed (streamId : Int)
  deriving DecidableEq, Repr

section Handshake

variable (unicode : Unicode)

structure Said where
  tok : Text
  streamId : Int
  deriving DecidableEq, Repr

def hearAuth (said : Said) (ln : Text) : Option Said :=
  (afterPrefix authPrefix ln).map fun rest => {said with tok := strip unicode rest}

def hearSub (said : Said) (ln : Text) : Option Said :=
  (afterPrefix subPrefix ln).map fun rest =>
    {said with streamId := (int unicode (strip unicode rest)).getD 0}

/-- The video handler looks for both words in a line. -/
def hearVideo (said : Said) (ln : Text) : Said :=
  let said := (hearAuth unicode said ln).getD said
  (hearSub unicode said ln).getD said

def hearCtrl (said : Said) (ln : Text) : Said :=
  ((hearAuth unicode said ln).orElse fun _ => hearSub unicode said ln).getD said

def videoVerdict (token l1 l2 : Text) : Verdict :=
  let said := hearVideo unicode (hearVideo unicode ⟨[], 0⟩ l1) l2
  if said.tok ≠ token || said.streamId ≤ 0 then .refused .badAuth said.streamId
  else .passed said.streamId

def ctrlVerdict (token l1 l2 : Text) : Verdict :=
  let said := hearCtrl unicode (hearCtrl unicode ⟨[], 0⟩ l1) l2
  if said.tok = [] then .refused .badAuth said.streamId
  else if said.tok ≠ token then .refused .badAuth said.streamId
  else if said.streamId ≤ 0 then .refused .badStream said.streamId
  else .passed said.streamId

def verdict (token : Text) : Kind → Text → Text → Verdict
  | .video => videoVerdict unicode token
  | .ctrl => ctrlVerdict unicode token

end Handshake

/-- Where a handler is: it reads the two lines; it is in on_*_connect; it proxies, or fails to;
it is in on_*_disconnect, with or without having passed; it has finished. -/
inductive Stage where
  | reading
  | connecting (streamId : Int)
  | live (streamId : Int)
  | leaving (streamId : Int) (passed : Bool)
  | finished
  deriving DecidableEq, Repr

structure Handler where
  kind : Kind
  stage : Stage
  deriving DecidableEq, Repr

/-- Handlers are numbered as they are accepted. Of each stream it is kept when the last handler
that had passed left the manager, and which streams were stopped when. -/
structure State where
  manager : OnDemandManager
  handlers : Nat → Handler
  accepted : Nat
  now : Nat
  left : Int → Option Nat
  stopped : List (Int × Nat)

def State.init : State :=
  ⟨.init, fun _ => ⟨.video, .finished⟩, 0, 0, fun _ => none, []⟩

structure Config where
  unicode : Unicode
  token : Text
  idleStopSec : Nat

/-- What happens next, and to which handler or timer. A handshake fails if a line does not come in
time or is too long; a connection ends in any way. -/
inductive Input where
  | accept (kind : Kind)
  | fail (id : Nat)
  | handshake (id : Nat) (l1 l2 : Text)
  | connect (id : Nat)
  | finish (id : Nat)
  | disconnect (id : Nat)
  | expire (i : Nat)
  | fire (i : Nat)
  | stopSoft (i : Nat)
  | tick

namespace State

def setStage (id : Nat) (stage : Stage) (s : State) : State :=
  {s with handlers := Function.update s.handlers id {s.handlers id with stage := stage}}

def setManager (manager : OnDemandManager) (s : State) : State := {s with manager := manager}

/-- The finally clause looks at the stream only. -/
def judge (id : Nat) (verdict : Verdict) (s : State) : State :=
  match verdict with
  | .passed streamId => s.setStage id (.connecting streamId)
  | .refused _ streamId =>
    if streamId > 0 then s.setStage id (.leaving streamId false) else s.setStage id .finished

end State

def step (cfg : Config) (s : State) : Input → State
  | .accept kind =>
    {s with
      handlers := Function.update s.handlers s.accepted ⟨kind, .reading⟩
      accepted := s.accepted + 1}
  | .fail id =>
    match (s.handlers id).stage with
    | .reading => s.setStage id .finished
    | _ => s
  | .handshake id l1 l2 =>
    match (s.handlers id).stage with
    | .reading => s.judge id (verdict cfg.unicode cfg.token (s.handlers id).kind l1 l2)
    | _ => s
  | .connect id =>
    match (s.handlers id).stage with
    | .connecting streamId =>
      (s.setManager (s.manager.onConnect (s.handlers id).kind streamId)).setStage id (.live streamId)
    | _ => s
  | .finish id =>
    match (s.handlers id).stage with
    | .live streamId => s.setStage id (.leaving streamId true)
    | _ => s
  | .disconnect id =>
    match (s.handlers id).stage with
    | .leaving streamId passed =>
      let s := s.setManager
        (s.manager.onDisconnect (s.handlers id).kind cfg.idleStopSec s.now streamId)
      let s := if passed then {s with left := Function.update s.left streamId (some s.now)} else s
      s.setStage id .finished
    | _ => s
  | .expire i =>
    if (s.manager.timers i).phase = .pending ∧ (s.manager.timers i).armedAt + cfg.idleStopSec ≤ s.now
    then s.setManager (s.manager.setTimer i .running)
    else s
  | .fire i =>
    if (s.manager.timers i).phase = .running then s.setManager (s.manager.fire i) else s
  | .stopSoft i =>
    if (s.manager.timers i).phase = .stopping then
      {s.setManager (s.manager.setTimer i .done) with
        stopped := s.stopped ++ [((s.manager.timers i).stream, s.now)]}
    else s
  | .tick => {s with now := s.now + 1}

def run (cfg : Config) (inputs : List Input) : State := Run.run (step cfg) .init inputs

/-- No refused handshake names a stream. -/
def Quiet (cfg : Config) (s : State) : Input → Prop
  | .handshake id l1 l2 => ∀ error streamId,
      verdict cfg.unicode cfg.token (s.handlers id).kind l1 l2 = .refused error streamId →
        streamId ≤ 0
  | _ => True

end StreamRelay.Link
