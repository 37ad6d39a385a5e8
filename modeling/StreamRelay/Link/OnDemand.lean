import Mathlib.Data.Nat.Basic
import Mathlib.Logic.Function.Basic

/-! The manager of agent_link_service: the active connections of each stream, and the timers that
stop a stream when it has been idle. Each function here is what one holder of the lock does. -/
namespace StreamRelay.Link

inductive Kind where
  | video
  | ctrl
  deriving DecidableEq, Repr

/-- Where a timer's thread is: it waits, it is past its wait and wants the lock, or it has left
the lock to stop the stream. Cancelling it is too late after the wait. -/
inductive TimerPhase where
  | pending
  | cancelled
  | running
  | stopping
  | done
  deriving DecidableEq, Repr

structure Timer where
  stream : Int
  armedAt : Nat
  phase : TimerPhase
  deriving DecidableEq, Repr

/-- Timers are numbered as they are made. A stream that a dictionary lacks counts 0, or has no
recorded timer. -/
structure OnDemandManager where
  active : Kind → Int → Nat
  stopTimer : Int → Option Nat
  timers : Nat → Timer
  made : Nat

namespace OnDemandManager

def init : OnDemandManager := ⟨fun _ _ => 0, fun _ => none, fun _ => ⟨0, 0, .done⟩, 0⟩

def idle (streamId : Int) (m : OnDemandManager) : Bool :=
  m.active .video streamId = 0 && m.active .ctrl streamId = 0

def setTimer (i : Nat) (phase : TimerPhase) (m : OnDemandManager) : OnDemandManager :=
  {m with timers := Function.update m.timers i {m.timers i with phase := phase}}

def cancel (i : Nat) (m : OnDemandManager) : OnDemandManager :=
  if (m.timers i).phase = .pending then m.setTimer i .cancelled else m

def popTimer (streamId : Int) (m : OnDemandManager) : OnDemandManager :=
  {m with stopTimer := Function.update m.stopTimer streamId none}

def cancelTimerLocked (streamId : Int) (m : OnDemandManager) : OnDemandManager :=
  match m.stopTimer streamId with
  | none => m
  | some i => (m.popTimer streamId).cancel i

def setActive (kind : Kind) (streamId : Int) (count : Nat) (m : OnDemandManager) :
    OnDemandManager :=
  {m with active := Function.update m.active kind (Function.update (m.active kind) streamId count)}

/-- on_video_connect and on_ctrl_connect. -/
def onConnect (kind : Kind) (streamId : Int) (m : OnDemandManager) : OnDemandManager :=
  (m.cancelTimerLocked streamId).setActive kind streamId (m.active kind streamId + 1)

def arm (now : Nat) (streamId : Int) (m : OnDemandManager) : OnDemandManager :=
  {m with
    timers := Function.update m.timers m.made ⟨streamId, now, .pending⟩
    stopTimer := Function.update m.stopTimer streamId (some m.made)
    made := m.made + 1}

def maybeScheduleStopLocked (idleStopSec now : Nat) (streamId : Int) (m : OnDemandManager) :
    OnDemandManager :=
  if idleStopSec = 0 then m
  else if m.active .video streamId ≠ 0 then m
  else if m.active .ctrl streamId ≠ 0 then m
  else if m.stopTimer streamId ≠ none then m
  else m.arm now streamId

/-- on_video_disconnect and on_ctrl_disconnect; the count does not go below 0. -/
def onDisconnect (kind : Kind) (idleStopSec now : Nat) (streamId : Int) (m : OnDemandManager) :
    OnDemandManager :=
  (m.setActive kind streamId (m.active kind streamId - 1)).maybeScheduleStopLocked idleStopSec now
    streamId

/-- What fire does under the lock. It pops the record of its stream, whatever timer that is. -/
def fire (i : Nat) (m : OnDemandManager) : OnDemandManager :=
  let streamId := (m.timers i).stream
  if m.active .video streamId ≠ 0 then m.setTimer i .done
  else if m.active .ctrl streamId ≠ 0 then m.setTimer i .done
  else (m.popTimer streamId).setTimer i .stopping

end OnDemandManager

end StreamRelay.Link
