import StreamRelay.LinkedQueue
import StreamRelay.Recorder.Process

/-! The recorder's event queue: any number of producers, the recorder thread and one
call that stops the recorder. A step is one critical section, one unlocked reading
of the flags or one operation on memory of a party's own; a step that its party
cannot take changes nothing, so any list of actions is a schedule. -/
namespace StreamRelay.Recorder

open LinkedQueue (Heap Ends push sizeAt valueAt)

/-- A call of compressed_recorder_on_stream_start, on_video or on_stream_stop. -/
inductive Request where
  | streamStart (streamId : Nat) (info : StreamInfo)
  | video (streamId : Nat) (data : Bytes)
  | streamStop (streamId : Nat)
  deriving DecidableEq, Repr

/-- The test of the arguments at the head of the call. -/
def Request.hasArguments : Request → Bool
  | .video _ data => data ≠ []
  | _ => true

def Request.event (wallMs monoNs : UInt64) : Request → RecorderEvent
  | .streamStart streamId info => ⟨.streamStart, streamId, wallMs, monoNs, info, []⟩
  | .video streamId data => ⟨.video, streamId, wallMs, monoNs, .zero, data⟩
  | .streamStop streamId => ⟨.streamStop, streamId, wallMs, monoNs, .zero, []⟩

/-- The field len, a size_t. -/
def RecorderEvent.len (ev : RecorderEvent) : UInt64 := UInt64.ofNat ev.data.length

/-- What the byte limit counts. -/
def RecorderEvent.videoLen (ev : RecorderEvent) : Nat := if ev.type = .video then ev.data.length else 0

/-- The memory an event takes at least: its payload, and its record of some bytes. -/
def RecorderEvent.footprint (ev : RecorderEvent) : Nat := ev.data.length + 1

/-- Where a producer is: before a call, past its tests, with the event made, past
enqueue_event's unlocked test, and with an event that was not taken. -/
inductive Producer where
  | idle
  | called (request : Request)
  | created (node : Nat)
  | locking (node : Nat)
  | freeing (node : Nat)
  deriving DecidableEq, Repr

inductive RecorderThread where
  | looking
  | asleep
  | working (node : Nat)
  | closing
  | exited
  deriving DecidableEq, Repr

/-- Where compressed_recorder_stop is; draining is its loop over what is left. -/
inductive Stopper where
  | notCalled
  | joining
  | draining (next : Option Nat)
  | stopped
  deriving DecidableEq, Repr

/-- The recorder with its parties and their memory. The last two fields are history:
what reached the locked part of enqueue_event while it was accepting, with what
became of it, and what the thread has processed. -/
structure System where
  configured : Bool
  running : Bool
  accepting : Bool
  ends : Ends Nat
  queuedBytes : UInt64
  queuedEvents : UInt64
  droppedPackets : UInt64
  droppedBytes : UInt64
  heap : Heap Nat RecorderEvent
  live : Finset Nat
  producers : Nat → Producer
  thread : RecorderThread
  stopper : Stopper
  machine : Machine
  handed : List (RecorderEvent × Bool)
  processed : List Input

inductive Action where
  | call (producer : Nat) (request : Request)
  | allocate (producer : Nat) (wallMs monoNs : UInt64) (node : Nat)
  | test (producer : Nat)
  | enqueue (producer : Nat)
  | free (producer : Nat)
  | take
  | wake
  | process (answers : Answers)
  | close (answers : Nat → CloseAnswers)
  | stop
  | join
  | drain

namespace System

def setProducer (producer : Nat) (phase : Producer) (s : System) : System :=
  {s with producers := Function.update s.producers producer phase}

def freeEvent (node : Nat) (s : System) : System :=
  {s with heap := Function.update s.heap node none, live := s.live.erase node}

/-- pthread_cond_signal on not_empty, on which only the recorder thread waits. -/
def signal (s : System) : System :=
  {s with thread := if s.thread = .asleep then .looking else s.thread}

/-- An allocation gives memory that is not in use, so what is in use at one time
fits the address space. -/
def allocate (producer node : Nat) (ev : RecorderEvent) (s : System) : System :=
  if node ∉ s.live ∧ ∑ other ∈ s.live, sizeAt RecorderEvent.footprint s.heap other + ev.footprint <
      UInt64.size then
    {s with
      heap := Function.update s.heap node (some ⟨ev, none⟩), live := insert node s.live
      producers := Function.update s.producers producer (.created node)}
  else s

def refuse (producer node : Nat) (ev : RecorderEvent) (s : System) : System :=
  {s with
    droppedPackets := s.droppedPackets + 1, droppedBytes := s.droppedBytes + ev.len
    producers := Function.update s.producers producer (.freeing node)
    handed := s.handed ++ [(ev, false)]}

def append (producer node : Nat) (ev : RecorderEvent) (s : System) : System :=
  signal {s with
    heap := (push s.heap s.ends node).1, ends := (push s.heap s.ends node).2
    queuedEvents := s.queuedEvents + 1
    queuedBytes := if ev.type = .video then s.queuedBytes + ev.len else s.queuedBytes
    producers := Function.update s.producers producer .idle
    handed := s.handed ++ [(ev, true)]}

/-- The locked part of enqueue_event. -/
def enqueueEvent (queueLimitBytes : UInt64) (producer node : Nat) (s : System) : System :=
  match s.heap node with
  | none => s
  | some ⟨ev, _⟩ =>
    if !s.accepting then s.setProducer producer (.freeing node)
    else if ev.type = .video ∧ s.queuedBytes + ev.len > queueLimitBytes then
      s.refuse producer node ev
    else s.append producer node ev

/-- The locked part of the loop of recorder_thread_main. -/
def takeEvent (s : System) : System :=
  match s.ends.head with
  | none => {s with thread := if s.running then .asleep else .closing}
  | some node =>
    match s.heap node with
    | none => s
    | some ⟨ev, next⟩ =>
      {s with
        ends := s.ends.pop next
        queuedEvents := s.queuedEvents - 1
        queuedBytes := if ev.type = .video then s.queuedBytes - ev.len else s.queuedBytes
        thread := .working node}

def processEvent (cfg : Config) (answers : Answers) (node : Nat) (s : System) : System :=
  match s.heap node with
  | none => s
  | some ⟨ev, _⟩ =>
    freeEvent node {s with
      machine := Recorder.step cfg s.machine ⟨ev, answers⟩
      processed := s.processed ++ [⟨ev, answers⟩]
      thread := .looking}

/-- The recorder after the memset that ends compressed_recorder_stop. -/
def clear (s : System) : System :=
  {s with
    configured := false, running := false, accepting := false, ends := ⟨none, none⟩
    queuedBytes := 0, queuedEvents := 0, droppedPackets := 0, droppedBytes := 0
    machine := ⟨⟨false, 0, 0, 0, 0, 0⟩, fun _ => .zero, s.machine.w⟩
    stopper := .stopped}

/-- One round of the loop that frees what is left. -/
def drainEvent (next : Option Nat) (s : System) : System :=
  match next with
  | none => s.clear
  | some node =>
    match s.heap node with
    | none => s
    | some ⟨_, next⟩ => freeEvent node {s with stopper := .draining next}

/-- The machine behind a recorder that compressed_recorder_start has just started. -/
def start (cfg : Config) (mounts : List MntEnt) (nowNs : UInt64) : System where
  configured := true
  running := true
  accepting := true
  ends := ⟨none, none⟩
  queuedBytes := 0
  queuedEvents := 0
  droppedPackets := 0
  droppedBytes := 0
  heap := fun _ => none
  live := ∅
  producers := fun _ => .idle
  thread := .looking
  stopper := .notCalled
  machine := Recorder.start cfg mounts nowNs
  handed := []
  processed := []

variable (cfg : Config) (queueLimitBytes : UInt64)

def step (s : System) : Action → System
  | .call producer request =>
    if s.producers producer = .idle ∧ request.hasArguments ∧ s.configured ∧ s.accepting then
      s.setProducer producer (.called request)
    else s
  | .allocate producer wallMs monoNs node =>
    match s.producers producer with
    | .called request => s.allocate producer node (request.event wallMs monoNs)
    | _ => s
  | .test producer =>
    match s.producers producer with
    | .created node =>
      s.setProducer producer (if s.configured && s.accepting then .locking node else .freeing node)
    | _ => s
  | .enqueue producer =>
    match s.producers producer with
    | .locking node => s.enqueueEvent queueLimitBytes producer node
    | _ => s
  | .free producer =>
    match s.producers producer with
    | .freeing node => (s.freeEvent node).setProducer producer .idle
    | _ => s
  | .take => if s.thread = .looking then s.takeEvent else s
  | .wake => s.signal
  | .process answers =>
    match s.thread with
    | .working node => s.processEvent cfg answers node
    | _ => s
  | .close answers =>
    if s.thread = .closing then
      {s with machine := shutdown cfg answers s.machine, thread := .exited}
    else s
  | .stop =>
    if s.stopper = .notCalled ∧ s.configured then
      signal {s with accepting := false, running := false, stopper := .joining}
    else s
  | .join =>
    if s.stopper = .joining ∧ s.thread = .exited then {s with stopper := .draining s.ends.head} else s
  | .drain =>
    match s.stopper with
    | .draining next => s.drainEvent next
    | _ => s

def accepted (s : System) : List RecorderEvent := (s.handed.filter (·.2)).map (·.1)

def refused (s : System) : List RecorderEvent := (s.handed.filter (!·.2)).map (·.1)

/-- The event the thread has taken and not processed yet. -/
def inHand (s : System) : List RecorderEvent :=
  match s.thread with
  | .working node => (valueAt s.heap node).toList
  | _ => []

end System

end StreamRelay.Recorder
