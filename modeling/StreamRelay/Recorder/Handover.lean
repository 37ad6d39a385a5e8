import StreamRelay.Recorder.QueueProgress
import StreamRelay.Recorder.Recording

/-! From the calls of the producers to the files. As long as the calls for a stream do not overlap,
its events are accepted in the order of the calls, and what is recorded keeps that order. -/
namespace StreamRelay.Recorder

open LinkedQueue (Heap valueAt valueAt_push)

def Request.streamId : Request → Nat
  | .streamStart streamId _ | .video streamId _ | .streamStop streamId => streamId

def RecorderEvent.request (ev : RecorderEvent) : Request :=
  match ev.type with
  | .streamStart => .streamStart ev.streamId ev.info
  | .video => .video ev.streamId ev.data
  | .streamStop => .streamStop ev.streamId

@[simp] theorem Request.event_request (request : Request) (wallMs monoNs : UInt64) :
    (request.event wallMs monoNs).request = request := by
  cases request <;> rfl

@[simp] theorem RecorderEvent.request_streamId (ev : RecorderEvent) :
    ev.request.streamId = ev.streamId := by
  unfold request
  cases ev.type <;> rfl

def Action.request : Action → Option Request
  | .call _ request => some request
  | _ => none

def forStream (stream : Nat) (requests : List Request) : List Request :=
  requests.filter fun request => request.streamId = stream

theorem forStream_append (stream : Nat) (first second : List Request) :
    forStream stream (first ++ second) = forStream stream first ++ forStream stream second :=
  List.filter_append ..

/-- The calls that a schedule has for a stream. -/
def callsFor (stream : Nat) (actions : List Action) : List Request :=
  forStream stream (actions.filterMap Action.request)

/-- The call that a producer is in, as long as its event may still be accepted. -/
def Producer.pending (heap : Heap Nat RecorderEvent) : Producer → Option Request
  | .called request => some request
  | .created node | .locking node => (valueAt heap node).map RecorderEvent.request
  | .idle | .freeing _ => none

namespace System

variable (cfg : Config) (queueLimitBytes : UInt64) {s s' : System}

def pending (s : System) (producer : Nat) : Option Request :=
  (s.producers producer).pending s.heap

/-- The calls for a stream whose events are accepted. -/
def acceptedFor (stream : Nat) (s : System) : List Request :=
  forStream stream (s.accepted.map RecorderEvent.request)

/-- No producer begins a call for the stream while another one is under way. -/
def Serial (stream : Nat) (s : System) (action : Action) : Prop :=
  ∀ producer request, action = .call producer request → request.streamId = stream →
    s.producers producer = .idle →
    ∀ other before, s.pending other = some before → before.streamId ≠ stream

/-- What an action does for the events under way: one call begins, or one event is accepted. -/
inductive Passes (s s' : System) : Action → Prop where
  | kept (action : Action) (accepted : s'.accepted = s.accepted)
      (pending : ∀ producer, s'.pending producer = s.pending producer ∨ s'.pending producer = none) :
      Passes s s' action
  | called (producer : Nat) (request : Request) (idle : s.producers producer = .idle)
      (accepted : s'.accepted = s.accepted) (begins : s'.pending producer = some request)
      (others : ∀ other, other ≠ producer → s'.pending other = s.pending other) :
      Passes s s' (.call producer request)
  | handed (action : Action) (quiet : action.request = none) (producer : Nat) (ev : RecorderEvent) (was : s.pending producer = some ev.request)
      (accepted : s'.accepted = s.accepted ++ [ev]) (done : s'.pending producer = none)
      (others : ∀ other, other ≠ producer → s'.pending other = s.pending other) :
      Passes s s' action

section Passes

theorem pending_frame {producer : Nat} (same : s'.producers producer = s.producers producer)
    (values : ∀ node, (s.producers producer).node = some node →
      valueAt s'.heap node = valueAt s.heap node) :
    s'.pending producer = s.pending producer := by
  rw [pending, pending, same]
  cases phase : s.producers producer with
  | idle | called request | freeing node => rfl
  | created node | locking node =>
    rw [phase] at values
    exact congrArg (Option.map RecorderEvent.request) (values node rfl)

theorem pending_own (heap : Heap Nat RecorderEvent) (producers : Nat → Producer) (producer : Nat)
    (phase : Producer) :
    (Function.update producers producer phase producer).pending heap = phase.pending heap := by
  rw [Function.update_self]

theorem pending_setProducer (producer other : Nat) (phase : Producer) (apart : other ≠ producer) :
    (s.setProducer producer phase).pending other = s.pending other :=
  pending_frame (Function.update_of_ne apart ..) fun _ _ => rfl

theorem Passes.refl (action : Action) : Passes s s action :=
  .kept action rfl fun _ => .inl rfl

/-- One producer goes on, all else being as it was. -/
theorem Passes.goes_on (producer : Nat) {action : Action} (accepted : s'.accepted = s.accepted)
    (own : s'.pending producer = s.pending producer ∨ s'.pending producer = none)
    (others : ∀ other, other ≠ producer → s'.pending other = s.pending other) :
    Passes s s' action := by
  refine .kept action accepted fun other => ?_
  by_cases same : other = producer
  · exact same ▸ own
  · exact .inl (others other same)

variable {nodes : List Nat} {queue : List RecorderEvent}

/-- The events of other producers stay in memory. -/
theorem Inv.apart (inv : Inv queueLimitBytes s nodes queue) {holder : Holder} {node : Nat}
    (holds : holding s.producers s.thread holder = some node) {producer other : Nat}
    (different : holder ≠ .producer producer) (own : (s.producers producer).node = some other) :
    other ≠ node := by
  rintro rfl
  exact different (inv.listed.memory.apart _ _ _ holds own)

theorem passes_enqueue {producer node : Nat} (locking : s.producers producer = .locking node) :
    Passes s (s.enqueueEvent queueLimitBytes producer node) (.enqueue producer) := by
  unfold enqueueEvent
  cases stored : s.heap node with
  | none => exact .refl _
  | some old =>
    obtain ⟨ev, next⟩ := old
    have was : s.pending producer = some ev.request := by
      rw [pending, locking, Producer.pending, valueAt, stored]
      rfl
    dsimp only
    split
    · refine .goes_on producer rfl (.inr ?_) fun other apart => pending_setProducer _ _ _ apart
      exact pending_own _ s.producers producer (.freeing node)
    · split
      · refine .goes_on producer ?_ (.inr ?_) fun other apart => ?_
        · exact (accepted_snoc s ev false).trans (List.append_nil _)
        · exact pending_own _ s.producers producer (.freeing node)
        · exact pending_frame (Function.update_of_ne apart ..) fun _ _ => rfl
      · refine .handed _ rfl producer ev was (accepted_snoc s ev true) ?_ fun other apart => ?_
        · exact pending_own _ s.producers producer .idle
        · refine pending_frame (Function.update_of_ne apart ..) fun held _ => ?_
          exact valueAt_push s.ends node held

theorem Inv.passes (inv : Inv queueLimitBytes s nodes queue) (action : Action) :
    Passes s (s.step cfg queueLimitBytes action) action := by
  cases action with
  | call producer request =>
    dsimp only [System.step]
    split
    case isTrue may =>
      refine .called producer request may.1 rfl ?_ fun other apart => pending_setProducer _ _ _ apart
      exact pending_own _ s.producers producer (.called request)
    case isFalse => exact .refl _
  | allocate producer wallMs monoNs node =>
    dsimp only [System.step]
    split
    case h_1 request called =>
      unfold System.allocate
      split
      case isTrue fresh =>
        refine .goes_on producer rfl (.inl ?_) fun other apart => ?_
        · refine (pending_own _ s.producers producer (.created node)).trans ?_
          rw [pending, called]
          simp [Producer.pending, valueAt]
        · refine pending_frame (Function.update_of_ne apart ..) fun held own => ?_
          have live := (inv.listed.memory.held (.producer other) held own).1
          have different : held ≠ node := fun same => fresh.1 (same ▸ live)
          exact congrArg (Option.map _) (Function.update_of_ne different ..)
      case isFalse => exact .refl _
    case h_2 => exact .refl _
  | test producer =>
    dsimp only [System.step]
    split
    case h_1 node created =>
      refine .goes_on producer rfl ?_ fun other apart => pending_setProducer _ _ _ apart
      split
      · left
        refine (pending_own s.heap s.producers producer (.locking node)).trans ?_
        rw [pending, created]
        rfl
      · exact .inr (pending_own _ s.producers producer (.freeing node))
    case h_2 => exact .refl _
  | enqueue producer =>
    dsimp only [System.step]
    split
    case h_1 node locking => exact passes_enqueue queueLimitBytes locking
    case h_2 => exact .refl _
  | free producer =>
    dsimp only [System.step]
    split
    case h_1 node freeing =>
      have holds : holding s.producers s.thread (.producer producer) = some node := by
        rw [holding, freeing]
        rfl
      refine .goes_on producer rfl (.inr ?_) fun other apart => ?_
      · exact pending_own _ s.producers producer .idle
      · refine pending_frame (Function.update_of_ne apart ..) fun held own => ?_
        have different := inv.apart queueLimitBytes holds (by simpa using apart.symm) own
        exact congrArg (Option.map _) (Function.update_of_ne different ..)
    case h_2 => exact .refl _
  | take =>
    dsimp only [System.step]
    split
    · unfold System.takeEvent
      split
      · exact .kept _ rfl fun _ => .inl rfl
      · split
        · exact .refl _
        · exact .kept _ rfl fun _ => .inl rfl
    · exact .refl _
  | wake => exact .kept _ rfl fun _ => .inl rfl
  | process answers =>
    dsimp only [System.step]
    split
    case h_1 node working =>
      have holds : holding s.producers s.thread .thread = some node := by
        rw [holding, working]
        rfl
      unfold System.processEvent
      split
      · exact .refl _
      · refine .kept _ rfl fun other => .inl (pending_frame rfl fun held own => ?_)
        have different := inv.apart queueLimitBytes holds (by simp) own
        exact congrArg (Option.map _) (Function.update_of_ne different ..)
    case h_2 => exact .refl _
  | close answers =>
    dsimp only [System.step]
    split
    · exact .kept _ rfl fun _ => .inl rfl
    · exact .refl _
  | stop =>
    dsimp only [System.step]
    split
    · exact .kept _ rfl fun _ => .inl rfl
    · exact .refl _
  | join =>
    dsimp only [System.step]
    split
    · exact .kept _ rfl fun _ => .inl rfl
    · exact .refl _
  | drain =>
    dsimp only [System.step]
    split
    case h_1 next draining =>
      have phase := inv.phased.stopper
      rw [draining] at phase
      obtain ⟨-, -, -, rfl⟩ := phase
      exact .kept _ rfl fun _ => .inl rfl
    case h_2 => exact .refl _

end Passes

/-- Behind the accepted calls for a stream at most one is under way. -/
structure Ordered (stream : Nat) (calls : List Request) (s : System) : Prop where
  alone : ∀ a b first second, s.pending a = some first → s.pending b = some second →
    first.streamId = stream → second.streamId = stream → a = b
  behind : ∀ producer request, s.pending producer = some request → request.streamId = stream →
    (s.acceptedFor stream ++ [request]).Sublist calls
  order : (s.acceptedFor stream).Sublist calls

theorem acceptedFor_snoc (stream : Nat) {ev : RecorderEvent} (accepted : s'.accepted = s.accepted ++ [ev]) :
    s'.acceptedFor stream =
      s.acceptedFor stream ++ if ev.streamId = stream then [ev.request] else [] := by
  rw [acceptedFor, accepted, List.map_append, forStream_append]
  by_cases own : ev.streamId = stream <;> simp [acceptedFor, forStream, own]

theorem Ordered.passes {stream : Nat} {calls : List Request} (ordered : Ordered stream calls s)
    {action : Action} (serial : Serial stream s action) (passes : Passes s s' action) :
    Ordered stream (calls ++ forStream stream action.request.toList) s' := by
  obtain ⟨alone, behind, order⟩ := ordered
  have longer {requests : List Request} (within : requests.Sublist calls) :
      requests.Sublist (calls ++ forStream stream action.request.toList) :=
    within.trans (List.sublist_append_left _ _)
  cases passes with
  | kept action accepted pending =>
    have before {producer : Nat} {request : Request} (now : s'.pending producer = some request) :
        s.pending producer = some request := by
      rcases pending producer with same | none
      · rw [← same, now]
      · rw [none] at now
        cases now
    have same : s'.acceptedFor stream = s.acceptedFor stream := by rw [acceptedFor, accepted, acceptedFor]
    refine ⟨fun a b first second left right => alone a b first second (before left) (before right),
      fun producer request now own => ?_, ?_⟩
    · rw [same]
      exact longer (behind producer request (before now) own)
    · rw [same]
      exact longer order
  | called producer request idle accepted begins others =>
    have same : s'.acceptedFor stream = s.acceptedFor stream := by rw [acceptedFor, accepted, acceptedFor]
    have before {other : Nat} {before : Request} (now : s'.pending other = some before)
        (apart : other ≠ producer) : s.pending other = some before := by rw [← others other apart, now]
    have only {a b : Nat} {first second : Request} (left : s'.pending a = some first)
        (right : s'.pending b = some second) (own : first.streamId = stream)
        (also : second.streamId = stream) (mine : a = producer) : b = producer := by
      by_contra apart
      subst mine
      obtain rfl : request = first := Option.some.inj (begins.symm.trans left)
      exact serial _ request rfl own idle b second (before right apart) also
    refine ⟨fun a b first second left right own also => ?_, fun other pending now own => ?_, ?_⟩
    · by_cases mine : a = producer
      · exact mine.trans (only left right own also mine).symm
      · by_cases other : b = producer
        · exact (only right left also own other).trans other.symm
        · exact alone a b first second (before left mine) (before right other) own also
    · rw [same]
      by_cases mine : other = producer
      · subst mine
        obtain rfl : request = pending := Option.some.inj (begins.symm.trans now)
        simp only [Action.request, Option.toList_some, forStream, List.filter_cons, own, decide_true, if_true,
          List.filter_nil]
        exact order.append_right [request]
      · exact longer (behind other pending (before now mine) own)
    · rw [same]
      exact longer order
  | handed action quiet producer ev was accepted done others =>
    have before {other : Nat} {request : Request} (now : s'.pending other = some request) :
        other ≠ producer ∧ s.pending other = some request := by
      have apart : other ≠ producer := by
        rintro rfl
        rw [done] at now
        cases now
      exact ⟨apart, by rw [← others other apart, now]⟩
    have snoc := acceptedFor_snoc stream accepted
    refine ⟨fun a b first second left right =>
      alone a b first second (before left).2 (before right).2, fun other request now own => ?_, ?_⟩
    · have foreign : ev.streamId ≠ stream := by
        intro mine
        exact (before now).1 (alone other producer request ev.request (before now).2 was own
          (by rw [RecorderEvent.request_streamId, mine]))
      rw [snoc, if_neg foreign, List.append_nil]
      exact longer (behind other request (before now).2 own)
    · rw [snoc]
      split
      case isTrue own => exact longer (behind producer ev.request was (by simpa using own))
      case isFalse =>
        rw [List.append_nil]
        exact longer order

theorem callsFor_snoc (stream : Nat) (past : List Action) (action : Action) :
    callsFor stream (past ++ [action]) = callsFor stream past ++ forStream stream action.request.toList := by
  rw [callsFor, List.filterMap_append, forStream_append, callsFor]
  cases called : action.request <;> simp [called]

section Runs

variable (mounts : List MntEnt) (nowNs : UInt64)

theorem ordered_run (stream : Nat) (actions : List Action)
    (serial : Run.Always (step cfg queueLimitBytes) (start cfg mounts nowNs) (Serial stream) actions) :
    Ordered stream (callsFor stream actions)
      (Run.run (step cfg queueLimitBytes) (start cfg mounts nowNs) actions) := by
  refine And.right <| Run.history_while _ _ (Serial stream)
    (fun past s => (∃ nodes queue, Inv queueLimitBytes s nodes queue) ∧
      Ordered stream (callsFor stream past) s)
    ⟨⟨_, _, inv_start cfg mounts nowNs queueLimitBytes⟩, ?_⟩ ?_ actions serial
  · exact ⟨fun _ _ _ _ none => (by cases none), fun _ _ none => (by cases none), List.nil_sublist _⟩
  · rintro past action ⟨⟨nodes, queue, inv⟩, ordered⟩ allowed
    rw [callsFor_snoc]
    exact ⟨inv.step cfg queueLimitBytes action,
      ordered.passes allowed (inv.passes cfg queueLimitBytes action)⟩

variable {nodes : List Nat} {queue : List RecorderEvent}

/-- The calls of one producer do not overlap. -/
theorem serial_single (stream producer : Nat) (actions : List Action)
    (single : ∀ other request, .call other request ∈ actions → request.streamId = stream →
      other = producer) :
    Run.Always (step cfg queueLimitBytes) (start cfg mounts nowNs) (Serial stream) actions := by
  have only : Run.Always (step cfg queueLimitBytes) (start cfg mounts nowNs)
      (fun _ action => ∀ other request, action = .call other request → request.streamId = stream →
        other = producer) actions :=
    Run.always_of_mem _ _ fun action member other request same own =>
      single other request (same ▸ member) own
  rintro past action rest rfl first request rfl own idle other before now mine
  have alone := And.right <| Run.history_while _ _ _
    (fun _ s => (∃ nodes queue, Inv queueLimitBytes s nodes queue) ∧
      ∀ other request, s.pending other = some request → request.streamId = stream → other = producer)
    ⟨⟨_, _, inv_start cfg mounts nowNs queueLimitBytes⟩, fun _ _ none => (by cases none)⟩
    (fun _ action held allowed => ?_) past (Run.always_before _ _ only)
  · obtain rfl := alone other before now mine
    obtain rfl := single first request (by simp) own
    rw [pending, idle] at now
    cases now
  · obtain ⟨⟨nodes, queue, inv⟩, alone⟩ := held
    refine ⟨inv.step cfg queueLimitBytes action, fun other request now own => ?_⟩
    cases inv.passes cfg queueLimitBytes action with
    | kept _ _ pending =>
      rcases pending other with same | none
      · exact alone other request (same ▸ now) own
      · rw [none] at now
        cases now
    | called first request' _ _ begins others =>
      by_cases mine : other = first
      · subst mine
        obtain rfl := Option.some.inj (begins.symm.trans now)
        exact allowed other _ rfl own
      · exact alone other request (others other mine ▸ now) own
    | handed _ _ first _ _ _ done others =>
      by_cases mine : other = first
      · rw [mine, done] at now
        cases now
      · exact alone other request (others other mine ▸ now) own

/-- Whatever is not a move of the thread leaves the files as they are. -/
theorem step_world (action : Action) (still : s.moves action = false) :
    (s.step cfg queueLimitBytes action).machine.w = s.machine.w := by
  cases action with
  | call producer request | join =>
    dsimp only [step]
    split <;> rfl
  | allocate producer wallMs monoNs node =>
    dsimp only [step]
    split
    · unfold allocate
      split <;> rfl
    · rfl
  | test producer | free producer =>
    dsimp only [step]
    split <;> rfl
  | enqueue producer =>
    dsimp only [step]
    split
    · unfold enqueueEvent
      split
      · rfl
      · split
        · rfl
        · split <;> rfl
    · rfl
  | take | close answers =>
    rw [step, if_neg (of_decide_eq_false still)]
  | wake => rfl
  | process answers =>
    dsimp only [step]
    split
    case h_1 node working =>
      rw [moves, working] at still
      cases still
    case h_2 => rfl
  | stop =>
    dsimp only [step]
    split <;> rfl
  | drain =>
    dsimp only [step]
    split
    · unfold drainEvent
      split
      · rfl
      · split <;> rfl
    · rfl

/-- The files are those of a recorder that has processed the events, also after it has stopped. -/
def Leaves (s : System) : Prop :=
  ∃ m, Reached cfg mounts nowNs s.processed m ∧ s.machine.w = m.w

/-- A recorder whose thread has a move has not stopped, before the move or after it. -/
theorem Inv.move_unstopped (inv : Inv queueLimitBytes s nodes queue) {action : Action}
    (moves : s.moves action = true) : (s.step cfg queueLimitBytes action).stopper ≠ .stopped := by
  have kept : (s.step cfg queueLimitBytes action).stopper = s.stopper := by
    cases action with
    | take =>
      rw [System.step, if_pos (of_decide_eq_true moves), System.takeEvent]
      split
      · rfl
      · split <;> rfl
    | process answers =>
      dsimp only [System.step]
      split
      · unfold System.processEvent
        split <;> rfl
      · rfl
    | close answers => rw [System.step, if_pos (of_decide_eq_true moves)]
    | _ => cases moves
  intro stopped
  have phase := inv.phased.stopper
  rw [← kept, stopped] at phase
  have exited : s.thread = .exited := phase.2.2
  cases action <;> simp [System.moves, exited, RecorderThread.node] at moves

theorem leaves_run (actions : List Action) :
    Leaves cfg mounts nowNs (Run.run (step cfg queueLimitBytes) (start cfg mounts nowNs) actions) := by
  refine And.right <| Run.history (step cfg queueLimitBytes) (start cfg mounts nowNs)
    (fun _ s => ((∃ nodes queue, Inv queueLimitBytes s nodes queue) ∧ Computed cfg mounts nowNs s) ∧
      Leaves cfg mounts nowNs s)
    ⟨⟨⟨_, _, inv_start cfg mounts nowNs queueLimitBytes⟩, fun _ => rfl⟩, _, .inl rfl, rfl⟩ ?_ actions
  rintro past action ⟨⟨⟨nodes, queue, inv⟩, computed⟩, m, reached, world⟩
  have now := inv.computed_step cfg queueLimitBytes mounts nowNs computed action
  refine ⟨⟨inv.step cfg queueLimitBytes action, now⟩, ?_⟩
  generalize Run.run (step cfg queueLimitBytes) (start cfg mounts nowNs) past = s at *
  cases moves : s.moves action with
  | false =>
    have processed := (s.step_idle cfg queueLimitBytes action moves).1
    exact ⟨m, processed ▸ reached, (step_world cfg queueLimitBytes action moves).trans world⟩
  | true =>
    have machine := now (inv.move_unstopped cfg queueLimitBytes moves)
    split at machine
    · exact ⟨_, .inr machine, rfl⟩
    · exact ⟨_, .inl machine, rfl⟩

/-- What is processed gets its answers from the schedule. -/
theorem processed_answers (actions : List Action) :
    ∀ input ∈ (Run.run (step cfg queueLimitBytes) (start cfg mounts nowNs) actions).processed,
      .process input.answers ∈ actions := by
  refine Run.history (step cfg queueLimitBytes) (start cfg mounts nowNs)
    (fun past s => ∀ input ∈ s.processed, .process input.answers ∈ past) (fun _ none => by cases none) ?_
    actions
  intro past action before
  generalize Run.run (step cfg queueLimitBytes) (start cfg mounts nowNs) past = s at *
  have kept (same : (s.step cfg queueLimitBytes action).processed = s.processed) :
      ∀ input ∈ (s.step cfg queueLimitBytes action).processed,
        .process input.answers ∈ past ++ [action] := by
    rw [same]
    exact fun input member => List.mem_append_left _ (before input member)
  cases action with
  | process answers =>
    dsimp only [step] at kept ⊢
    split
    case h_1 node working =>
      unfold processEvent
      split
      · exact fun input member => List.mem_append_left _ (before input member)
      · intro input member
        rcases List.mem_append.mp member with earlier | now
        · exact List.mem_append_left _ (before input earlier)
        · obtain rfl := List.mem_singleton.mp now
          simp
    case h_2 => exact fun input member => List.mem_append_left _ (before input member)
  | take =>
    refine kept ?_
    dsimp only [step]
    split
    · unfold takeEvent
      split
      · rfl
      · split <;> rfl
    · rfl
  | close answers =>
    refine kept ?_
    dsimp only [step]
    split <;> rfl
  | _ => exact kept (s.step_idle cfg queueLimitBytes _ rfl).1

end Runs

end System

section Files

variable (cfg : Config) (stream : Nat)

def Request.payload : Request → Option Bytes
  | .video _ data => some data
  | _ => none

def payloads (requests : List Request) : List Bytes := requests.filterMap Request.payload

/-- The packets of a stream are payloads of its events. -/
theorem packets_payloads (inputs : List Input) :
    (packets stream inputs).Sublist
      (payloads (forStream stream (inputs.map fun input => input.event.request))) := by
  induction inputs with
  | nil => exact List.Sublist.slnil
  | cons input inputs ih =>
    have split : packets stream (input :: inputs) =
        packets stream [input] ++ packets stream inputs := packets_append stream [input] inputs
    have calls : forStream stream ((input :: inputs).map fun input => input.event.request) =
        forStream stream [input.event.request] ++
          forStream stream (inputs.map fun input => input.event.request) :=
      forStream_append stream [input.event.request] _
    rw [split, calls, payloads, List.filterMap_append]
    refine List.Sublist.append ?_ ih
    by_cases packet : isPacket stream input = true
    · have shape := packet
      simp only [isPacket, Bool.and_eq_true, decide_eq_true_eq] at shape
      obtain ⟨⟨own, video⟩, -⟩ := shape
      simp [packets, packet, forStream, own, RecorderEvent.request, video, Request.payload,
        Request.streamId]
    · simp [packets, packet]

/-- A session has the codec of a STREAM_START. -/
theorem sessionOf_started (inputs : List Input) (session : Session)
    (current : sessionOf cfg stream inputs = some session) :
    ∃ info, .streamStart stream info ∈ inputs.map (fun input => input.event.request) ∧
      session.codec = info.codec := by
  refine Run.history (sessionStep cfg stream) none (fun past current => ∀ session,
    current = some session → ∃ info,
      Request.streamStart stream info ∈ past.map (fun input => input.event.request) ∧
        session.codec = info.codec) (fun _ none => by cases none) ?_ inputs session current
  intro past input before session after
  have later {session : Session} (was : Run.run (sessionStep cfg stream) none past = some session) :
      ∃ info, Request.streamStart stream info ∈
        (past ++ [input]).map (fun input => input.event.request) ∧ session.codec = info.codec := by
    obtain ⟨info, member, same⟩ := before session was
    exact ⟨info, by simp only [List.map_append, List.mem_append, member, true_or], same⟩
  unfold sessionStep at after
  split at after
  · next own =>
    split at after
    · next type =>
      split at after
      · obtain rfl := Option.some.inj after
        refine ⟨input.event.info, ?_, rfl⟩
        simp [RecorderEvent.request, type, own]
      · cases after
    · obtain ⟨was, same, rfl⟩ := Option.map_eq_some_iff.mp after
      obtain ⟨info, member, codec⟩ := later same
      exact ⟨info, member, codec⟩
    · cases after
  · exact later after

/-- What the finished files of a stream hold of the calls for it. -/
structure OnDisk (calls : List Request) (log : List Entry) (recordings : List Recording) : Prop where
  contents : (renamesOf stream log).map Entry.content =
    recordings.map fun recording => some recording.bytes
  ready : ∀ recording ∈ recordings, recording.session.Ready
  keyframe : ∀ recording ∈ recordings,
    hasKeyframe recording.session.codec recording.first = true
  codec : ∀ recording ∈ recordings, ∃ info, .streamStart stream info ∈ calls ∧
    recording.session.codec = info.codec
  order : (recordings.flatMap Recording.packets).Sublist (payloads calls)

variable {cfg stream}

theorem System.Leaves.onDisk {mounts : List MntEnt} {nowNs queueLimitBytes : UInt64} {s : System}
    {nodes : List Nat} {queue : List RecorderEvent} {calls : List Request}
    (leaves : s.Leaves cfg mounts nowNs) (inv : System.Inv queueLimitBytes s nodes queue)
    (ordered : System.Ordered stream calls s) (require : cfg.requireNfsMount = false)
    (wrote : ∀ input ∈ s.processed, input.Wrote) :
    ∃ recordings, OnDisk stream calls s.machine.w.log recordings := by
  obtain ⟨m, reached, world⟩ := leaves
  obtain ⟨recordings, contents, recorded, order⟩ := reached.recordings cfg require wrote stream
  have processed : (forStream stream (s.processed.map fun input => input.event.request)).Sublist
      calls := by
    refine List.Sublist.trans ?_ ordered.order
    rw [System.acceptedFor, inv.tracked.order, List.append_assoc, List.map_append, List.map_map,
      forStream_append]
    exact List.sublist_append_left _ _
  refine ⟨recordings, by rw [world, contents], fun recording member => (recorded recording member).ready,
    fun recording member => (recorded recording member).keyframe, fun recording member => ?_,
    order.trans ((packets_payloads stream s.processed).trans (processed.filterMap _))⟩
  obtain ⟨past, ⟨later, split⟩, current⟩ := (recorded recording member).session
  obtain ⟨info, started, codec⟩ := sessionOf_started cfg stream past recording.session current
  refine ⟨info, processed.subset (List.mem_filter.mpr ⟨?_, by simp [Request.streamId]⟩), codec⟩
  rw [← split, List.map_append]
  exact List.mem_append_left _ started

end Files

/-- Every write that is said to have succeeded reached the file. -/
def Action.Wrote : Action → Prop
  | .process answers => ∀ part answer, answers.write.Gives part answer → answer.Wrote
  | _ => True

/-- From the calls to the files, whatever the parties do in between and however far they are: as long
as the calls for a stream do not overlap, its finished files hold, one behind the other, payloads of
the calls in their order, each file from a key frame on behind the sets of its codec. -/
theorem calls_reach_disk (cfg : Config) (require : cfg.requireNfsMount = false)
    (queueLimitBytes : UInt64) (mounts : List MntEnt) (nowNs : UInt64) (stream : Nat)
    (actions : List Action) (wrote : ∀ action ∈ actions, action.Wrote)
    (serial : Run.Always (System.step cfg queueLimitBytes) (System.start cfg mounts nowNs)
      (System.Serial stream) actions) :
    ∃ recordings, OnDisk stream (callsFor stream actions)
      (Run.run (System.step cfg queueLimitBytes) (System.start cfg mounts nowNs) actions).machine.w.log
      recordings := by
  have ordered := System.ordered_run cfg queueLimitBytes mounts nowNs stream actions serial
  have leaves := System.leaves_run cfg queueLimitBytes mounts nowNs actions
  have answered := System.processed_answers cfg queueLimitBytes mounts nowNs actions
  obtain ⟨nodes, queue, inv⟩ :=
    (System.inv_start cfg mounts nowNs queueLimitBytes).run cfg queueLimitBytes actions
  apply leaves.onDisk inv ordered require
  exact fun input member => wrote _ (answered input member)

/-- A whole call of one producer, and the thread that processes its event. -/
def callActions (producer node ms : Nat) (request : Request) : List Action :=
  [.call producer request, .allocate producer (UInt64.ofNat ms) (UInt64.ofNat ms * 1000000) node,
    .test producer, .enqueue producer, .take, .process goodAnswers]

/-- Two streams, of which one rolls over after a minute. -/
def sampleActions : List Action :=
  callActions 0 0 1000 (.streamStart 1 .zero) ++ callActions 0 1 1100 (.video 1 keyPacket) ++
    callActions 1 2 1150 (.streamStart 2 .zero) ++ callActions 0 3 1200 (.video 1 [0x41, 2]) ++
    callActions 0 4 62000 (.video 1 keyPacket) ++ [.stop, .take, .close fun _ => goodClose]

set_option maxRecDepth 20000 in
theorem calls_reach_disk_rolling :
    let log := (Run.run (System.step (sampleConfig false) 1000)
      (System.start (sampleConfig false) [] 1) sampleActions).machine.w.log
    (renamesOf 1 log).length = 2 ∧ ∃ recordings, OnDisk 1
      [.streamStart 1 .zero, .video 1 keyPacket, .video 1 [0x41, 2], .video 1 keyPacket]
      log recordings := by
  refine ⟨by decide, ?_⟩
  refine calls_reach_disk (sampleConfig false) rfl 1000 [] 1 1 sampleActions ?_
    (System.serial_single _ _ _ _ 1 0 sampleActions ?_)
  · have good : ∀ part answer, goodAnswers.write.Gives part answer → answer.Wrote := by
      intro part answer gives
      rcases gives with ⟨-, i, rfl⟩ | ⟨-, rfl | rfl⟩ <;> exact fun _ => rfl
    simpa [sampleActions, callActions, Action.Wrote] using good
  · intro other request member own
    simp only [sampleActions, callActions, List.cons_append, List.nil_append, List.mem_cons,
      Action.call.injEq, reduceCtorEq, List.not_mem_nil, or_false, false_or] at member
    rcases member with ⟨rfl, -⟩ | ⟨rfl, -⟩ | ⟨-, rfl⟩ | ⟨rfl, -⟩ | ⟨rfl, -⟩
    · rfl
    · rfl
    · cases own
    · rfl
    · rfl

end StreamRelay.Recorder

