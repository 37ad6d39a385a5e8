import StreamRelay.Recorder.Queue

/-! Who holds which event, and what every critical section keeps: the list with its
counters, the order of the events, and the phases of the recorder's life. -/
namespace StreamRelay.Recorder

open LinkedQueue (Heap Ends Memory Represents valueAt valueAt_push)

/-- The parties that can hold an event outside the queue. -/
inductive Holder where
  | producer (id : Nat)
  | thread
  deriving DecidableEq

def Producer.node : Producer → Option Nat
  | .idle | .called _ => none
  | .created node | .locking node | .freeing node => some node

def RecorderThread.node : RecorderThread → Option Nat
  | .working node => some node
  | _ => none

theorem RecorderEvent.videoLen_le (ev : RecorderEvent) : ev.videoLen + 1 ≤ ev.footprint := by
  unfold videoLen footprint
  split <;> omega

theorem videoLens_le (queue : List RecorderEvent) :
    (queue.map RecorderEvent.videoLen).sum + queue.length ≤
      (queue.map RecorderEvent.footprint).sum := by
  induction queue with
  | nil => exact Nat.le_refl _
  | cons ev queue ih =>
    have own := ev.videoLen_le
    simp only [List.map_cons, List.sum_cons, List.length_cons]
    omega

theorem RecorderEvent.len_toNat {ev : RecorderEvent} (video : ev.type = .video)
    (fits : ev.videoLen < UInt64.size) : ev.len.toNat = ev.videoLen := by
  rw [videoLen, if_pos video] at fits ⊢
  exact UInt64.toNat_ofNat_of_lt' fits

theorem RecorderEvent.videoLen_other {ev : RecorderEvent} (other : ev.type ≠ .video) :
    ev.videoLen = 0 := if_neg other

namespace System

def holding (producers : Nat → Producer) (thread : RecorderThread) : Holder → Option Nat
  | .producer id => (producers id).node
  | .thread => thread.node

theorem holding_producer (producers : Nat → Producer) (thread : RecorderThread) (producer : Nat)
    (phase : Producer) :
    holding (Function.update producers producer phase) thread =
      Function.update (holding producers thread) (.producer producer) phase.node := by
  funext holder
  cases holder with
  | thread => rfl
  | producer id =>
    by_cases same : id = producer
    · subst same
      simp [holding]
    · simp [holding, Function.update, same]

theorem holding_thread (producers : Nat → Producer) (old new : RecorderThread) :
    holding producers new = Function.update (holding producers old) .thread new.node := by
  funext holder
  cases holder with
  | thread => simp [holding]
  | producer id => rfl

/-- A party that goes on with the node it holds. -/
theorem holding_kept (producers : Nat → Producer) (thread : RecorderThread) (producer : Nat)
    (phase : Producer) (kept : phase.node = (producers producer).node) :
    holding (Function.update producers producer phase) thread = holding producers thread := by
  rw [holding_producer, kept]
  exact Function.update_eq_self _ _

theorem holding_thread_kept (producers : Nat → Producer) (old new : RecorderThread)
    (kept : new.node = old.node) : holding producers new = holding producers old := by
  rw [holding_thread producers old new, kept]
  exact Function.update_eq_self _ _

/-- The list and what is in memory, with the two counters of the list. -/
structure Listed (queueLimitBytes : UInt64) (s : System) (nodes : List Nat)
    (queue : List RecorderEvent) : Prop where
  memory : Memory RecorderEvent.footprint UInt64.size s.heap s.live s.ends
    (holding s.producers s.thread) nodes queue
  events : s.queuedEvents.toNat = queue.length
  bytes : s.queuedBytes.toNat = (queue.map RecorderEvent.videoLen).sum
  limit : s.queuedBytes ≤ queueLimitBytes

/-- What became of the events that were handed in. -/
structure Tracked (s : System) (queue : List RecorderEvent) : Prop where
  order : s.accepted = s.processed.map Input.event ++ s.inHand ++ queue
  refused : ∀ ev ∈ s.refused, ev.type = .video
  dropped : s.configured = true →
    s.droppedPackets = UInt64.ofNat s.refused.length ∧
      s.droppedBytes = UInt64.ofNat (s.refused.map RecorderEvent.videoLen).sum

/-- Where the thread can be, by what the flags and the queue are. -/
def ThreadPhase (running empty : Bool) : RecorderThread → Prop
  | .looking | .working _ => True
  | .asleep => running ∧ empty
  | .closing | .exited => !running ∧ empty

/-- Where compressed_recorder_stop can be, by what the flags and the thread are. -/
def StopperPhase (configured running : Bool) (thread : RecorderThread) : Stopper → Prop
  | .notCalled => configured ∧ running
  | .joining => configured ∧ !running
  | .draining next => configured ∧ !running ∧ thread = .exited ∧ next = none
  | .stopped => !configured ∧ !running ∧ thread = .exited

structure Phased (s : System) (queue : List RecorderEvent) : Prop where
  flags : s.accepting = s.running
  thread : ThreadPhase s.running queue.isEmpty s.thread
  stopper : StopperPhase s.configured s.running s.thread s.stopper

structure Inv (queueLimitBytes : UInt64) (s : System) (nodes : List Nat)
    (queue : List RecorderEvent) : Prop where
  listed : Listed queueLimitBytes s nodes queue
  tracked : Tracked s queue
  phased : Phased s queue

theorem inv_start (cfg : Config) (mounts : List MntEnt) (nowNs : UInt64) (queueLimitBytes : UInt64) :
    Inv queueLimitBytes (start cfg mounts nowNs) [] [] where
  listed :=
    {memory := by
      have none : holding (fun _ => Producer.idle) .looking = fun _ => none := by
        funext holder
        cases holder <;> rfl
      show Memory _ _ _ _ _ (holding (fun _ => Producer.idle) .looking) _ _
      rw [none]
      exact LinkedQueue.memory_empty (by decide)
     events := rfl
     bytes := rfl
     limit := UInt64.zero_le}
  tracked := ⟨rfl, nofun, fun _ => ⟨rfl, rfl⟩⟩
  phased := ⟨rfl, trivial, rfl, rfl⟩

section Frames

variable {queueLimitBytes : UInt64} {s : System} {nodes : List Nat} {queue : List RecorderEvent}

theorem inHand_congr {s' : System} (thread : s'.thread = s.thread)
    (values : ∀ node, s.thread.node = some node → valueAt s'.heap node = valueAt s.heap node) :
    s'.inHand = s.inHand := by
  unfold inHand
  rw [thread]
  cases phase : s.thread with
  | working node =>
    rw [phase] at values
    exact congrArg Option.toList (values node rfl)
  | looking | asleep | closing | exited => rfl

theorem Tracked.frame {s' : System} (tracked : Tracked s queue) (inHand : s'.inHand = s.inHand)
    (processed : s'.processed = s.processed) (handed : s'.handed = s.handed)
    (dropped : s'.configured = true → s.configured = true ∧ s'.droppedPackets = s.droppedPackets ∧
      s'.droppedBytes = s.droppedBytes) : Tracked s' queue := by
  obtain ⟨order, refused, counted⟩ := tracked
  refine ⟨?_, ?_, fun configured => ?_⟩
  · rw [accepted, handed, processed, inHand]
    exact order
  · rw [System.refused, handed]
    exact refused
  · obtain ⟨before, packets, bytes⟩ := dropped configured
    rw [System.refused, handed, packets, bytes]
    exact counted before

/-- A producer that goes on with the node it holds. -/
theorem Inv.setProducer (inv : Inv queueLimitBytes s nodes queue) (producer : Nat) (phase : Producer)
    (kept : phase.node = (s.producers producer).node) :
    Inv queueLimitBytes (s.setProducer producer phase) nodes queue where
  listed :=
    {inv.listed with
      memory := by
        have memory := inv.listed.memory
        rw [← holding_kept s.producers s.thread producer phase kept] at memory
        exact memory}
  tracked := inv.tracked.frame rfl rfl rfl fun configured => ⟨configured, rfl, rfl⟩
  phased := ⟨inv.phased.flags, inv.phased.thread, inv.phased.stopper⟩

theorem signal_node : s.signal.thread.node = s.thread.node := by
  unfold signal
  by_cases asleep : s.thread = .asleep
  · rw [if_pos asleep, asleep]
    rfl
  · rw [if_neg asleep]

theorem signal_inHand : s.signal.inHand = s.inHand := by
  by_cases asleep : s.thread = .asleep
  · simp [inHand, signal, asleep]
  · exact inHand_congr (if_neg asleep) fun _ _ => rfl

theorem Listed.signal (listed : Listed queueLimitBytes s nodes queue) :
    Listed queueLimitBytes s.signal nodes queue :=
  {listed with
    memory := by
      have memory := listed.memory
      rw [← holding_thread_kept s.producers s.thread s.signal.thread signal_node] at memory
      exact memory}

theorem Tracked.signal (tracked : Tracked s queue) : Tracked s.signal queue :=
  tracked.frame signal_inHand rfl rfl fun configured => ⟨configured, rfl, rfl⟩

/-- While the recorder runs, a signal leaves the thread awake. -/
theorem Phased.signal (running : s.running = true) (flags : s.accepting = true)
    (thread : s.thread ≠ .closing ∧ s.thread ≠ .exited) (configured : s.configured = true)
    (stopper : s.stopper = .notCalled) : Phased s.signal queue where
  flags := flags.trans running.symm
  thread := by
    unfold System.signal
    cases phase : s.thread with
    | looking | working | asleep => trivial
    | closing => exact (thread.1 phase).elim
    | exited => exact (thread.2 phase).elim
  stopper := by
    show StopperPhase s.configured s.running _ s.stopper
    rw [stopper]
    exact ⟨configured, running⟩

theorem Phased.accepting (phased : Phased s queue) (accepting : s.accepting = true) :
    s.running = true ∧ (s.thread ≠ .closing ∧ s.thread ≠ .exited) ∧ s.configured = true ∧
      s.stopper = .notCalled := by
  obtain ⟨flags, thread, stopper⟩ := phased
  have running : s.running = true := flags ▸ accepting
  rw [running] at thread stopper
  refine ⟨running, ⟨?_, ?_⟩, ?_⟩
  · intro closing
    rw [closing] at thread
    cases thread.1
  · intro exited
    rw [exited] at thread
    cases thread.1
  · cases phase : s.stopper with
    | notCalled =>
      rw [phase] at stopper
      exact ⟨stopper.1, rfl⟩
    | joining =>
      rw [phase] at stopper
      cases stopper.2
    | draining next =>
      rw [phase] at stopper
      cases stopper.2.1
    | stopped =>
      rw [phase] at stopper
      cases stopper.2.1

end Frames

section Producers

variable {queueLimitBytes : UInt64} {s : System} {nodes : List Nat} {queue : List RecorderEvent}

theorem Inv.signal (inv : Inv queueLimitBytes s nodes queue) :
    Inv queueLimitBytes s.signal nodes queue where
  listed := inv.listed.signal
  tracked := inv.tracked.signal
  phased := by
    obtain ⟨flags, thread, stopper⟩ := inv.phased
    by_cases asleep : s.thread = .asleep
    · rw [asleep] at thread
      have awake : s.thread ≠ .closing ∧ s.thread ≠ .exited := by
        rw [asleep]
        exact ⟨nofun, nofun⟩
      have accepting : s.accepting = true := flags.trans thread.1
      obtain ⟨-, -, configured, notCalled⟩ := inv.phased.accepting accepting
      exact .signal thread.1 accepting awake configured notCalled
    · have same : s.signal = s := by rw [System.signal, if_neg asleep]
      rw [same]
      exact inv.phased

theorem Inv.allocate (inv : Inv queueLimitBytes s nodes queue) (producer node : Nat)
    (ev : RecorderEvent) : Inv queueLimitBytes (s.allocate producer node ev) nodes queue := by
  unfold System.allocate
  split
  case isFalse => exact inv
  case isTrue free =>
    obtain ⟨unused, fits⟩ := free
    have memory := inv.listed.memory.allocate (.producer producer) node ev none unused fits
    have holder : some node = (Producer.created node).node := rfl
    rw [holder, ← holding_producer] at memory
    have inHand : ∀ own, s.thread.node = some own →
        valueAt (Function.update s.heap node (some ⟨ev, none⟩)) own = valueAt s.heap own := by
      intro own mine
      have used := (inv.listed.memory.held .thread own mine).1
      have other : own ≠ node := by
        rintro rfl
        exact unused used
      rw [valueAt, Function.update_of_ne other, valueAt]
    exact
      {listed := {inv.listed with memory := memory}
       tracked := inv.tracked.frame (inHand_congr rfl inHand) rfl rfl
        fun configured => ⟨configured, rfl, rfl⟩
       phased := ⟨inv.phased.flags, inv.phased.thread, inv.phased.stopper⟩}

theorem Inv.free (inv : Inv queueLimitBytes s nodes queue) (producer node : Nat)
    (freeing : s.producers producer = .freeing node) :
    Inv queueLimitBytes ((s.freeEvent node).setProducer producer .idle) nodes queue := by
  have holds : holding s.producers s.thread (.producer producer) = some node := by
    rw [holding, freeing]
    rfl
  have memory := inv.listed.memory.free (.producer producer) node holds
  have holder : none = Producer.idle.node := rfl
  rw [holder, ← holding_producer] at memory
  have inHand : ∀ own, s.thread.node = some own →
      valueAt (Function.update s.heap node none) own = valueAt s.heap own := by
    intro own mine
    have other : own ≠ node := by
      rintro rfl
      cases inv.listed.memory.apart .thread (.producer producer) own mine holds
    rw [valueAt, Function.update_of_ne other, valueAt]
  exact
    {listed := {inv.listed with memory := memory}
     tracked := inv.tracked.frame (inHand_congr rfl inHand) rfl rfl
      fun configured => ⟨configured, rfl, rfl⟩
     phased := ⟨inv.phased.flags, inv.phased.thread, inv.phased.stopper⟩}

theorem accepted_snoc (s : System) (ev : RecorderEvent) (taken : Bool) :
    accepted {s with handed := s.handed ++ [(ev, taken)]} =
      s.accepted ++ if taken then [ev] else [] := by
  cases taken <;> simp [accepted]

theorem refused_snoc (s : System) (ev : RecorderEvent) (taken : Bool) :
    refused {s with handed := s.handed ++ [(ev, taken)]} =
      s.refused ++ if taken then [] else [ev] := by
  cases taken <;> simp [refused]

theorem Inv.refuse (inv : Inv queueLimitBytes s nodes queue) (producer node : Nat)
    (ev : RecorderEvent) (locking : s.producers producer = .locking node)
    (video : ev.type = .video) :
    Inv queueLimitBytes (s.refuse producer node ev) nodes queue where
  listed :=
    {inv.listed with
      memory := (inv.setProducer producer (.freeing node) (by rw [locking]; rfl)).listed.memory}
  tracked := by
    obtain ⟨order, refused, dropped⟩ := inv.tracked
    have handed : (s.refuse producer node ev).refused = s.refused ++ [ev] := refused_snoc s ev false
    refine ⟨?_, ?_, fun configured => ?_⟩
    · have same : (s.refuse producer node ev).accepted = s.accepted ++ [] := accepted_snoc s ev false
      rw [same, List.append_nil]
      exact order
    · rw [handed]
      intro other member
      rcases List.mem_append.mp member with earlier | new
      · exact refused other earlier
      · obtain rfl := List.mem_singleton.mp new
        exact video
    · obtain ⟨packets, bytes⟩ := dropped configured
      rw [handed, List.length_append, List.map_append, List.sum_append]
      have own : ([ev].map RecorderEvent.videoLen).sum = ev.data.length := by
        simp [RecorderEvent.videoLen, video]
      rw [own, UInt64.ofNat_add, UInt64.ofNat_add, ← packets, ← bytes]
      exact ⟨rfl, rfl⟩
  phased := ⟨inv.phased.flags, inv.phased.thread, inv.phased.stopper⟩

theorem Inv.append (inv : Inv queueLimitBytes s nodes queue) (producer node : Nat)
    (ev : RecorderEvent) (next : Option Nat) (locking : s.producers producer = .locking node)
    (stored : s.heap node = some ⟨ev, next⟩) (accepting : s.accepting = true)
    (under : ev.type = .video → s.queuedBytes + ev.len ≤ queueLimitBytes) :
    Inv queueLimitBytes (s.append producer node ev) (nodes ++ [node]) (queue ++ [ev]) := by
  obtain ⟨memory, events, bytes, limit⟩ := inv.listed
  have holds : holding s.producers s.thread (.producer producer) = some node := by
    rw [holding, locking]
    rfl
  have room := memory.room holds stored
  have sums := videoLens_le queue
  have own := ev.videoLen_le
  have linked := memory.push (.producer producer) node ev next holds stored
  have holder : none = Producer.idle.node := rfl
  rw [holder, ← holding_producer] at linked
  have count : (s.queuedEvents + 1).toNat = (queue ++ [ev]).length := by
    have one : (1 : UInt64).toNat = 1 := rfl
    rw [UInt64.toNat_add, events, one, List.length_append, List.length_singleton]
    exact Nat.mod_eq_of_lt (by simp only [UInt64.size] at room; omega)
  have unlinked : Listed queueLimitBytes {s with
      heap := (LinkedQueue.push s.heap s.ends node).1, ends := (LinkedQueue.push s.heap s.ends node).2
      queuedEvents := s.queuedEvents + 1
      queuedBytes := if ev.type = .video then s.queuedBytes + ev.len else s.queuedBytes
      producers := Function.update s.producers producer .idle
      handed := s.handed ++ [(ev, true)]} (nodes ++ [node]) (queue ++ [ev]) := by
    have total : ((queue ++ [ev]).map RecorderEvent.videoLen).sum =
        (queue.map RecorderEvent.videoLen).sum + ev.videoLen := by simp
    by_cases video : ev.type = .video
    · refine ⟨linked, count, ?_, ?_⟩
      · have len := RecorderEvent.len_toNat video (by omega)
        rw [total, if_pos video, UInt64.toNat_add, bytes, len]
        exact Nat.mod_eq_of_lt (by simp only [UInt64.size] at room; omega)
      · rw [if_pos video]
        exact under video
    · refine ⟨linked, count, ?_, ?_⟩
      · rw [total, if_neg video, RecorderEvent.videoLen_other video]
        exact bytes
      · rw [if_neg video]
        exact limit
  obtain ⟨running, awake, configured, notCalled⟩ := inv.phased.accepting accepting
  refine ⟨unlinked.signal, Tracked.signal ⟨?_, ?_, fun still => ?_⟩, .signal running accepting awake
    configured notCalled⟩
  · have same : accepted {s with handed := s.handed ++ [(ev, true)]} = s.accepted ++ [ev] :=
      accepted_snoc s ev true
    have inHand : System.inHand {s with heap := (LinkedQueue.push s.heap s.ends node).1} = s.inHand :=
      inHand_congr rfl fun own _ => LinkedQueue.valueAt_push s.ends node own
    refine same.trans ?_
    rw [inv.tracked.order, List.append_assoc]
    exact congrArg (s.processed.map Input.event ++ · ++ (queue ++ [ev])) inHand.symm
  · have same : refused {s with handed := s.handed ++ [(ev, true)]} = s.refused ++ [] :=
      refused_snoc s ev true
    rw [List.append_nil] at same
    intro other member
    exact inv.tracked.refused other (same ▸ member)
  · have same : refused {s with handed := s.handed ++ [(ev, true)]} = s.refused ++ [] :=
      refused_snoc s ev true
    rw [List.append_nil] at same
    have dropped := inv.tracked.dropped still
    rw [← same] at dropped
    exact dropped

theorem Inv.enqueueEvent (inv : Inv queueLimitBytes s nodes queue) (producer node : Nat)
    (locking : s.producers producer = .locking node) :
    ∃ nodes' queue', Inv queueLimitBytes (s.enqueueEvent queueLimitBytes producer node) nodes' queue' := by
  unfold System.enqueueEvent
  cases stored : s.heap node with
  | none => exact ⟨nodes, queue, inv⟩
  | some old =>
    obtain ⟨ev, next⟩ := old
    dsimp only
    by_cases accepting : s.accepting = true
    · rw [accepting, Bool.not_true, if_neg Bool.false_ne_true]
      split
      case isTrue full => exact ⟨nodes, queue, inv.refuse producer node ev locking full.1⟩
      case isFalse room =>
        refine ⟨_, _, inv.append producer node ev next locking stored accepting fun video => ?_⟩
        exact UInt64.not_lt.mp fun full => room ⟨video, full⟩
    · rw [Bool.not_eq_true] at accepting
      rw [accepting, Bool.not_false, if_pos rfl]
      exact ⟨nodes, queue, inv.setProducer producer (.freeing node) (by rw [locking]; rfl)⟩

end Producers

section Thread

variable {queueLimitBytes : UInt64} {s : System} {nodes : List Nat} {queue : List RecorderEvent}

/-- What the stopper waits for is the end of the thread only. -/
theorem StopperPhase.going {configured running : Bool} {thread : RecorderThread} {stopper : Stopper}
    (phase : StopperPhase configured running thread stopper) (going : thread ≠ .exited)
    (thread' : RecorderThread) : StopperPhase configured running thread' stopper := by
  cases stopper with
  | notCalled | joining => exact phase
  | draining next => exact (going phase.2.2.1).elim
  | stopped => exact (going phase.2.2).elim

theorem Inv.empty (inv : Inv queueLimitBytes s nodes queue) :
    s.ends.head = none ↔ nodes = [] ∧ queue = [] := by
  have chain := inv.listed.memory.represents.chain
  refine ⟨fun last => ?_, fun empty => chain.empty_iff.mpr empty.1⟩
  obtain rfl := chain.empty_iff.mp last
  exact ⟨rfl, List.eq_nil_of_length_eq_zero chain.length⟩

theorem Inv.sleep (inv : Inv queueLimitBytes s nodes queue) (looking : s.thread = .looking)
    (last : s.ends.head = none) :
    Inv queueLimitBytes {s with thread := if s.running then .asleep else .closing} nodes queue := by
  obtain ⟨-, rfl⟩ := inv.empty.mp last
  obtain ⟨flags, -, stopper⟩ := inv.phased
  have node : (if s.running then RecorderThread.asleep else .closing).node = s.thread.node := by
    rw [looking]
    cases s.running <;> rfl
  refine ⟨{inv.listed with memory := ?_}, inv.tracked.frame ?_ rfl rfl fun configured =>
    ⟨configured, rfl, rfl⟩, flags, ?_, stopper.going (by rw [looking]; nofun) _⟩
  · have memory := inv.listed.memory
    rw [← holding_thread_kept s.producers s.thread _ node] at memory
    exact memory
  · unfold inHand
    rw [looking]
    cases s.running <;> rfl
  · show ThreadPhase s.running true _
    cases s.running
    · exact ⟨rfl, rfl⟩
    · exact ⟨rfl, rfl⟩

theorem Inv.pop {node : Nat} {ev : RecorderEvent} (looking : s.thread = .looking)
    (inv : Inv queueLimitBytes s (node :: nodes) (ev :: queue)) :
    s.ends.head = some node ∧ ∃ next, s.heap node = some ⟨ev, next⟩ ∧
      Inv queueLimitBytes {s with
        ends := s.ends.pop next
        queuedEvents := s.queuedEvents - 1
        queuedBytes := if ev.type = .video then s.queuedBytes - ev.len else s.queuedBytes
        thread := .working node} nodes queue := by
  obtain ⟨memory, events, bytes, limit⟩ := inv.listed
  obtain ⟨flags, -, stopper⟩ := inv.phased
  obtain ⟨first, next, stored, popped⟩ := memory.pop .thread
  have holder : some node = (RecorderThread.working node).node := rfl
  rw [holder, ← holding_thread] at popped
  have bound := s.queuedBytes.toNat_lt
  rw [List.map_cons, List.sum_cons] at bytes
  refine ⟨first, next, stored, ⟨popped, ?_, ?_, ?_⟩, ⟨?_, inv.tracked.refused, inv.tracked.dropped⟩,
    flags, trivial, stopper.going (by rw [looking]; nofun) _⟩
  · have one : (1 : UInt64).toNat = 1 := rfl
    rw [List.length_cons] at events
    rw [UInt64.toNat_sub_of_le _ _ (UInt64.le_iff_toNat_le.mpr (by omega)), events, one]
    exact Nat.add_sub_cancel ..
  · dsimp only
    by_cases video : ev.type = .video
    · have len := RecorderEvent.len_toNat video (by simp only [UInt64.size]; omega)
      rw [if_pos video, UInt64.toNat_sub_of_le _ _ (UInt64.le_iff_toNat_le.mpr (by omega))]
      omega
    · rw [RecorderEvent.videoLen_other video, Nat.zero_add] at bytes
      rw [if_neg video]
      exact bytes
  · dsimp only
    by_cases video : ev.type = .video
    · have len := RecorderEvent.len_toNat video (by simp only [UInt64.size]; omega)
      have less : s.queuedBytes - ev.len ≤ s.queuedBytes := by
        rw [UInt64.le_iff_toNat_le, UInt64.toNat_sub_of_le _ _ (UInt64.le_iff_toNat_le.mpr (by omega))]
        exact Nat.sub_le ..
      rw [if_pos video]
      exact UInt64.le_trans less limit
    · rw [if_neg video]
      exact limit
  · have before : s.inHand = [] := by
      unfold inHand
      rw [looking]
    have order := inv.tracked.order
    rw [before, List.append_nil] at order
    refine order.trans ?_
    simp [inHand, valueAt, stored]

theorem Inv.takeEvent (inv : Inv queueLimitBytes s nodes queue) (looking : s.thread = .looking) :
    ∃ nodes' queue', Inv queueLimitBytes s.takeEvent nodes' queue' := by
  cases head : s.ends.head with
  | none =>
    have same : s.takeEvent = {s with thread := if s.running then .asleep else .closing} := by
      rw [System.takeEvent, head]
    rw [same]
    exact ⟨nodes, queue, inv.sleep looking head⟩
  | some node =>
    have chain := inv.listed.memory.represents.chain
    rw [head] at chain
    cases nodes with
    | nil => cases queue <;> cases chain
    | cons first nodes =>
      cases queue with
      | nil => cases chain
      | cons ev queue =>
        obtain ⟨same, next, stored, popped⟩ := inv.pop looking
        refine ⟨nodes, queue, ?_⟩
        rw [System.takeEvent, same]
        dsimp only
        rw [stored]
        exact popped

theorem Inv.processEvent (inv : Inv queueLimitBytes s nodes queue) (cfg : Config) (answers : Answers)
    (node : Nat) (working : s.thread = .working node) :
    Inv queueLimitBytes (s.processEvent cfg answers node) nodes queue := by
  unfold System.processEvent
  cases stored : s.heap node with
  | none => exact inv
  | some old =>
    obtain ⟨ev, next⟩ := old
    have holds : holding s.producers s.thread .thread = some node := by
      rw [holding, working]
      rfl
    have memory := inv.listed.memory.free .thread node holds
    have holder : none = RecorderThread.looking.node := rfl
    rw [holder, ← holding_thread] at memory
    have inHand : s.inHand = [ev] := by
      simp [System.inHand, working, valueAt, stored]
    have order := inv.tracked.order
    rw [inHand] at order
    exact
      {listed := {inv.listed with memory := memory}
       tracked := ⟨order.trans (by simp [System.inHand, System.freeEvent]), inv.tracked.refused,
        inv.tracked.dropped⟩
       phased := ⟨inv.phased.flags, trivial, inv.phased.stopper.going (by simp [working]) _⟩}

theorem Inv.close (inv : Inv queueLimitBytes s nodes queue) (machine : Machine)
    (closing : s.thread = .closing) :
    Inv queueLimitBytes {s with machine := machine, thread := .exited} nodes queue := by
  obtain ⟨flags, thread, stopper⟩ := inv.phased
  rw [closing] at thread
  refine ⟨{inv.listed with memory := ?_}, inv.tracked.frame ?_ rfl rfl fun configured =>
    ⟨configured, rfl, rfl⟩, flags, thread, stopper.going (by rw [closing]; nofun) _⟩
  · have node : RecorderThread.exited.node = s.thread.node := by
      rw [closing]
      rfl
    have memory := inv.listed.memory
    rw [← holding_thread_kept s.producers s.thread _ node] at memory
    exact memory
  · unfold inHand
    rw [closing]

end Thread

section Stop

variable {queueLimitBytes : UInt64} {s : System} {nodes : List Nat} {queue : List RecorderEvent}

theorem Inv.stop (inv : Inv queueLimitBytes s nodes queue) (notCalled : s.stopper = .notCalled) :
    Inv queueLimitBytes
      (System.signal {s with accepting := false, running := false, stopper := .joining}) nodes queue := by
  obtain ⟨flags, thread, stopper⟩ := inv.phased
  rw [notCalled] at stopper
  obtain ⟨configured, running⟩ := stopper
  rw [running] at thread
  have listed : Listed queueLimitBytes
      {s with accepting := false, running := false, stopper := .joining} nodes queue :=
    {inv.listed with memory := inv.listed.memory}
  have tracked : Tracked {s with accepting := false, running := false, stopper := .joining} queue :=
    inv.tracked.frame rfl rfl rfl fun configured => ⟨configured, rfl, rfl⟩
  refine ⟨listed.signal, tracked.signal, rfl, ?_, configured, rfl⟩
  show ThreadPhase false queue.isEmpty (if s.thread = .asleep then .looking else s.thread)
  cases phase : s.thread with
  | looking | asleep | working => trivial
  | closing | exited =>
    rw [phase] at thread
    cases thread.1

theorem Inv.join (inv : Inv queueLimitBytes s nodes queue) (joining : s.stopper = .joining)
    (exited : s.thread = .exited) :
    Inv queueLimitBytes {s with stopper := .draining s.ends.head} nodes queue := by
  obtain ⟨flags, thread, stopper⟩ := inv.phased
  rw [joining] at stopper
  have done := thread
  rw [exited] at done
  have drained : s.ends.head = none := by
    obtain rfl := List.isEmpty_iff.mp done.2
    refine inv.empty.mpr ⟨List.eq_nil_of_length_eq_zero ?_, rfl⟩
    exact inv.listed.memory.represents.chain.length.symm
  exact
    {listed := {inv.listed with memory := inv.listed.memory}
     tracked := inv.tracked.frame rfl rfl rfl fun configured => ⟨configured, rfl, rfl⟩
     phased := ⟨flags, thread, stopper.1, stopper.2, exited, drained⟩}

/-- The loop of compressed_recorder_stop finds nothing that is left. -/
theorem Inv.drainEvent (inv : Inv queueLimitBytes s nodes queue) (next : Option Nat)
    (draining : s.stopper = .draining next) :
    Inv queueLimitBytes (s.drainEvent next) nodes queue := by
  obtain ⟨-, thread, stopper⟩ := inv.phased
  rw [draining] at stopper
  obtain ⟨-, -, exited, rfl⟩ := stopper
  rw [exited] at thread
  obtain rfl := List.isEmpty_iff.mp thread.2
  obtain rfl : nodes = [] :=
    List.eq_nil_of_length_eq_zero inv.listed.memory.represents.chain.length.symm
  have memory := inv.listed.memory
  exact
    {listed :=
      {memory := {memory with represents := LinkedQueue.represents_empty _}
       events := rfl
       bytes := rfl
       limit := UInt64.zero_le}
     tracked := inv.tracked.frame rfl rfl rfl nofun
     phased := by
       refine ⟨rfl, ?_, rfl, rfl, exited⟩
       show ThreadPhase false true s.thread
       rw [exited]
       exact ⟨rfl, rfl⟩}

end Stop

variable (cfg : Config) (queueLimitBytes : UInt64)

theorem Inv.step {s : System} {nodes : List Nat} {queue : List RecorderEvent}
    (inv : Inv queueLimitBytes s nodes queue) (action : Action) :
    ∃ nodes' queue', Inv queueLimitBytes (System.step cfg queueLimitBytes s action) nodes' queue' := by
  cases action with
  | call producer request =>
    dsimp only [System.step]
    split
    case isTrue may => exact ⟨_, _, inv.setProducer producer _ (by rw [may.1]; rfl)⟩
    case isFalse => exact ⟨_, _, inv⟩
  | allocate producer wallMs monoNs node =>
    dsimp only [System.step]
    split
    case h_1 request called => exact ⟨_, _, inv.allocate producer node _⟩
    case h_2 => exact ⟨_, _, inv⟩
  | test producer =>
    dsimp only [System.step]
    split
    case h_1 node created =>
      refine ⟨_, _, inv.setProducer producer _ ?_⟩
      rw [created]
      split <;> rfl
    case h_2 => exact ⟨_, _, inv⟩
  | enqueue producer =>
    dsimp only [System.step]
    split
    case h_1 node locking => exact inv.enqueueEvent producer node locking
    case h_2 => exact ⟨_, _, inv⟩
  | free producer =>
    dsimp only [System.step]
    split
    case h_1 node freeing => exact ⟨_, _, inv.free producer node freeing⟩
    case h_2 => exact ⟨_, _, inv⟩
  | take =>
    dsimp only [System.step]
    split
    case isTrue looking => exact inv.takeEvent looking
    case isFalse => exact ⟨_, _, inv⟩
  | wake => exact ⟨_, _, inv.signal⟩
  | process answers =>
    dsimp only [System.step]
    split
    case h_1 node working => exact ⟨_, _, inv.processEvent cfg answers node working⟩
    case h_2 => exact ⟨_, _, inv⟩
  | close answers =>
    dsimp only [System.step]
    split
    case isTrue closing => exact ⟨_, _, inv.close _ closing⟩
    case isFalse => exact ⟨_, _, inv⟩
  | stop =>
    dsimp only [System.step]
    split
    case isTrue may => exact ⟨_, _, inv.stop may.1⟩
    case isFalse => exact ⟨_, _, inv⟩
  | join =>
    dsimp only [System.step]
    split
    case isTrue may => exact ⟨_, _, inv.join may.1 may.2⟩
    case isFalse => exact ⟨_, _, inv⟩
  | drain =>
    dsimp only [System.step]
    split
    case h_1 next draining => exact ⟨_, _, inv.drainEvent next draining⟩
    case h_2 => exact ⟨_, _, inv⟩

end System

end StreamRelay.Recorder
