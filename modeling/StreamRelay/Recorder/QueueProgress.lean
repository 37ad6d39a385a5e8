import StreamRelay.Recorder.QueueInvariant

/-! What the recorder's queue does over whole schedules. A move is a step by which
the thread gets on with its own work; what is accepted waits for so many moves of
the thread and for no other party. -/
namespace StreamRelay.Recorder.System

open LinkedQueue (Represents valueAt)

def moves (s : System) : Action → Bool
  | .take => s.thread = .looking
  | .process _ => s.thread.node.isSome
  | .close _ => s.thread = .closing
  | _ => false

section Frames

variable (cfg : Config) (queueLimitBytes : UInt64) (s : System)

/-- What the thread has of the state: where it is, and what it has done. -/
def Idle (s s' : System) : Prop :=
  s'.processed = s.processed ∧ (s'.thread = s.thread ∨ s'.thread = s.signal.thread) ∧
    (s'.machine = s.machine ∨ s'.stopper = .stopped)

theorem Idle.refl : Idle s s := ⟨rfl, .inl rfl, .inl rfl⟩

theorem enqueueEvent_idle (producer node : Nat) :
    Idle s (s.enqueueEvent queueLimitBytes producer node) := by
  unfold enqueueEvent
  split
  · exact .refl s
  · split
    · exact ⟨rfl, .inl rfl, .inl rfl⟩
    · split
      · exact ⟨rfl, .inl rfl, .inl rfl⟩
      · exact ⟨rfl, .inr rfl, .inl rfl⟩

/-- What is not a move leaves the thread where it is, or wakes it. -/
theorem step_idle (action : Action) (still : s.moves action = false) :
    Idle s (s.step cfg queueLimitBytes action) := by
  cases action with
  | call producer request =>
    dsimp only [step]
    split <;> exact ⟨rfl, .inl rfl, .inl rfl⟩
  | allocate producer wallMs monoNs node =>
    dsimp only [step]
    split
    · unfold allocate
      split <;> exact ⟨rfl, .inl rfl, .inl rfl⟩
    · exact .refl s
  | test producer =>
    dsimp only [step]
    split <;> exact ⟨rfl, .inl rfl, .inl rfl⟩
  | enqueue producer =>
    dsimp only [step]
    split
    · exact s.enqueueEvent_idle queueLimitBytes producer _
    · exact .refl s
  | free producer =>
    dsimp only [step]
    split <;> exact ⟨rfl, .inl rfl, .inl rfl⟩
  | take =>
    rw [step, if_neg (of_decide_eq_false still)]
    exact .refl s
  | wake => exact ⟨rfl, .inr rfl, .inl rfl⟩
  | process answers =>
    dsimp only [step]
    split
    case h_1 node working =>
      rw [moves, working] at still
      cases still
    case h_2 => exact .refl s
  | close answers =>
    rw [step, if_neg (of_decide_eq_false still)]
    exact .refl s
  | stop =>
    dsimp only [step]
    split
    · exact ⟨rfl, .inr rfl, .inl rfl⟩
    · exact .refl s
  | join =>
    dsimp only [step]
    split <;> exact ⟨rfl, .inl rfl, .inl rfl⟩
  | drain =>
    dsimp only [step]
    split
    · unfold drainEvent
      split
      · exact ⟨rfl, .inl rfl, .inr rfl⟩
      · split <;> exact ⟨rfl, .inl rfl, .inl rfl⟩
    · exact .refl s

/-- Events are handed in one at a time and only while the recorder accepts, and
what has stopped does not start again. -/
structure Onward (s s' : System) : Prop where
  handed : s'.handed = s.handed ∨ s.accepting = true ∧ ∃ one, s'.handed = s.handed ++ [one]
  running : s.running = false → s'.running = false
  stopped : s.stopper = .stopped → s'.stopper = .stopped

theorem Onward.same {s' : System} (handed : s'.handed = s.handed) (running : s'.running = s.running)
    (stopper : s'.stopper = s.stopper) : Onward s s' :=
  ⟨.inl handed, running.trans, stopper.trans⟩

theorem enqueueEvent_onward (producer node : Nat) :
    Onward s (s.enqueueEvent queueLimitBytes producer node) := by
  unfold enqueueEvent
  split
  case h_1 => exact .same s rfl rfl rfl
  case h_2 ev next _ =>
    by_cases accepting : s.accepting = true
    · rw [accepting, Bool.not_true, if_neg Bool.false_ne_true]
      split
      · exact ⟨.inr ⟨accepting, (ev, false), rfl⟩, id, id⟩
      · exact ⟨.inr ⟨accepting, (ev, true), rfl⟩, id, id⟩
    · rw [Bool.not_eq_true] at accepting
      rw [accepting, Bool.not_false, if_pos rfl]
      exact .same s rfl rfl rfl

theorem step_onward (action : Action) : Onward s (s.step cfg queueLimitBytes action) := by
  cases action with
  | enqueue producer =>
    dsimp only [step]
    split
    · exact s.enqueueEvent_onward queueLimitBytes producer _
    · exact .same s rfl rfl rfl
  | allocate producer wallMs monoNs node =>
    dsimp only [step]
    split
    · unfold allocate
      split <;> exact .same s rfl rfl rfl
    · exact .same s rfl rfl rfl
  | take =>
    dsimp only [step]
    split
    · unfold takeEvent
      split
      · exact .same s rfl rfl rfl
      · split <;> exact .same s rfl rfl rfl
    · exact .same s rfl rfl rfl
  | process answers =>
    dsimp only [step]
    split
    · unfold processEvent
      split <;> exact .same s rfl rfl rfl
    · exact .same s rfl rfl rfl
  | stop =>
    dsimp only [step]
    split
    case isTrue may => exact ⟨.inl rfl, fun _ => rfl, fun stopped => by rw [may.1] at stopped; cases stopped⟩
    case isFalse => exact .same s rfl rfl rfl
  | join =>
    dsimp only [step]
    split
    case isTrue may => exact ⟨.inl rfl, id, fun stopped => by rw [may.1] at stopped; cases stopped⟩
    case isFalse => exact .same s rfl rfl rfl
  | drain =>
    dsimp only [step]
    split
    case h_1 next draining =>
      unfold drainEvent
      split
      · exact ⟨.inl rfl, fun _ => rfl, fun _ => rfl⟩
      · split
        · exact .same s rfl rfl rfl
        · exact ⟨.inl rfl, id, fun stopped => by rw [draining] at stopped; cases stopped⟩
    case h_2 => exact .same s rfl rfl rfl
  | wake => exact .same s rfl rfl rfl
  | call | test | free | close =>
    dsimp only [step]
    split <;> exact .same s rfl rfl rfl

end Frames

section Moves

variable (cfg : Config) {queueLimitBytes : UInt64} {s : System} {nodes : List Nat}
  {queue : List RecorderEvent}

theorem Inv.lengths (inv : Inv queueLimitBytes s nodes queue) :
    s.accepted.length = s.processed.length + s.inHand.length + queue.length := by
  rw [inv.tracked.order, List.length_append, List.length_append, List.length_map]

theorem Inv.inHand_length (inv : Inv queueLimitBytes s nodes queue) :
    s.inHand.length = if s.thread.node.isSome then 1 else 0 := by
  cases phase : s.thread with
  | working node =>
    have holds : holding s.producers s.thread .thread = some node := by
      rw [holding, phase]
      rfl
    have stored := (inv.listed.memory.stored node).mp (inv.listed.memory.held _ _ holds).1
    obtain ⟨old, stored⟩ := Option.isSome_iff_exists.mp stored
    simp [inHand, phase, valueAt, stored, RecorderThread.node]
  | looking | asleep | closing | exited =>
    simp [inHand, phase, RecorderThread.node]

/-- What a move does. -/
theorem Inv.moved (inv : Inv queueLimitBytes s nodes queue) (action : Action)
    (moves : s.moves action = true) :
    let next := s.step cfg queueLimitBytes action
    (s.thread = .looking ∧ next.processed = s.processed ∧ next.machine = s.machine ∧
        if s.processed.length < s.accepted.length then ∃ node, next.thread = .working node
        else next.thread = if s.running then .asleep else .closing) ∨
      (∃ node input, s.thread = .working node ∧ next.processed = s.processed ++ [input] ∧
        next.machine = Recorder.step cfg s.machine input ∧ next.thread = .looking) ∨
      (s.thread = .closing ∧ next.processed = s.processed ∧
        (∃ answers, next.machine = shutdown cfg answers s.machine) ∧ next.thread = .exited) := by
  have lengths := inv.lengths
  have inHand := inv.inHand_length
  cases action with
  | take =>
    have looking : s.thread = .looking := of_decide_eq_true moves
    have idle : s.thread.node = none := by
      rw [looking]
      rfl
    rw [idle, Option.isSome_none, if_neg Bool.false_ne_true] at inHand
    refine .inl ⟨looking, ?_⟩
    rw [System.step, if_pos looking]
    cases head : s.ends.head with
    | none =>
      obtain ⟨-, rfl⟩ := inv.empty.mp head
      have last : ¬ s.processed.length < s.accepted.length := by
        rw [List.length_nil] at lengths
        omega
      rw [System.takeEvent, head, if_neg last]
      exact ⟨rfl, rfl, rfl⟩
    | some node =>
      have chain := inv.listed.memory.represents.chain
      rw [head] at chain
      cases nodes with
      | nil => cases queue <;> cases chain
      | cons first nodes =>
        cases queue with
        | nil => cases chain
        | cons ev queue =>
          obtain ⟨same, link, stored, -⟩ := inv.pop looking
          have more : s.processed.length < s.accepted.length := by
            rw [List.length_cons] at lengths
            omega
          rw [System.takeEvent, same, if_pos more]
          dsimp only
          rw [stored]
          exact ⟨rfl, rfl, first, rfl⟩
  | process answers =>
    refine .inr (.inl ?_)
    cases phase : s.thread with
    | working node =>
      rw [phase, RecorderThread.node, Option.isSome_some, if_pos rfl] at inHand
      rw [System.inHand, phase] at inHand
      cases stored : s.heap node with
      | none =>
        dsimp only at inHand
        rw [valueAt, stored] at inHand
        cases inHand
      | some old =>
        refine ⟨node, ⟨old.value, answers⟩, rfl, ?_⟩
        rw [System.step, phase]
        dsimp only
        rw [System.processEvent, stored]
        exact ⟨rfl, rfl, rfl⟩
    | looking | asleep | closing | exited =>
      rw [System.moves, phase] at moves
      cases moves
  | close answers =>
    have closing : s.thread = .closing := of_decide_eq_true moves
    refine .inr (.inr ⟨closing, ?_⟩)
    rw [System.step, if_pos closing]
    exact ⟨rfl, ⟨answers, rfl⟩, rfl⟩
  | call | allocate | test | enqueue | free | wake | stop | join | drain => cases moves

/-- The moves until `count` events are processed. -/
def waiting (s : System) (count : Nat) : Nat :=
  2 * (count - s.processed.length) - if s.thread.node.isSome then 1 else 0

/-- The moves until the thread of a recorder that stops has left. -/
def leaving (s : System) : Nat :=
  2 * (s.accepted.length - s.processed.length) +
    match s.thread with
    | .looking | .asleep => 2
    | .working _ | .closing => 1
    | .exited => 0

theorem waiting_zero {count : Nat} (none : s.waiting count = 0) : count ≤ s.processed.length := by
  unfold waiting at none
  split at none <;> omega

theorem leaving_le (s : System) :
    s.leaving ≤ 2 * (s.accepted.length - s.processed.length) + 2 := by
  unfold leaving
  refine Nat.add_le_add_left ?_ _
  split <;> decide

theorem leaving_zero (none : s.leaving = 0) : s.thread = .exited := by
  unfold leaving at none
  cases thread : s.thread with
  | exited => rfl
  | looking | asleep | closing | working =>
    simp [thread] at none

theorem step_accepted (queueLimitBytes : UInt64) (s : System) (action : Action) :
    s.accepted <+: (s.step cfg queueLimitBytes action).accepted ∧
      (s.accepting = false → (s.step cfg queueLimitBytes action).accepted = s.accepted) := by
  unfold accepted
  rcases (s.step_onward cfg queueLimitBytes action).handed with same | ⟨accepting, one, more⟩
  · rw [same]
    exact ⟨List.prefix_rfl, fun _ => rfl⟩
  · rw [more, List.filter_append, List.map_append, accepting]
    exact ⟨List.prefix_append .., nofun⟩

theorem Inv.waiting_step (inv : Inv queueLimitBytes s nodes queue) (action : Action) (count : Nat)
    (known : count ≤ s.accepted.length) :
    (s.step cfg queueLimitBytes action).waiting count ≤
      s.waiting count - if s.moves action then 1 else 0 := by
  have lengths := inv.lengths
  have inHand := inv.inHand_length
  unfold waiting
  cases moves : s.moves action with
  | false =>
    obtain ⟨processed, thread, -⟩ := s.step_idle cfg queueLimitBytes action moves
    have node : (s.step cfg queueLimitBytes action).thread.node = s.thread.node := by
      rcases thread with same | woken
      · rw [same]
      · rw [woken, signal_node]
    rw [processed, node]
    exact Nat.le_refl _
  | true =>
    rw [if_pos rfl]
    rcases inv.moved cfg action moves with
      ⟨looking, processed, -, thread⟩ | ⟨node, input, working, processed, -, thread⟩ |
      ⟨closing, processed, -, thread⟩
    · rw [processed, looking]
      by_cases more : s.processed.length < s.accepted.length
      · rw [if_pos more] at thread
        obtain ⟨node, taken⟩ := thread
        rw [taken]
        simp only [RecorderThread.node, Option.isSome_some, Option.isSome_none, if_pos,
          Bool.false_eq_true, if_false]
        omega
      · omega
    · rw [processed, working, thread, List.length_append, List.length_singleton]
      simp only [RecorderThread.node, Option.isSome_some, Option.isSome_none, if_pos,
        Bool.false_eq_true, if_false]
      omega
    · have empty : queue = [] := by
        have phase := inv.phased.thread
        rw [closing] at phase
        exact List.isEmpty_iff.mp phase.2
      have idle : s.thread.node = none := by
        rw [closing]
        rfl
      rw [idle, Option.isSome_none, if_neg Bool.false_ne_true] at inHand
      rw [empty, List.length_nil] at lengths
      rw [processed]
      omega

theorem Inv.leaving_step (inv : Inv queueLimitBytes s nodes queue) (action : Action)
    (stopping : s.running = false) :
    (s.step cfg queueLimitBytes action).leaving = s.leaving - if s.moves action then 1 else 0 := by
  have lengths := inv.lengths
  have inHand := inv.inHand_length
  have accepted := (step_accepted cfg queueLimitBytes s action).2 (inv.phased.flags.trans stopping)
  unfold leaving
  rw [accepted]
  cases moves : s.moves action with
  | false =>
    obtain ⟨processed, thread, -⟩ := s.step_idle cfg queueLimitBytes action moves
    rw [processed]
    rcases thread with same | woken
    · rw [same]
      rfl
    · have awake : s.thread ≠ .asleep := by
        intro asleep
        have phase := inv.phased.thread
        rw [asleep, stopping] at phase
        cases phase.1
      rw [woken, System.signal, if_neg awake]
      rfl
  | true =>
    rw [if_pos rfl]
    rcases inv.moved cfg action moves with
      ⟨looking, processed, -, thread⟩ | ⟨node, input, working, processed, -, thread⟩ |
      ⟨closing, processed, -, thread⟩
    · rw [processed, looking]
      by_cases more : s.processed.length < s.accepted.length
      · rw [if_pos more] at thread
        obtain ⟨node, taken⟩ := thread
        rw [taken]
        rfl
      · rw [if_neg more, stopping, if_neg Bool.false_ne_true] at thread
        rw [thread]
        rfl
    · have idle : s.thread.node.isSome = true := by
        rw [working]
        rfl
      rw [idle, if_pos rfl] at inHand
      rw [processed, working, thread, List.length_append, List.length_singleton]
      dsimp only
      omega
    · rw [processed, closing, thread]
      rfl

end Moves

section Runs

variable (cfg : Config) (queueLimitBytes : UInt64)

/-- The moves of a schedule. -/
def countMoves : System → List Action → Nat
  | _, [] => 0
  | s, action :: later =>
    (if s.moves action then 1 else 0) + countMoves (s.step cfg queueLimitBytes action) later

theorem Inv.run {s : System} {nodes : List Nat} {queue : List RecorderEvent}
    (inv : Inv queueLimitBytes s nodes queue) (later : List Action) :
    ∃ nodes' queue', Inv queueLimitBytes (Run.run (System.step cfg queueLimitBytes) s later)
      nodes' queue' :=
  Run.invariant _ _ (fun s => ∃ nodes queue, Inv queueLimitBytes s nodes queue) ⟨nodes, queue, inv⟩
    (fun _ action held => by
      obtain ⟨nodes, queue, inv⟩ := held
      exact inv.step cfg queueLimitBytes action) later

theorem Inv.waiting_run {s : System} {nodes : List Nat} {queue : List RecorderEvent}
    (inv : Inv queueLimitBytes s nodes queue) (count : Nat) (known : count ≤ s.accepted.length)
    (later : List Action) :
    (Run.run (System.step cfg queueLimitBytes) s later).waiting count ≤
      s.waiting count - countMoves cfg queueLimitBytes s later := by
  induction later generalizing s nodes queue with
  | nil => exact Nat.le_refl _
  | cons action later ih =>
    obtain ⟨_, _, next⟩ := inv.step cfg queueLimitBytes action
    have grows := (step_accepted cfg queueLimitBytes s action).1.length_le
    have first := inv.waiting_step cfg action count known
    have rest := ih next (known.trans grows)
    rw [countMoves]
    exact rest.trans (by omega)

theorem Inv.leaving_run {s : System} {nodes : List Nat} {queue : List RecorderEvent}
    (inv : Inv queueLimitBytes s nodes queue) (stopping : s.running = false) (later : List Action) :
    (Run.run (System.step cfg queueLimitBytes) s later).leaving =
      s.leaving - countMoves cfg queueLimitBytes s later := by
  induction later generalizing s nodes queue with
  | nil => rfl
  | cons action later ih =>
    obtain ⟨_, _, next⟩ := inv.step cfg queueLimitBytes action
    have first := inv.leaving_step cfg action stopping
    have rest := ih next ((s.step_onward cfg queueLimitBytes action).running stopping)
    rw [countMoves]
    exact rest.trans (by omega)

/-- What the machine behind the queue has computed, until it is cleared. -/
def Computed (mounts : List MntEnt) (nowNs : UInt64) (s : System) : Prop :=
  s.stopper ≠ .stopped →
    if s.thread = .exited then
      ∃ answers, s.machine = shutdown cfg answers (Recorder.run cfg mounts nowNs s.processed)
    else s.machine = Recorder.run cfg mounts nowNs s.processed

theorem Inv.computed_step {s : System} {nodes : List Nat} {queue : List RecorderEvent}
    (inv : Inv queueLimitBytes s nodes queue) (mounts : List MntEnt) (nowNs : UInt64)
    (computed : Computed cfg mounts nowNs s) (action : Action) :
    Computed cfg mounts nowNs (s.step cfg queueLimitBytes action) := by
  intro kept
  have before := computed fun stopped =>
    kept ((s.step_onward cfg queueLimitBytes action).stopped stopped)
  cases moves : s.moves action with
  | false =>
    obtain ⟨processed, thread, machine⟩ := s.step_idle cfg queueLimitBytes action moves
    have same := machine.resolve_right kept
    have exited : (s.step cfg queueLimitBytes action).thread = .exited ↔ s.thread = .exited := by
      rcases thread with same | woken
      · rw [same]
      · rw [woken, System.signal]
        by_cases asleep : s.thread = .asleep
        · rw [if_pos asleep, asleep]
          simp
        · rw [if_neg asleep]
    rw [processed, same]
    simpa only [exited] using before
  | true =>
    rcases inv.moved cfg action moves with
      ⟨looking, processed, machine, thread⟩ | ⟨node, input, working, processed, machine, thread⟩ |
      ⟨closing, processed, machine, thread⟩
    · have notLeft : RecorderThread.looking ≠ .exited := by simp
      rw [looking, if_neg notLeft] at before
      have going : (s.step cfg queueLimitBytes action).thread ≠ .exited := by
        intro exited
        rw [exited] at thread
        split at thread
        · obtain ⟨_, taken⟩ := thread
          cases taken
        · split at thread <;> cases thread
      rw [if_neg going, processed, machine]
      exact before
    · have notLeft : RecorderThread.working node ≠ .exited := by simp
      have nowLooking : RecorderThread.looking ≠ .exited := by simp
      rw [working, if_neg notLeft] at before
      rw [thread, if_neg nowLooking, processed, machine, before, Recorder.run, Recorder.run, Run.run_snoc]
    · have notLeft : RecorderThread.closing ≠ .exited := by simp
      rw [closing, if_neg notLeft] at before
      rw [thread, if_pos rfl, processed, ← before]
      exact machine

/-- What holds of the queue in every state. -/
structure Sound (s : System) : Prop where
  list : ∃ nodes queue, Represents s.heap s.ends nodes queue ∧
    s.queuedBytes.toNat = (queue.map RecorderEvent.videoLen).sum ∧
    s.queuedBytes ≤ queueLimitBytes ∧ s.queuedEvents.toNat = queue.length ∧
    s.accepted = s.processed.map Input.event ++ s.inHand ++ queue
  refused : ∀ ev ∈ s.refused, ev.type = .video
  dropped : s.configured = true →
    s.droppedPackets = UInt64.ofNat s.refused.length ∧
      s.droppedBytes = UInt64.ofNat (s.refused.map RecorderEvent.videoLen).sum
  finished : s.thread = .exited → s.processed.map Input.event = s.accepted

/-- The thread has a move as long as an accepted event is unprocessed, and so many
moves process all that is accepted; where the recorder stops, it leaves after them. -/
structure Live (s : System) : Prop where
  awake : s.processed.length < s.accepted.length →
    s.thread = .looking ∨ ∃ node, s.thread = .working node
  served : ∀ later,
    2 * (s.accepted.length - s.processed.length) ≤ countMoves cfg queueLimitBytes s later →
      s.accepted <+:
        (Run.run (System.step cfg queueLimitBytes) s later).processed.map Input.event
  leaves : s.running = false →
    s.thread ≠ .asleep ∧ ∀ later,
      2 * (s.accepted.length - s.processed.length) + 2 ≤ countMoves cfg queueLimitBytes s later →
        (Run.run (System.step cfg queueLimitBytes) s later).thread = .exited

variable {s : System} {nodes : List Nat} {queue : List RecorderEvent}

theorem Inv.sound (inv : Inv queueLimitBytes s nodes queue) : Sound queueLimitBytes s where
  list := ⟨nodes, queue, inv.listed.memory.represents, inv.listed.bytes, inv.listed.limit,
    inv.listed.events, inv.tracked.order⟩
  refused := inv.tracked.refused
  dropped := inv.tracked.dropped
  finished exited := by
    have phase := inv.phased.thread
    rw [exited] at phase
    have order := inv.tracked.order
    have inHand : s.inHand = [] := by
      unfold inHand
      rw [exited]
    rw [inHand, List.isEmpty_iff.mp phase.2, List.append_nil, List.append_nil] at order
    exact order.symm

theorem accepted_run (later : List Action) :
    s.accepted <+: (Run.run (System.step cfg queueLimitBytes) s later).accepted := by
  induction later generalizing s with
  | nil => exact List.prefix_rfl
  | cons action later ih => exact (step_accepted cfg queueLimitBytes s action).1.trans ih

theorem Inv.live (inv : Inv queueLimitBytes s nodes queue) : Live cfg queueLimitBytes s where
  awake behind := by
    have lengths := inv.lengths
    have inHand := inv.inHand_length
    have phase := inv.phased.thread
    cases thread : s.thread with
    | looking => exact .inl rfl
    | working node => exact .inr ⟨node, rfl⟩
    | asleep | closing | exited =>
      rw [thread] at phase inHand
      rw [List.isEmpty_iff.mp phase.2] at lengths
      simp only [RecorderThread.node, Option.isSome_none, Bool.false_eq_true, if_false] at inHand
      rw [List.length_nil] at lengths
      omega
  served later enough := by
    obtain ⟨_, _, after⟩ := inv.run cfg queueLimitBytes later
    have fewer := inv.waiting_run cfg queueLimitBytes s.accepted.length (Nat.le_refl _) later
    have start : s.waiting s.accepted.length ≤ 2 * (s.accepted.length - s.processed.length) :=
      Nat.sub_le ..
    have all := waiting_zero (Nat.le_zero.mp (fewer.trans (by omega)))
    refine List.prefix_of_prefix_length_le (accepted_run cfg queueLimitBytes later)
      ⟨_, (List.append_assoc ..).symm.trans after.tracked.order.symm⟩ ?_
    rw [List.length_map]
    exact all
  leaves stopping := by
    have asleep : s.thread ≠ .asleep := by
      intro asleep
      have phase := inv.phased.thread
      rw [asleep, stopping] at phase
      cases phase.1
    refine ⟨asleep, fun later enough => leaving_zero ?_⟩
    rw [inv.leaving_run cfg queueLimitBytes stopping later]
    exact Nat.sub_eq_zero_of_le (s.leaving_le.trans enough)

end Runs

end StreamRelay.Recorder.System
