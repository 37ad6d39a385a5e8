import StreamRelay.Link.Accounting

/-! The timers that stop idle streams, and the runs in which they stop only those. -/
namespace StreamRelay.Link

namespace OnDemandManager

variable {m : OnDemandManager} {streamId : Int} {kind : Kind}

theorem idle_iff : m.idle streamId = true ↔ ∀ kind, m.active kind streamId = 0 := by
  simp only [idle, Bool.and_eq_true, decide_eq_true_eq]
  constructor
  · rintro ⟨video, ctrl⟩ kind
    cases kind
    · exact video
    · exact ctrl
  · exact fun all => ⟨all .video, all .ctrl⟩

/-- A connect leaves no record of its stream, and cancels the recorded timer if it still waits. -/
structure Connected (m next : OnDemandManager) (streamId : Int) : Prop where
  record : next.stopTimer = Function.update m.stopTimer streamId none
  made : next.made = m.made
  timer : ∀ i, next.timers i = m.timers i ∨
    (m.timers i).phase = .pending ∧ next.timers i = {m.timers i with phase := .cancelled}
  cancelled : ∀ i, m.stopTimer streamId = some i → (next.timers i).phase ≠ .pending

theorem cancelTimerLocked_none (record : m.stopTimer streamId = none) :
    m.cancelTimerLocked streamId = m := by
  simp only [cancelTimerLocked, record]

theorem cancelTimerLocked_some {recorded : Nat} (record : m.stopTimer streamId = some recorded) :
    m.cancelTimerLocked streamId = (m.popTimer streamId).cancel recorded := by
  simp only [cancelTimerLocked, record]

theorem onConnect_connected (kind : Kind) (streamId : Int) (m : OnDemandManager) :
    Connected m (m.onConnect kind streamId) streamId := by
  cases record : m.stopTimer streamId with
  | none =>
    rw [onConnect, cancelTimerLocked_none record]
    refine ⟨?_, rfl, fun i => Or.inl rfl, fun i present => ?_⟩
    · rw [← record, Function.update_eq_self]
      rfl
    · rw [record] at present
      cases present
  | some recorded =>
    rw [onConnect, cancelTimerLocked_some record]
    by_cases waits : (m.timers recorded).phase = .pending
    · have cancels : (m.popTimer streamId).cancel recorded =
          (m.popTimer streamId).setTimer recorded .cancelled := if_pos waits
      rw [cancels]
      refine ⟨rfl, rfl, fun i => ?_, fun i present => ?_⟩
      · by_cases same : i = recorded
        · subst same
          exact Or.inr ⟨waits, Function.update_self ..⟩
        · exact Or.inl (Function.update_of_ne same ..)
      · rw [record] at present
        obtain rfl := Option.some.inj present
        simp only [setActive, setTimer, Function.update_self]
        decide
    · have leaves : (m.popTimer streamId).cancel recorded = m.popTimer streamId := if_neg waits
      rw [leaves]
      refine ⟨rfl, rfl, fun i => Or.inl rfl, fun i present => ?_⟩
      rw [record] at present
      obtain rfl := Option.some.inj present
      exact waits

/-- A disconnect of a stream without a record arms a timer, or leaves timers and records alone. -/
theorem onDisconnect_cases (kind : Kind) (idleStopSec now : Nat) (absent : m.stopTimer streamId = none) :
    let after := m.setActive kind streamId (m.active kind streamId - 1)
    (m.onDisconnect kind idleStopSec now streamId = after) ∨
      (after.idle streamId = true ∧
        m.onDisconnect kind idleStopSec now streamId = after.arm now streamId) := by
  have record : (m.setActive kind streamId (m.active kind streamId - 1)).stopTimer streamId = none :=
    absent
  simp only [onDisconnect, maybeScheduleStopLocked, record, ne_eq, not_true_eq_false, if_false]
  split
  · exact Or.inl rfl
  · split
    · exact Or.inl rfl
    · rename_i video
      split
      · exact Or.inl rfl
      · rename_i ctrl
        refine Or.inr ⟨?_, rfl⟩
        simp only [idle, not_not.mp video, not_not.mp ctrl, decide_true, Bool.and_self]

theorem fire_cases (i : Nat) (m : OnDemandManager) :
    (m.idle (m.timers i).stream = false ∧ m.fire i = m.setTimer i .done) ∨
      (m.idle (m.timers i).stream = true ∧
        m.fire i = (m.popTimer (m.timers i).stream).setTimer i .stopping) := by
  simp only [fire]
  split
  · rename_i video
    exact Or.inl ⟨by simp [idle, video], rfl⟩
  · rename_i video
    split
    · rename_i ctrl
      exact Or.inl ⟨by simp [idle, ctrl], rfl⟩
    · rename_i ctrl
      refine Or.inr ⟨?_, rfl⟩
      simp only [idle, not_not.mp video, not_not.mp ctrl, decide_true, Bool.and_self]

theorem setTimer_self (i : Nat) (phase : TimerPhase) :
    (m.setTimer i phase).timers i = {m.timers i with phase := phase} := Function.update_self ..

theorem setTimer_other {i j : Nat} (apart : j ≠ i) (phase : TimerPhase) :
    (m.setTimer i phase).timers j = m.timers j := Function.update_of_ne apart ..

end OnDemandManager

/-- Nobody who has passed is there, and for so long nobody was. -/
structure IdleLong (cfg : Config) (s : State) (streamId : Int) : Prop where
  nobody : ∀ id, (s.handlers id).stage.passed ≠ some streamId
  long : ∀ since ∈ s.left streamId, since + cfg.idleStopSec ≤ s.now

/-- A timer that finds its stream idle is the recorded one, and nobody who has passed is then on
the way in; nobody passes while a timer is about to stop the stream; and no refused handshake names
a stream. -/
def Orderly (cfg : Config) (s : State) : Input → Prop
  | .handshake id l1 l2 =>
    match verdict cfg.unicode cfg.token (s.handlers id).kind l1 l2 with
    | .refused _ streamId => streamId ≤ 0
    | .passed streamId => ∀ i, (s.manager.timers i).phase = .stopping →
        (s.manager.timers i).stream ≠ streamId
  | .fire i => (s.manager.timers i).phase = .running →
      s.manager.idle (s.manager.timers i).stream = true →
        s.manager.stopTimer (s.manager.timers i).stream = some i ∧
        ∀ id, (s.handlers id).stage ≠ .connecting (s.manager.timers i).stream
  | _ => True

theorem Orderly.quiet {cfg : Config} {s : State} {input : Input} (orderly : Orderly cfg s input) :
    Quiet cfg s input := by
  cases input with
  | handshake id l1 l2 =>
    intro error streamId said
    simp only [Orderly, said] at orderly
    exact orderly
  | _ => trivial

/-- The timers beside the counters. -/
structure Timed (cfg : Config) (s : State) : Prop where
  balanced : Balanced s
  record : ∀ streamId i, s.manager.stopTimer streamId = some i →
    i < s.manager.made ∧ (s.manager.timers i).stream = streamId ∧
      s.left streamId = some (s.manager.timers i).armedAt ∧ s.manager.idle streamId = true
  pending : ∀ i, (s.manager.timers i).phase = .pending →
    s.manager.stopTimer (s.manager.timers i).stream = some i
  running : ∀ i, (s.manager.timers i).phase = .running →
    (s.manager.timers i).armedAt + cfg.idleStopSec ≤ s.now
  stopping : ∀ i, (s.manager.timers i).phase = .stopping →
    IdleLong cfg s (s.manager.timers i).stream

variable {cfg : Config} {s t : State}

theorem IdleLong.fewer {streamId : Int} (idle : IdleLong cfg s streamId)
    (stages : ∀ id, (t.handlers id).stage.passed = some streamId →
      (s.handlers id).stage.passed = some streamId)
    (left : t.left streamId = s.left streamId) (now : s.now ≤ t.now) : IdleLong cfg t streamId := by
  refine ⟨fun id there => idle.nobody id (stages id there), ?_⟩
  rw [left]
  exact fun since member => (idle.long since member).trans now

theorem IdleLong.same {streamId : Int} (idle : IdleLong cfg s streamId)
    (handlers : t.handlers = s.handlers) (left : t.left streamId = s.left streamId)
    (now : t.now = s.now) : IdleLong cfg t streamId := by
  apply idle.fewer _ left now.ge
  rw [handlers]
  exact fun _ there => there

/-- A step that leaves the manager, and after which nobody has passed who had not. -/
theorem Timed.keep (timed : Timed cfg s) (balanced : Balanced t) (manager : t.manager = s.manager)
    (left : t.left = s.left) (now : s.now ≤ t.now)
    (stages : ∀ streamId id, (t.handlers id).stage.passed = some streamId →
      (s.handlers id).stage.passed = some streamId ∨
        ∀ i, (s.manager.timers i).phase = .stopping → (s.manager.timers i).stream ≠ streamId) :
    Timed cfg t := by
  refine ⟨balanced, ?_, ?_, ?_, ?_⟩
  · rw [manager, left]
    exact timed.record
  · rw [manager]
    exact timed.pending
  · rw [manager]
    exact fun i run => (timed.running i run).trans now
  · rw [manager]
    intro i stop
    apply (timed.stopping i stop).fewer _ (by rw [left]) now
    intro id there
    exact (stages _ id there).resolve_right fun absent => absent i stop rfl

/-- The manager changes the phase of one timer, to none in which it waits or is about to stop. -/
theorem Timed.phase (timed : Timed cfg s) (balanced : Balanced t) {i : Nat} {phase : TimerPhase}
    (manager : t.manager = s.manager.setTimer i phase) (handlers : t.handlers = s.handlers)
    (left : t.left = s.left) (now : t.now = s.now)
    (other : phase ≠ .pending ∧ phase ≠ .stopping)
    (run : phase = .running → (s.manager.timers i).armedAt + cfg.idleStopSec ≤ s.now) :
    Timed cfg t := by
  have timer (j : Nat) : t.manager.timers j = s.manager.timers j ∨
      j = i ∧ t.manager.timers j = {s.manager.timers i with phase := phase} := by
    rw [manager]
    by_cases same : j = i
    · subst same
      exact Or.inr ⟨rfl, OnDemandManager.setTimer_self j phase⟩
    · exact Or.inl (OnDemandManager.setTimer_other same phase)
  refine ⟨balanced, ?_, ?_, ?_, ?_⟩
  · intro streamId j record
    rw [manager] at record
    obtain ⟨known, stream, armed, idle⟩ := timed.record streamId j record
    rw [left]
    rcases timer j with same | ⟨rfl, same⟩
    · rw [same, manager]
      exact ⟨known, stream, armed, idle⟩
    · rw [same, manager]
      exact ⟨known, stream, armed, idle⟩
  · intro j waits
    rcases timer j with same | ⟨rfl, same⟩
    · rw [same] at waits ⊢
      rw [manager]
      exact timed.pending j waits
    · rw [same] at waits
      exact absurd waits other.1
  · intro j runs
    rw [now]
    rcases timer j with same | ⟨rfl, same⟩
    · rw [same] at runs ⊢
      exact timed.running j runs
    · rw [same] at runs ⊢
      exact run runs
  · intro j stops
    rcases timer j with same | ⟨rfl, same⟩
    · rw [same] at stops ⊢
      exact (timed.stopping j stops).same handlers (by rw [left]) now
    · rw [same] at stops
      exact absurd stops other.2

theorem Timed.connect (timed : Timed cfg s) {id : Nat} {streamId : Int}
    (stands : (s.handlers id).stage = .connecting streamId) :
    Timed cfg ((s.setManager (s.manager.onConnect (s.handlers id).kind streamId)).setStage id
      (.live streamId)) := by
  have connected :=
    OnDemandManager.onConnect_connected (s.handlers id).kind streamId s.manager
  generalize same : s.manager.onConnect (s.handlers id).kind streamId = next at connected
  have balanced := timed.balanced.connect stands
  rw [same] at balanced
  have phase {i : Nat} {phase : TimerPhase} (stands : (next.timers i).phase = phase)
      (other : phase ≠ .cancelled) : next.timers i = s.manager.timers i := by
    rcases connected.timer i with same | ⟨-, same⟩
    · exact same
    · rw [same] at stands
      exact absurd stands.symm other
  refine ⟨balanced, ?_, ?_, ?_, ?_⟩
  · intro other i record
    change next.stopTimer other = some i at record
    rw [connected.record] at record
    have apart : other ≠ streamId := by
      rintro rfl
      rw [Function.update_self] at record
      cases record
    rw [Function.update_of_ne apart] at record
    obtain ⟨known, stream, armed, idle⟩ := timed.record other i record
    change i < next.made ∧ (next.timers i).stream = other ∧
      s.left other = some (next.timers i).armedAt ∧ next.idle other = true
    have active (kind : Kind) : next.active kind other = s.manager.active kind other := by
      rw [← same, OnDemandManager.onConnect,
        OnDemandManager.setActive_other fun both => apart both.2,
        OnDemandManager.cancelTimerLocked_active]
    rw [connected.made, OnDemandManager.idle_iff]
    rw [OnDemandManager.idle_iff] at idle
    refine ⟨known, ?_, ?_, fun kind => by rw [active]; exact idle kind⟩
    · rcases connected.timer i with same | ⟨-, same⟩
      · rw [same, stream]
      · rw [same, stream]
    · rcases connected.timer i with same | ⟨-, same⟩
      · rw [same, armed]
      · rw [same, armed]
  · intro i waits
    change (next.timers i).phase = .pending at waits
    change next.stopTimer (next.timers i).stream = some i
    have kept := phase waits (by decide)
    have recorded := timed.pending i (by rw [← kept]; exact waits)
    rw [kept, connected.record, Function.update_of_ne, recorded]
    intro mine
    rw [mine] at recorded
    exact connected.cancelled i recorded waits
  · intro i runs
    change (next.timers i).phase = .running at runs
    change (next.timers i).armedAt + cfg.idleStopSec ≤ s.now
    have kept := phase runs (by decide)
    rw [kept] at runs ⊢
    exact timed.running i runs
  · intro i stops
    change (next.timers i).phase = .stopping at stops
    have kept := phase stops (by decide)
    change IdleLong cfg _ (next.timers i).stream
    rw [kept] at stops ⊢
    apply (timed.stopping i stops).fewer
    · intro other there
      by_cases mine : other = id
      · subst mine
        rw [stands]
        simp only [State.setStage, Function.update_self] at there
        exact there
      · simp only [State.setStage, Function.update_of_ne mine] at there
        exact there
    · rfl
    · exact le_rfl

theorem counted_leaving {id : Nat} {streamId : Int}
    (stands : (s.handlers id).stage = .leaving streamId true) :
    counted (s.handlers id).kind streamId (s.handlers id) = true := by
  simp [counted, stands, Stage.counted]

/-- While somebody is counted, no timer is recorded. -/
theorem Timed.unrecorded (timed : Timed cfg s) {id : Nat} {kind : Kind} {streamId : Int}
    (there : counted kind streamId (s.handlers id) = true) :
    s.manager.stopTimer streamId = none := by
  cases record : s.manager.stopTimer streamId with
  | none => rfl
  | some i =>
    obtain ⟨-, -, -, idle⟩ := timed.record streamId i record
    have absent := OnDemandManager.idle_iff.mp idle kind
    rw [timed.balanced.counts, Census.count_eq_zero] at absent
    have inside : id < s.accepted := by
      apply timed.balanced.inside id
      intro finished
      simp [counted, finished, Stage.counted] at there
    rw [absent id inside] at there
    cases there

/-- An idle stream without a record gets a timer, as its last handler leaves. -/
theorem Timed.arm (timed : Timed cfg s) {streamId : Int}
    (unrecorded : s.manager.stopTimer streamId = none) (idle : s.manager.idle streamId = true)
    (left : s.left streamId = some s.now) : Timed cfg (s.setManager (s.manager.arm s.now streamId)) := by
  have old {i : Nat} (apart : i ≠ s.manager.made) :
      (s.manager.arm s.now streamId).timers i = s.manager.timers i := Function.update_of_ne apart ..
  have new : (s.manager.arm s.now streamId).timers s.manager.made = ⟨streamId, s.now, .pending⟩ :=
    Function.update_self ..
  have phase {i : Nat} {phase : TimerPhase}
      (stands : ((s.manager.arm s.now streamId).timers i).phase = phase) (other : phase ≠ .pending) :
      (s.manager.arm s.now streamId).timers i = s.manager.timers i := by
    by_cases made : i = s.manager.made
    · rw [made, new] at stands
      exact absurd stands.symm other
    · exact old made
  refine ⟨timed.balanced.manage rfl rfl rfl, ?_, ?_, ?_, ?_⟩
  · intro other i record
    change (s.manager.arm s.now streamId).stopTimer other = some i at record
    change i < s.manager.made + 1 ∧ ((s.manager.arm s.now streamId).timers i).stream = other ∧
      s.left other = some ((s.manager.arm s.now streamId).timers i).armedAt ∧
        s.manager.idle other = true
    simp only [OnDemandManager.arm] at record
    by_cases mine : other = streamId
    · subst mine
      rw [Function.update_self] at record
      obtain rfl := Option.some.inj record
      rw [new]
      exact ⟨Nat.lt_succ_self _, rfl, left, idle⟩
    · rw [Function.update_of_ne mine] at record
      obtain ⟨known, stream, armed, nobody⟩ := timed.record other i record
      rw [old (Nat.ne_of_lt known)]
      exact ⟨Nat.lt_succ_of_lt known, stream, armed, nobody⟩
  · intro i waits
    change ((s.manager.arm s.now streamId).timers i).phase = .pending at waits
    change (s.manager.arm s.now streamId).stopTimer ((s.manager.arm s.now streamId).timers i).stream =
      some i
    by_cases made : i = s.manager.made
    · subst made
      rw [new]
      exact Function.update_self ..
    · rw [old made] at waits ⊢
      have recorded := timed.pending i waits
      simp only [OnDemandManager.arm]
      rw [Function.update_of_ne, recorded]
      intro mine
      rw [mine, unrecorded] at recorded
      cases recorded
  · intro i runs
    change ((s.manager.arm s.now streamId).timers i).phase = .running at runs
    change ((s.manager.arm s.now streamId).timers i).armedAt + cfg.idleStopSec ≤ s.now
    have kept := phase runs (by decide)
    rw [kept] at runs ⊢
    exact timed.running i runs
  · intro i stops
    change ((s.manager.arm s.now streamId).timers i).phase = .stopping at stops
    change IdleLong cfg _ ((s.manager.arm s.now streamId).timers i).stream
    have kept := phase stops (by decide)
    rw [kept] at stops ⊢
    exact (timed.stopping i stops).same rfl rfl rfl

/-- The counter goes down with the handler that stood in it. -/
theorem Timed.leave (timed : Timed cfg s) {id : Nat} {streamId : Int}
    (stands : (s.handlers id).stage = .leaving streamId true) (balanced : Balanced t)
    (stopTimer : t.manager.stopTimer = s.manager.stopTimer)
    (timers : t.manager.timers = s.manager.timers) (made : t.manager.made = s.manager.made)
    (active : ∀ kind other, other ≠ streamId →
      t.manager.active kind other = s.manager.active kind other)
    (handlers : t.handlers =
      Function.update s.handlers id {s.handlers id with stage := .finished})
    (left : t.left = Function.update s.left streamId (some s.now)) (now : t.now = s.now) :
    Timed cfg t := by
  have unrecorded := timed.unrecorded (counted_leaving stands)
  refine ⟨balanced, ?_, ?_, ?_, ?_⟩
  · intro other i record
    rw [stopTimer] at record
    have apart : other ≠ streamId := by
      rintro rfl
      rw [unrecorded] at record
      cases record
    obtain ⟨known, stream, armed, idle⟩ := timed.record other i record
    rw [made, timers, left, Function.update_of_ne apart]
    refine ⟨known, stream, armed, ?_⟩
    rw [OnDemandManager.idle_iff] at idle ⊢
    intro kind
    rw [active kind other apart]
    exact idle kind
  · rw [timers, stopTimer]
    exact timed.pending
  · rw [timers, now]
    exact timed.running
  · rw [timers]
    intro i stops
    have idle := timed.stopping i stops
    have apart : (s.manager.timers i).stream ≠ streamId := by
      intro mine
      apply idle.nobody id
      rw [stands, mine]
      rfl
    apply idle.fewer
    · intro other there
      rw [handlers] at there
      by_cases mine : other = id
      · rw [mine, Function.update_self] at there
        cases there
      · rw [Function.update_of_ne mine] at there
        exact there
    · rw [left, Function.update_of_ne apart]
    · rw [now]

theorem Timed.disconnect (timed : Timed cfg s) {id : Nat} {streamId : Int}
    (stands : (s.handlers id).stage = .leaving streamId true) :
    Timed cfg (step cfg s (.disconnect id)) := by
  have balanced := timed.balanced.disconnect stands cfg
  have unrecorded := timed.unrecorded (counted_leaving stands)
  let after := s.manager.setActive (s.handlers id).kind streamId
    (s.manager.active (s.handlers id).kind streamId - 1)
  let t : State :=
    {s.setManager after with left := Function.update s.left streamId (some s.now)}.setStage id
      .finished
  have left : Timed cfg t := by
    apply timed.leave (t := t) stands _ rfl rfl rfl _ rfl rfl rfl
    · apply balanced.manage
      · simp only [step, stands, if_true, State.setStage, State.setManager,
          OnDemandManager.onDisconnect, OnDemandManager.maybeSchedule_active]
        rfl
      · simp only [step, stands]
        rfl
      · simp only [step, stands]
        rfl
    · intro kind other apart
      exact OnDemandManager.setActive_other (fun both => apart both.2) _
  simp only [step, stands, if_true]
  rcases OnDemandManager.onDisconnect_cases (s.handlers id).kind cfg.idleStopSec s.now
    unrecorded with same | ⟨idle, armed⟩
  · rw [same]
    exact left
  · rw [armed]
    exact left.arm unrecorded idle (Function.update_self ..)

/-- Who finds the counters of a stream at 0 finds nobody but those who are about to be counted. -/
theorem Balanced.nobody (balanced : Balanced s) {streamId : Int}
    (idle : s.manager.idle streamId = true)
    (outside : ∀ id, (s.handlers id).stage ≠ .connecting streamId) (id : Nat) :
    (s.handlers id).stage.passed ≠ some streamId := by
  intro there
  have absent := OnDemandManager.idle_iff.mp idle (s.handlers id).kind
  rw [balanced.counts, Census.count_eq_zero] at absent
  have inside : id < s.accepted := by
    apply balanced.inside id
    intro finished
    rw [finished] at there
    cases there
  have uncounted := absent id inside
  cases stands : (s.handlers id).stage with
  | connecting other =>
    rw [stands] at there
    obtain rfl := Option.some.inj there
    exact outside id stands
  | live other =>
    rw [stands] at there
    obtain rfl := Option.some.inj there
    simp [counted, stands, Stage.counted] at uncounted
  | leaving other passed =>
    cases passed with
    | false =>
      rw [stands] at there
      cases there
    | true =>
      rw [stands] at there
      obtain rfl := Option.some.inj there
      rw [counted_leaving stands] at uncounted
      cases uncounted
  | reading | finished =>
    rw [stands] at there
    cases there

theorem Timed.fire (timed : Timed cfg s) {i : Nat} (runs : (s.manager.timers i).phase = .running)
    (orderly : Orderly cfg s (.fire i)) : Timed cfg (s.setManager (s.manager.fire i)) := by
  have balanced : Balanced (s.setManager (s.manager.fire i)) :=
    timed.balanced.manage (OnDemandManager.fire_active i s.manager) rfl rfl
  rcases OnDemandManager.fire_cases i s.manager with ⟨-, done⟩ | ⟨idle, stops⟩
  · apply timed.phase balanced done rfl rfl rfl
    · exact ⟨by decide, by decide⟩
    · intro run
      cases run
  · obtain ⟨recorded, outside⟩ := orderly runs idle
    obtain ⟨known, -, armed, -⟩ := timed.record _ i recorded
    rw [stops] at balanced ⊢
    generalize popped : (s.manager.popTimer (s.manager.timers i).stream).setTimer i .stopping = next
      at balanced ⊢
    have record : next.stopTimer =
        Function.update s.manager.stopTimer (s.manager.timers i).stream none := by
      rw [← popped]
      rfl
    have mine : next.timers i = {s.manager.timers i with phase := .stopping} := by
      rw [← popped, OnDemandManager.setTimer_self]
      rfl
    have other {j : Nat} (apart : j ≠ i) : next.timers j = s.manager.timers j := by
      rw [← popped, OnDemandManager.setTimer_other apart]
      rfl
    refine ⟨balanced, ?_, ?_, ?_, ?_⟩
    · intro streamId j kept
      change next.stopTimer streamId = some j at kept
      rw [record] at kept
      have apart : streamId ≠ (s.manager.timers i).stream := by
        rintro rfl
        rw [Function.update_self] at kept
        cases kept
      rw [Function.update_of_ne apart] at kept
      have before := timed.record streamId j kept
      have apart' : j ≠ i := by
        rintro rfl
        exact apart before.2.1.symm
      change j < next.made ∧ (next.timers j).stream = streamId ∧
        s.left streamId = some (next.timers j).armedAt ∧ next.idle streamId = true
      rw [other apart', ← popped]
      exact before
    · intro j waits
      change (next.timers j).phase = .pending at waits
      change next.stopTimer (next.timers j).stream = some j
      have apart : j ≠ i := by
        rintro rfl
        rw [mine] at waits
        cases waits
      rw [other apart] at waits ⊢
      have kept := timed.pending j waits
      rw [record, Function.update_of_ne, kept]
      intro same
      rw [same, recorded] at kept
      exact apart (Option.some.inj kept).symm
    · intro j run
      change (next.timers j).phase = .running at run
      change (next.timers j).armedAt + cfg.idleStopSec ≤ s.now
      have apart : j ≠ i := by
        rintro rfl
        rw [mine] at run
        cases run
      rw [other apart] at run ⊢
      exact timed.running j run
    · intro j stop
      change (next.timers j).phase = .stopping at stop
      change IdleLong cfg _ (next.timers j).stream
      by_cases same : j = i
      · subst same
        rw [mine]
        refine ⟨timed.balanced.nobody idle outside, ?_⟩
        intro since member
        obtain rfl : (s.manager.timers j).armedAt = since := by
          change s.left _ = some since at member
          rw [armed] at member
          exact Option.some.inj member
        exact timed.running j runs
      · rw [other same] at stop ⊢
        exact (timed.stopping j stop).same rfl rfl rfl

theorem init_timed (cfg : Config) : Timed cfg .init :=
  ⟨init_balanced, fun _ _ => nofun, fun _ => nofun, fun _ => nofun, fun _ => nofun⟩

/-- A handler goes on without the manager, and does not pass. -/
theorem Timed.handler (timed : Timed cfg s) {id : Nat} {stage : Stage}
    (balanced : Balanced (s.setStage id stage))
    (stages : ∀ streamId, stage.passed = some streamId →
      (s.handlers id).stage.passed = some streamId ∨
        ∀ i, (s.manager.timers i).phase = .stopping → (s.manager.timers i).stream ≠ streamId) :
    Timed cfg (s.setStage id stage) := by
  apply timed.keep balanced rfl rfl le_rfl
  intro streamId other there
  simp only [State.setStage] at there
  by_cases mine : other = id
  · rw [mine, Function.update_self] at there
    rw [mine]
    exact stages streamId there
  · rw [Function.update_of_ne mine] at there
    exact Or.inl there

theorem step_timed (input : Input) (timed : Timed cfg s) (orderly : Orderly cfg s input) :
    Timed cfg (step cfg s input) := by
  have balanced := step_balanced cfg input timed.balanced orderly.quiet
  cases input with
  | accept kind =>
    apply timed.keep balanced rfl rfl le_rfl
    intro streamId other there
    simp only [step] at there
    by_cases mine : other = s.accepted
    · rw [mine, Function.update_self] at there
      cases there
    · rw [Function.update_of_ne mine] at there
      exact Or.inl there
  | fail id =>
    simp only [step] at balanced ⊢
    split at balanced
    · exact timed.handler balanced fun _ there => by cases there
    · exact timed
  | handshake id l1 l2 =>
    simp only [step] at balanced ⊢
    split at balanced
    · cases said : verdict cfg.unicode cfg.token (s.handlers id).kind l1 l2 with
      | passed streamId =>
        rw [said] at balanced
        apply timed.handler balanced
        intro other there
        obtain rfl := Option.some.inj there
        simp only [Orderly, said] at orderly
        exact Or.inr orderly
      | refused error streamId =>
        have absent := orderly.quiet error streamId said
        rw [said] at balanced
        simp only [State.judge] at balanced ⊢
        rw [if_neg (Int.not_lt.mpr absent)] at balanced ⊢
        exact timed.handler balanced fun _ there => by cases there
    · exact timed
  | connect id =>
    simp only [step]
    split
    · rename_i stands
      exact timed.connect stands
    · exact timed
  | finish id =>
    simp only [step] at balanced ⊢
    split at balanced
    · rename_i stands
      apply timed.handler balanced
      intro other there
      rw [stands]
      exact Or.inl there
    · exact timed
  | disconnect id =>
    cases stands : (s.handlers id).stage with
    | leaving streamId authed =>
      cases authed with
      | false => exact absurd stands (timed.balanced.genuine id streamId)
      | true => exact timed.disconnect stands
    | reading | connecting | live | finished =>
      simp only [step, stands]
      exact timed
  | expire i =>
    simp only [step] at balanced ⊢
    split at balanced
    · rename_i due
      rw [if_pos due]
      apply timed.phase balanced rfl rfl rfl rfl
      · exact ⟨by decide, by decide⟩
      · exact fun _ => due.2
    · rename_i early
      rw [if_neg early]
      exact timed
  | fire i =>
    simp only [step]
    split
    · rename_i runs
      exact timed.fire runs orderly
    · exact timed
  | stopSoft i =>
    simp only [step] at balanced ⊢
    split at balanced
    · rename_i stops
      rw [if_pos stops]
      apply timed.phase balanced rfl rfl rfl rfl
      · exact ⟨by decide, by decide⟩
      · intro run
        cases run
    · rename_i busy
      rw [if_neg busy]
      exact timed
  | tick => exact timed.keep balanced rfl rfl (Nat.le_succ s.now) fun _ _ => Or.inl

theorem run_timed (cfg : Config) (inputs : List Input)
    (always : Run.Always (step cfg) .init (Orderly cfg) inputs) : Timed cfg (run cfg inputs) :=
  Run.history_while (step cfg) .init (Orderly cfg) (fun _ s => Timed cfg s) (init_timed cfg)
    (fun _ input timed orderly => step_timed input timed orderly) inputs always

/-- A waiting timer is the recorded one of its stream, and a recorded timer was armed when the last
connection of the stream left, since when the counters of the stream are 0. -/
structure Recorded (s : State) : Prop where
  single : ∀ i, (s.manager.timers i).phase = .pending →
    s.manager.stopTimer (s.manager.timers i).stream = some i
  recent : ∀ streamId i, s.manager.stopTimer streamId = some i →
    (s.manager.timers i).stream = streamId ∧
      s.left streamId = some (s.manager.timers i).armedAt ∧ s.manager.idle streamId = true

/-- Whenever stop_soft begins, its stream has been idle for long enough and is. -/
structure StopsIdle (cfg : Config) (inputs : List Input) : Prop where
  stops : ∀ past i later, inputs = past ++ .stopSoft i :: later →
    ((run cfg past).manager.timers i).phase = .stopping →
      IdleLong cfg (run cfg past) ((run cfg past).manager.timers i).stream
  records : ∀ past later, inputs = past ++ later → Recorded (run cfg past)

theorem run_stopsIdle (cfg : Config) (inputs : List Input)
    (always : Run.Always (step cfg) .init (Orderly cfg) inputs) : StopsIdle cfg inputs := by
  have timed {past later : List Input} (split : inputs = past ++ later) :
      Timed cfg (run cfg past) := by
    rw [split] at always
    exact run_timed cfg past (Run.always_before (step cfg) .init always)
  refine ⟨?_, ?_⟩
  · intro past i later split stops
    exact (timed split).stopping i stops
  · intro past later split
    refine ⟨(timed split).pending, ?_⟩
    intro streamId i recorded
    exact ((timed split).record streamId i recorded).2

/-- The token "t", and a second. -/
def briefConfig : Config := ⟨PyText.ascii, ['t'], 1⟩

/-- The viewer goes, and its stream is about to be stopped. -/
def idleInputs : List Input :=
  viewerInputs ++ [.finish 0, .disconnect 0, .tick, .expire 0, .fire 0]

theorem run_stopsIdle_viewer : StopsIdle briefConfig (idleInputs ++ [.stopSoft 0]) := by
  apply run_stopsIdle
  simp only [idleInputs, viewerInputs, List.cons_append, List.nil_append, Run.always_cons,
    Run.always_nil, and_true]
  refine ⟨trivial, ?_, trivial, trivial, trivial, trivial, trivial, ?_, trivial⟩
  · intro i stops
    cases stops
  · intro runs idle
    refine ⟨rfl, ?_⟩
    rintro (- | id)
    · intro stands
      cases stands
    · intro stands
      cases stands

/-- A second viewer comes just before the stop. -/
theorem not_stopsIdle_late : ¬StopsIdle briefConfig
    (idleInputs ++ [.accept .video, .handshake 1 rightLine subLine, .connect 1] ++ [.stopSoft 0]) := by
  intro idle
  exact (idle.stops _ 0 [] rfl (by decide)).nobody 1 (by decide)

end StreamRelay.Link
