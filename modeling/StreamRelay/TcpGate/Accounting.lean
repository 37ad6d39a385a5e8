import StreamRelay.TcpGate.Gate

/-! The counters of the gate's manager and the handlers that they stand for. -/
namespace StreamRelay.TcpGate

/-- The stream for which a handler has called on_connect. -/
def Stage.connected : Stage → Option Int
  | .live _ streamId => some streamId
  | .leaving _ connected | .finished connected => connected
  | .reading | .validating _ _ | .connecting _ _ => none

/-- The stream whose handshake a handler has passed, until it has finished. -/
def Stage.authenticated : Stage → Option Int
  | .connecting _ streamId | .live _ streamId => some streamId
  | .leaving _ connected => connected
  | .reading | .validating _ _ | .finished _ => none

def connected (streamId : Int) (handler : Handler) : Bool :=
  handler.stage.connected = some streamId

def authenticated (streamId : Int) (handler : Handler) : Bool :=
  handler.stage.authenticated = some streamId

def Stage.ended : Stage → Bool
  | .finished _ => true
  | _ => false

/-- No handler is in on_connect. -/
def Settled (s : State) : Prop :=
  ∀ id token streamId, (s.handlers id).stage ≠ .connecting token streamId

/-- A timer of the stream is armed. -/
def Arms (s t : State) (streamId : Int) : Prop :=
  s.manager.made < t.manager.made ∧ (t.manager.timers s.manager.made).stream = streamId

/-- Every on_connect is followed by exactly one on_disconnect as its handler ends, and there is no
other; the counters are the numbers of the connections that are there; and a timer is armed as a
counter returns to 0. -/
structure Accounted (cfg : Config) (startMs : Int) (inputs : List Input) : Prop where
  paired : ∀ past later, inputs = past ++ later → ∀ id streamId,
    let s := run cfg startMs past
    s.calls.count (.onDisconnect id streamId) =
      if (s.handlers id).stage.ended then s.calls.count (.onConnect id streamId) else 0
  counts : ∀ past later, inputs = past ++ later →
    let s := run cfg startMs past
    Settled s → ∀ streamId, s.manager.activeByStream streamId =
      Census.count (authenticated streamId) s.handlers s.accepted
  timers : ∀ past input later, inputs = past ++ input :: later → ∀ streamId,
    let s := run cfg startMs past
    let t := step cfg s input
    Arms s t streamId ↔ 0 < cfg.idleStopSec ∧ 0 < s.manager.activeByStream streamId ∧
      t.manager.activeByStream streamId = 0

/-- No handler ends that has called on_connect. -/
def Lasting (s : State) : Input → Prop
  | .release id => ∀ locals streamId, (s.handlers id).stage ≠ .leaving locals (some streamId)
  | _ => True

/-- What holds however handlers end: nothing is ever released. -/
structure Traced (s : State) : Prop where
  active : ∀ streamId, s.manager.activeByStream streamId =
    Census.count (connected streamId) s.handlers s.accepted
  connects : ∀ id streamId, s.calls.count (.onConnect id streamId) =
    (connected streamId (s.handlers id)).toNat
  disconnects : ∀ id streamId, s.calls.count (.onDisconnect id streamId) = 0
  known : ∀ id, s.accepted ≤ id → (s.handlers id).stage = .finished none

variable {cfg : Config} {s t : State}

theorem Traced.inside (traced : Traced s) (id : Nat) (busy : (s.handlers id).stage ≠ .finished none) :
    id < s.accepted := by
  by_contra beyond
  exact busy (traced.known id (Nat.not_lt.mp beyond))

/-- A handler goes on without the manager. -/
theorem Traced.setStage (traced : Traced s) {id : Nat} {before stage : Stage}
    (stands : (s.handlers id).stage = before) (busy : before ≠ .finished none)
    (same : stage.connected = before.connected) : Traced (s.setStage id stage) := by
  have kept (streamId : Int) : connected streamId {s.handlers id with stage := stage} =
      connected streamId (s.handlers id) := by
    simp only [connected, same, stands]
  refine ⟨?_, ?_, traced.disconnects, ?_⟩
  · intro streamId
    simp only [State.setStage]
    rw [Census.count_same s.accepted (kept streamId)]
    exact traced.active streamId
  · intro other streamId
    simp only [State.setStage]
    by_cases mine : other = id
    · subst mine
      rw [Function.update_self, kept]
      exact traced.connects other streamId
    · rw [Function.update_of_ne mine]
      exact traced.connects other streamId
  · intro other beyond
    have apart : other ≠ id := by
      rintro rfl
      exact busy (stands.symm.trans (traced.known other beyond))
    simp only [State.setStage]
    rw [Function.update_of_ne apart]
    exact traced.known other beyond

theorem Traced.keep (traced : Traced s)
    (active : t.manager.activeByStream = s.manager.activeByStream)
    (handlers : t.handlers = s.handlers) (accepted : t.accepted = s.accepted)
    (calls : t.calls = s.calls) : Traced t := by
  refine ⟨?_, ?_, ?_, ?_⟩
  · rw [active, handlers, accepted]
    exact traced.active
  · rw [calls, handlers]
    exact traced.connects
  · rw [calls]
    exact traced.disconnects
  · rw [handlers, accepted]
    exact traced.known

namespace OnDemandManager

variable {m : OnDemandManager} {streamId other : Int}

theorem cancel_active (i : Nat) (m : OnDemandManager) :
    (m.cancel i).activeByStream = m.activeByStream := by
  simp only [cancel]
  split <;> rfl

theorem popTimer_active (streamId : Int) (m : OnDemandManager) :
    (m.popTimer streamId).activeByStream = m.activeByStream := by
  simp only [popTimer]
  split
  · rfl
  · rw [cancel_active]

theorem onConnect_self (streamId : Int) (m : OnDemandManager) :
    (m.onConnect streamId).activeByStream streamId = m.activeByStream streamId + 1 :=
  Function.update_self ..

theorem onConnect_other (apart : other ≠ streamId) :
    (m.onConnect streamId).activeByStream other = m.activeByStream other := by
  simp only [onConnect, setActive]
  rw [Function.update_of_ne apart, popTimer_active]

theorem fire_active (i : Nat) (m : OnDemandManager) :
    (m.fire i).activeByStream = m.activeByStream := by
  simp only [fire]
  split <;> rfl

theorem cancel_made (i : Nat) (m : OnDemandManager) : (m.cancel i).made = m.made := by
  simp only [cancel]
  split <;> rfl

theorem onConnect_made (streamId : Int) (m : OnDemandManager) :
    (m.onConnect streamId).made = m.made := by
  simp only [onConnect, setActive, popTimer]
  split
  · rfl
  · rw [cancel_made]

theorem fire_made (i : Nat) (m : OnDemandManager) : (m.fire i).made = m.made := by
  simp only [fire]
  split <;> rfl

end OnDemandManager

theorem Traced.connect (traced : Traced s) {id : Nat} {token : PyText.Text} {streamId : Int}
    (stands : (s.handlers id).stage = .connecting token streamId) :
    Traced (((s.setManager (s.manager.onConnect streamId)).call (.onConnect id streamId)).setStage id
      (.live token streamId)) := by
  have inside := traced.inside id (by rw [stands]; nofun)
  have before (other : Int) : connected other (s.handlers id) = false := by
    simp [connected, stands, Stage.connected]
  refine ⟨?_, ?_, ?_, ?_⟩
  · intro other
    have changed := Census.count_update (connected other) s.handlers inside
      {s.handlers id with stage := .live token streamId}
    rw [before, ← traced.active other] at changed
    by_cases mine : other = streamId
    · subst mine
      rw [show connected other ⟨(s.handlers id).ip, .live token other⟩ = true by
        simp [connected, Stage.connected]] at changed
      exact (OnDemandManager.onConnect_self other s.manager).trans changed.symm
    · rw [show connected other ⟨(s.handlers id).ip, .live token streamId⟩ = false by
        simp [connected, Stage.connected, Ne.symm mine]] at changed
      exact (OnDemandManager.onConnect_other mine).trans changed.symm
  · intro other stream
    simp only [State.setStage, State.call, State.setManager]
    rw [List.count_append, traced.connects other stream, List.count_singleton]
    by_cases mine : other = id
    · subst mine
      rw [before, Function.update_self]
      by_cases same : stream = streamId
      · subst same
        simp [connected, Stage.connected]
      · simp [connected, Stage.connected, Ne.symm same]
    · rw [Function.update_of_ne mine]
      simp [Ne.symm mine]
  · intro other stream
    simp only [State.setStage, State.call, State.setManager]
    rw [List.count_append, traced.disconnects other stream, List.count_singleton]
    rfl
  · intro other beyond
    have apart : other ≠ id := Nat.ne_of_gt (Nat.lt_of_lt_of_le inside beyond)
    simp only [State.setStage, State.call, State.setManager]
    rw [Function.update_of_ne apart]
    exact traced.known other beyond

theorem Traced.accept (traced : Traced s) (ip : PyText.Text) : Traced (step cfg s (.accept ip)) := by
  have fresh (streamId : Int) : connected streamId ⟨ip, .reading⟩ = false := by
    simp [connected, Stage.connected]
  refine ⟨?_, ?_, traced.disconnects, ?_⟩
  · intro streamId
    simp only [step]
    rw [Census.count_push, fresh]
    exact traced.active streamId
  · intro id streamId
    have before := traced.connects id streamId
    simp only [step]
    by_cases same : id = s.accepted
    · subst same
      rw [Function.update_self, fresh]
      rw [connected, traced.known s.accepted le_rfl] at before
      exact before
    · rw [Function.update_of_ne same]
      exact before
  · intro id after
    have apart : id ≠ s.accepted := Nat.ne_of_gt after
    simp only [step]
    rw [Function.update_of_ne apart]
    exact traced.known id (Nat.le_of_succ_le after)

/-- A handler ends, and the manager is not called. -/
theorem step_release {id : Nat} {locals : Locals} {connected : Option Int}
    (stands : (s.handlers id).stage = .leaving locals connected) :
    step cfg s (.release id) = s.setStage id (.finished connected) := by
  simp only [step, stands]
  rfl

theorem start_traced (startMs : Int) : Traced (.start startMs) :=
  ⟨fun _ => rfl, fun _ _ => rfl, fun _ _ => rfl, fun _ _ => rfl⟩

theorem step_traced (input : Input) (traced : Traced s) : Traced (step cfg s input) := by
  cases input with
  | post streamId ip drawn wait gcWait =>
    simp only [step]
    split
    · exact traced
    · exact traced.keep rfl rfl rfl rfl
  | accept ip => exact traced.accept ip
  | handshake id l1 l2 =>
    simp only [step]
    split
    · rename_i stands
      split
      · exact traced.setStage stands nofun rfl
      · exact traced.setStage stands nofun rfl
    · exact traced
  | validate id wait gcWait =>
    simp only [step]
    split
    · rename_i stands
      have kept (tokens : TokenState) : Traced {s with tokens := tokens} :=
        traced.keep rfl rfl rfl rfl
      apply Traced.setStage (kept _)
      · exact stands
      · nofun
      · split <;> rfl
    · exact traced
  | connect id =>
    simp only [step]
    split
    · rename_i stands
      exact traced.connect stands
    · exact traced
  | exit id =>
    simp only [step]
    split
    · rename_i stands
      exact traced.setStage stands nofun rfl
    · rename_i stands
      exact traced.setStage stands nofun rfl
    · exact traced
  | release id =>
    cases stands : (s.handlers id).stage with
    | leaving locals connected =>
      rw [step_release stands]
      exact traced.setStage stands nofun rfl
    | reading | validating | connecting | live | finished =>
      simp only [step, stands]
      exact traced
  | expire i =>
    simp only [step]
    split
    · exact traced.keep rfl rfl rfl rfl
    · exact traced
  | fire i =>
    simp only [step]
    split
    · exact traced.keep (OnDemandManager.fire_active i s.manager) rfl rfl rfl
    · exact traced
  | stopSoft i =>
    simp only [step]
    split
    · exact traced.keep rfl rfl rfl rfl
    · exact traced
  | tick => exact traced.keep rfl rfl rfl rfl

theorem run_traced (cfg : Config) (startMs : Int) (inputs : List Input) :
    Traced (run cfg startMs inputs) :=
  Run.invariant (step cfg) (.start startMs) Traced (start_traced startMs)
    (fun _ input traced => step_traced input traced) inputs

/-- What no step does: it arms no timer, and no counter goes down. -/
structure Grows (s t : State) : Prop where
  made : t.manager.made = s.manager.made
  active : ∀ streamId, s.manager.activeByStream streamId ≤ t.manager.activeByStream streamId

theorem grows_same (manager : t.manager = s.manager) : Grows s t :=
  ⟨by rw [manager], fun streamId => by rw [manager]⟩

theorem step_grows (cfg : Config) (s : State) (input : Input) : Grows s (step cfg s input) := by
  cases input with
  | post | validate =>
    simp only [step]
    split
    · exact grows_same rfl
    · exact grows_same rfl
  | handshake id l1 l2 =>
    simp only [step]
    split
    · split
      · exact grows_same rfl
      · exact grows_same rfl
    · exact grows_same rfl
  | exit id =>
    simp only [step]
    split
    · exact grows_same rfl
    · exact grows_same rfl
    · exact grows_same rfl
  | accept | tick => exact grows_same rfl
  | connect id =>
    simp only [step]
    split
    · rename_i streamId stands
      refine ⟨OnDemandManager.onConnect_made streamId s.manager, fun other => ?_⟩
      by_cases mine : other = streamId
      · subst mine
        exact (Nat.le_succ _).trans (OnDemandManager.onConnect_self other s.manager).ge
      · exact (OnDemandManager.onConnect_other mine).ge
    · exact grows_same rfl
  | release id =>
    cases stands : (s.handlers id).stage with
    | leaving locals connected =>
      rw [step_release stands]
      exact grows_same rfl
    | reading | validating | connecting | live | finished =>
      simp only [step, stands]
      exact grows_same rfl
  | expire i | stopSoft i =>
    simp only [step]
    split
    · exact ⟨rfl, fun _ => le_rfl⟩
    · exact grows_same rfl
  | fire i =>
    simp only [step]
    split
    · refine ⟨OnDemandManager.fire_made i s.manager, fun streamId => ?_⟩
      exact (congrFun (OnDemandManager.fire_active i s.manager) streamId).ge
    · exact grows_same rfl

/-- No handler has ended that had called on_connect. -/
def Open (s : State) : Prop := ∀ id streamId, (s.handlers id).stage ≠ .finished (some streamId)

theorem Open.setStage (opened : Open s) {id : Nat} {stage : Stage}
    (allowed : ∀ streamId, stage ≠ .finished (some streamId)) : Open (s.setStage id stage) := by
  apply (Function.forall_update_iff s.handlers fun _ handler =>
    ∀ streamId, handler.stage ≠ .finished (some streamId)).mpr
  exact ⟨allowed, fun other _ => opened other⟩

theorem step_open (input : Input) (opened : Open s) (lasting : Lasting s input) :
    Open (step cfg s input) := by
  cases input with
  | post =>
    simp only [step]
    split
    · exact opened
    · exact opened
  | accept ip =>
    apply (Function.forall_update_iff s.handlers fun _ handler =>
      ∀ streamId, handler.stage ≠ .finished (some streamId)).mpr
    exact ⟨nofun, fun other _ => opened other⟩
  | handshake id l1 l2 =>
    simp only [step]
    split
    · split
      · exact opened.setStage nofun
      · exact opened.setStage nofun
    · exact opened
  | validate id wait gcWait =>
    simp only [step]
    split
    · apply Open.setStage opened
      intro streamId
      split
      · nofun
      · nofun
    · exact opened
  | connect id =>
    simp only [step]
    split
    · exact Open.setStage opened nofun
    · exact opened
  | exit id =>
    simp only [step]
    split
    · exact opened.setStage nofun
    · exact opened.setStage nofun
    · exact opened
  | release id =>
    cases stands : (s.handlers id).stage with
    | leaving locals connected =>
      rw [step_release stands]
      apply opened.setStage
      rintro streamId same
      cases same
      exact lasting locals streamId stands
    | reading | validating | connecting | live | finished =>
      simp only [step, stands]
      exact opened
  | expire i | fire i | stopSoft i =>
    simp only [step]
    split
    · exact opened
    · exact opened
  | tick => exact opened

theorem run_open (cfg : Config) (startMs : Int) (inputs : List Input)
    (always : Run.Always (step cfg) (.start startMs) Lasting inputs) :
    Open (run cfg startMs inputs) :=
  Run.history_while (step cfg) (.start startMs) Lasting (fun _ s => Open s) (fun _ _ => nofun)
    (fun _ input opened lasting => step_open input opened lasting) inputs always

/-- While no such handler has ended, the calls pair. -/
theorem Traced.paired (traced : Traced s) (opened : Open s) (id : Nat) (streamId : Int) :
    s.calls.count (.onDisconnect id streamId) =
      if (s.handlers id).stage.ended then s.calls.count (.onConnect id streamId) else 0 := by
  rw [traced.disconnects, traced.connects, connected]
  cases stands : (s.handlers id).stage with
  | finished connected =>
    cases connected with
    | none => rfl
    | some streamId => exact absurd stands (opened id streamId)
  | reading | validating | connecting | live | leaving => rfl

theorem Traced.counts (traced : Traced s) (opened : Open s) (settled : Settled s) (streamId : Int) :
    s.manager.activeByStream streamId =
      Census.count (authenticated streamId) s.handlers s.accepted := by
  rw [traced.active]
  apply Census.count_comp
  funext id
  simp only [Function.comp, connected, authenticated]
  cases stands : (s.handlers id).stage with
  | connecting token streamId => exact absurd stands (settled id token streamId)
  | finished connected =>
    cases connected with
    | none => rfl
    | some streamId => exact absurd stands (opened id streamId)
  | reading | validating | live | leaving => rfl

theorem run_accounted_iff (cfg : Config) (startMs : Int) (inputs : List Input) :
    Accounted cfg startMs inputs ↔ Run.Always (step cfg) (.start startMs) Lasting inputs := by
  constructor
  · rintro accounted past input later rfl
    cases input with
    | release id =>
      intro locals streamId stands
      -- The handler ends, and its on_connect stays alone.
      have after := accounted.paired (past ++ [.release id]) later (by simp) id streamId
      have traced := run_traced cfg startMs (past ++ [.release id])
      have ended : ((run cfg startMs (past ++ [.release id])).handlers id).stage =
          .finished (some streamId) := by
        rw [run, Run.run_snoc, step_release stands]
        simp only [State.setStage, Function.update_self]
      simp only [traced.disconnects, traced.connects, connected, ended] at after
      simp [Stage.ended, Stage.connected] at after
    | _ => trivial
  · intro always
    have opened {past later : List Input} (split : inputs = past ++ later) :
        Open (run cfg startMs past) := by
      rw [split] at always
      exact run_open cfg startMs past (Run.always_before (step cfg) (.start startMs) always)
    refine ⟨?_, ?_, ?_⟩
    · intro past later split
      exact (run_traced cfg startMs past).paired (opened split)
    · intro past later split
      exact (run_traced cfg startMs past).counts (opened split)
    · intro past input later split streamId
      have grows := step_grows cfg (run cfg startMs past) input
      constructor
      · rintro ⟨armed, -⟩
        exact absurd armed (Nat.not_lt.mpr grows.made.le)
      · rintro ⟨-, before, after⟩
        have kept := grows.active streamId
        omega

/-- Tokens as they are by default, and fifteen seconds. -/
def sampleConfig : Config := ⟨PyText.ascii, ⟨300, 300, false, true⟩, 15⟩

def authLine : PyText.Text := Link.authPrefix ++ TokenStore.draw 5

def subLine : PyText.Text := Link.subPrefix ++ ['1']

/-- A client asks for a token of stream 1, enters with it, and goes. -/
def visitInputs : List Input :=
  [.post 1 firstAddress 5 0 0, .accept firstAddress, .handshake 0 authLine subLine,
    .validate 0 5 0, .connect 0, .exit 0, .release 0]

theorem not_accounted_visit : ¬Accounted sampleConfig 1000 visitInputs := by
  intro accounted
  exact absurd (accounted.paired visitInputs [] (by simp) 0 1) (by decide)

end StreamRelay.TcpGate
