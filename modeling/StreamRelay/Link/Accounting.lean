import StreamRelay.Link.Gate

/-! The counters of the manager and the handlers that they stand for. -/
namespace StreamRelay.Link

/-- The stream whose handshake a handler has passed, until it has finished. -/
def Stage.passed : Stage → Option Int
  | .connecting streamId | .live streamId | .leaving streamId true => some streamId
  | _ => none

/-- The stream in whose counter a handler stands. -/
def Stage.counted : Stage → Option Int
  | .live streamId | .leaving streamId true => some streamId
  | _ => none

def passed (kind : Kind) (streamId : Int) (handler : Handler) : Bool :=
  handler.kind = kind && handler.stage.passed = some streamId

def counted (kind : Kind) (streamId : Int) (handler : Handler) : Bool :=
  handler.kind = kind && handler.stage.counted = some streamId

/-- No handler is in on_*_connect. -/
def Settled (s : State) : Prop := ∀ id streamId, (s.handlers id).stage ≠ .connecting streamId

/-- The handler whose thread takes a step. -/
def Input.handler (s : State) : Input → Option Nat
  | .accept _ => some s.accepted
  | .fail id | .handshake id _ _ | .connect id | .finish id | .disconnect id => some id
  | _ => none

namespace OnDemandManager

variable {m : OnDemandManager} {streamId other : Int} {kind : Kind}

@[simp] theorem setTimer_active (i : Nat) (phase : TimerPhase) (m : OnDemandManager) :
    (m.setTimer i phase).active = m.active := rfl

@[simp] theorem popTimer_active (streamId : Int) (m : OnDemandManager) :
    (m.popTimer streamId).active = m.active := rfl

@[simp] theorem cancel_active (i : Nat) (m : OnDemandManager) : (m.cancel i).active = m.active := by
  simp only [cancel]
  split <;> rfl

@[simp] theorem cancelTimerLocked_active (streamId : Int) (m : OnDemandManager) :
    (m.cancelTimerLocked streamId).active = m.active := by
  simp only [cancelTimerLocked]
  split
  · rfl
  · rw [cancel_active, popTimer_active]

theorem setActive_self (count : Nat) : (m.setActive kind streamId count).active kind streamId = count := by
  simp only [setActive, Function.update_self]

theorem setActive_other {kind' : Kind} (apart : ¬(kind' = kind ∧ other = streamId)) (count : Nat) :
    (m.setActive kind streamId count).active kind' other = m.active kind' other := by
  simp only [setActive]
  by_cases same : kind' = kind
  · subst same
    rw [Function.update_self, Function.update_of_ne fun eq => apart ⟨rfl, eq⟩]
  · rw [Function.update_of_ne same]

@[simp] theorem maybeSchedule_active (idleStopSec now : Nat) (streamId : Int)
    (m : OnDemandManager) :
    (m.maybeScheduleStopLocked idleStopSec now streamId).active = m.active := by
  simp only [maybeScheduleStopLocked]
  split
  · rfl
  · split
    · rfl
    · split
      · rfl
      · split <;> rfl

@[simp] theorem fire_active (i : Nat) (m : OnDemandManager) : (m.fire i).active = m.active := by
  simp only [fire]
  split
  · rfl
  · split <;> rfl

end OnDemandManager

/-- Each counter is the number of the handlers in it, and none leaves that had not passed. -/
structure Balanced (s : State) : Prop where
  counts : ∀ kind streamId, s.manager.active kind streamId =
    Census.count (counted kind streamId) s.handlers s.accepted
  genuine : ∀ id streamId, (s.handlers id).stage ≠ .leaving streamId false
  known : ∀ id, s.accepted ≤ id → (s.handlers id).stage = .finished

variable {s t : State}

theorem Balanced.inside (balanced : Balanced s) (id : Nat)
    (busy : (s.handlers id).stage ≠ .finished) : id < s.accepted := by
  by_contra beyond
  exact busy (balanced.known id (Nat.not_lt.mp beyond))

/-- A step of one handler that moves the counters with it. -/
theorem Balanced.move (balanced : Balanced s) (id : Nat) (stage : Stage)
    (busy : (s.handlers id).stage ≠ .finished) (genuine : ∀ streamId, stage ≠ .leaving streamId false)
    (handlers : t.handlers = Function.update s.handlers id {s.handlers id with stage := stage})
    (accepted : t.accepted = s.accepted)
    (counts : ∀ kind streamId,
      t.manager.active kind streamId + (counted kind streamId (s.handlers id)).toNat =
        s.manager.active kind streamId +
          (counted kind streamId {s.handlers id with stage := stage}).toNat) : Balanced t := by
  have inside := balanced.inside id busy
  refine ⟨?_, ?_, ?_⟩
  · intro kind streamId
    have changed := Census.count_update (counted kind streamId) s.handlers inside
      {s.handlers id with stage := stage}
    have moved := counts kind streamId
    rw [balanced.counts kind streamId] at moved
    rw [handlers, accepted]
    omega
  · rw [handlers]
    apply (Function.forall_update_iff s.handlers fun _ handler =>
      ∀ streamId, handler.stage ≠ .leaving streamId false).mpr
    exact ⟨genuine, fun other _ => balanced.genuine other⟩
  · intro other beyond
    rw [accepted] at beyond
    rw [handlers, Function.update_of_ne (by omega)]
    exact balanced.known other beyond

/-- A step of the manager that leaves the counters. -/
theorem Balanced.manage (balanced : Balanced s) (active : t.manager.active = s.manager.active)
    (handlers : t.handlers = s.handlers) (accepted : t.accepted = s.accepted) : Balanced t := by
  refine ⟨?_, ?_, ?_⟩
  · rw [active, handlers, accepted]
    exact balanced.counts
  · rw [handlers]
    exact balanced.genuine
  · rw [handlers, accepted]
    exact balanced.known

theorem counted_stage (kind : Kind) (streamId : Int) (handler : Handler) (stage : Stage) :
    counted kind streamId {handler with stage := stage} =
      (handler.kind = kind && stage.counted = some streamId) := rfl

theorem Balanced.accept (balanced : Balanced s) (kind : Kind) (cfg : Config) :
    Balanced (step cfg s (.accept kind)) := by
  have beyond {id : Nat} (after : s.accepted + 1 ≤ id) : id ≠ s.accepted := by omega
  refine ⟨?_, ?_, ?_⟩
  · intro other streamId
    simp only [step]
    rw [Census.count_push, balanced.counts]
    simp [counted, Stage.counted]
  · apply (Function.forall_update_iff s.handlers fun _ handler =>
      ∀ streamId, handler.stage ≠ .leaving streamId false).mpr
    exact ⟨nofun, fun other _ => balanced.genuine other⟩
  · intro id after
    simp only [step]
    rw [Function.update_of_ne (beyond after)]
    exact balanced.known id (Nat.le_of_succ_le after)

theorem Balanced.connect (balanced : Balanced s) {id : Nat} {streamId : Int}
    (stands : (s.handlers id).stage = .connecting streamId) :
    Balanced ((s.setManager (s.manager.onConnect (s.handlers id).kind streamId)).setStage id
      (.live streamId)) := by
  apply balanced.move id (.live streamId)
  · rw [stands]
    nofun
  · nofun
  · rfl
  · rfl
  · intro kind other
    have before : counted kind other (s.handlers id) = false := by
      simp [counted, stands, Stage.counted]
    rw [before, counted_stage]
    simp only [State.setStage, State.setManager, OnDemandManager.onConnect, Stage.counted,
      Option.some.injEq]
    by_cases same : kind = (s.handlers id).kind ∧ other = streamId
    · obtain ⟨rfl, rfl⟩ := same
      rw [OnDemandManager.setActive_self]
      simp
    · rw [OnDemandManager.setActive_other same]
      have apart : ((s.handlers id).kind = kind && streamId = other) = false := by
        rw [Bool.and_eq_false_iff]
        by_cases eq : (s.handlers id).kind = kind
        · exact Or.inr (decide_eq_false fun eq' => same ⟨eq.symm, eq'.symm⟩)
        · exact Or.inl (decide_eq_false eq)
      rw [apart]
      simp

theorem Balanced.disconnect (balanced : Balanced s) {id : Nat} {streamId : Int}
    (stands : (s.handlers id).stage = .leaving streamId true) (cfg : Config) :
    Balanced (step cfg s (.disconnect id)) := by
  have inside := balanced.inside id (by rw [stands]; nofun)
  have here : counted (s.handlers id).kind streamId (s.handlers id) = true := by
    simp [counted, stands, Stage.counted]
  have positive : 0 < s.manager.active (s.handlers id).kind streamId := by
    rw [balanced.counts]
    by_contra nobody
    have zero := Census.count_eq_zero.mp (Nat.eq_zero_of_not_pos nobody) id inside
    rw [here] at zero
    cases zero
  simp only [step, stands, if_true]
  apply balanced.move id .finished
  · rw [stands]
    nofun
  · nofun
  · rfl
  · rfl
  · intro kind other
    have after : counted kind other ⟨(s.handlers id).kind, .finished⟩ = false := by
      simp [counted, Stage.counted]
    rw [after]
    simp only [State.setStage, State.setManager, OnDemandManager.onDisconnect,
      OnDemandManager.maybeSchedule_active]
    by_cases same : kind = (s.handlers id).kind ∧ other = streamId
    · obtain ⟨rfl, rfl⟩ := same
      rw [OnDemandManager.setActive_self, here, Bool.toNat_true, Bool.toNat_false]
      omega
    · rw [OnDemandManager.setActive_other same]
      have apart : counted kind other (s.handlers id) = false := by
        rw [counted, stands, Bool.and_eq_false_iff]
        by_cases eq : (s.handlers id).kind = kind
        · refine Or.inr (decide_eq_false fun eq' => same ⟨eq.symm, ?_⟩)
          exact (Option.some.inj eq').symm
        · exact Or.inl (decide_eq_false eq)
      rw [apart]

/-- A handler goes on outside the counters. -/
theorem Balanced.setStage (balanced : Balanced s) {id : Nat} {before stage : Stage}
    (stands : (s.handlers id).stage = before) (busy : before ≠ .finished)
    (genuine : ∀ streamId, stage ≠ .leaving streamId false) (same : stage.counted = before.counted) :
    Balanced (s.setStage id stage) := by
  have busy : (s.handlers id).stage ≠ .finished := by
    rw [stands]
    exact busy
  apply balanced.move (t := s.setStage id stage) id stage busy genuine rfl rfl
  intro kind streamId
  have kept : counted kind streamId ⟨(s.handlers id).kind, stage⟩ =
      counted kind streamId (s.handlers id) := by
    simp only [counted, same, stands]
  rw [kept]
  rfl

theorem init_balanced : Balanced .init :=
  ⟨fun _ _ => rfl, fun _ _ => nofun, fun _ _ => rfl⟩

theorem step_balanced (cfg : Config) (input : Input) (balanced : Balanced s)
    (quiet : Quiet cfg s input) : Balanced (step cfg s input) := by
  cases input with
  | accept kind => exact balanced.accept kind cfg
  | fail id =>
    simp only [step]
    split
    · rename_i stands
      exact balanced.setStage stands nofun nofun rfl
    · exact balanced
  | handshake id l1 l2 =>
    simp only [step]
    split
    · rename_i stands
      cases said : verdict cfg.unicode cfg.token (s.handlers id).kind l1 l2 with
      | passed streamId => exact balanced.setStage stands nofun nofun rfl
      | refused error streamId =>
        simp only [State.judge]
        rw [if_neg (Int.not_lt.mpr (quiet error streamId said))]
        exact balanced.setStage stands nofun nofun rfl
    · exact balanced
  | connect id =>
    simp only [step]
    split
    · rename_i stands
      exact balanced.connect stands
    · exact balanced
  | finish id =>
    simp only [step]
    split
    · rename_i stands
      exact balanced.setStage stands nofun nofun rfl
    · exact balanced
  | disconnect id =>
    cases stands : (s.handlers id).stage with
    | leaving streamId authed =>
      cases authed with
      | false => exact absurd stands (balanced.genuine id streamId)
      | true => exact balanced.disconnect stands cfg
    | reading | connecting | live | finished =>
      simp only [step, stands]
      exact balanced
  | expire i =>
    simp only [step]
    split
    · exact balanced.manage rfl rfl rfl
    · exact balanced
  | fire i =>
    simp only [step]
    split
    · exact balanced.manage (OnDemandManager.fire_active i s.manager) rfl rfl
    · exact balanced
  | stopSoft i =>
    simp only [step]
    split
    · exact balanced.manage rfl rfl rfl
    · exact balanced
  | tick => exact balanced.manage rfl rfl rfl

/-- The counters are the numbers of the connections that have passed, also while a handler is in
on_*_disconnect; and a handler that has not passed leaves the manager alone. -/
structure Accounted (cfg : Config) (inputs : List Input) : Prop where
  counts : Settled (run cfg inputs) → ∀ kind streamId,
    (run cfg inputs).manager.active kind streamId =
      Census.count (passed kind streamId) (run cfg inputs).handlers (run cfg inputs).accepted
  harmless : ∀ past input later, inputs = past ++ input :: later →
    ∀ id, input.handler (run cfg past) = some id →
      ((run cfg past).handlers id).stage.passed = none →
        (step cfg (run cfg past) input).manager = (run cfg past).manager

theorem run_balanced (cfg : Config) (inputs : List Input)
    (always : Run.Always (step cfg) .init (Quiet cfg) inputs) : Balanced (run cfg inputs) :=
  Run.history_while (step cfg) .init (Quiet cfg) (fun _ s => Balanced s) init_balanced
    (fun _ input balanced quiet => step_balanced cfg input balanced quiet) inputs always

theorem step_harmless (cfg : Config) (balanced : Balanced s) {input : Input} {id : Nat}
    (mine : input.handler s = some id) (outside : (s.handlers id).stage.passed = none) :
    (step cfg s input).manager = s.manager := by
  cases input with
  | accept kind => rfl
  | fail other | finish other =>
    simp only [step]
    split <;> rfl
  | handshake other l1 l2 =>
    simp only [step]
    split
    · simp only [State.judge]
      split
      · rfl
      · split <;> rfl
    · rfl
  | connect other =>
    obtain rfl := Option.some.inj mine
    simp only [step]
    split
    · rename_i stands
      rw [stands] at outside
      cases outside
    · rfl
  | disconnect other =>
    obtain rfl := Option.some.inj mine
    cases stands : (s.handlers other).stage with
    | leaving streamId authed =>
      cases authed with
      | false => exact absurd stands (balanced.genuine other streamId)
      | true =>
        rw [stands] at outside
        cases outside
    | reading | connecting | live | finished => simp only [step, stands]
  | expire | fire | stopSoft | tick => cases mine

theorem run_accounted (cfg : Config) (inputs : List Input)
    (always : Run.Always (step cfg) .init (Quiet cfg) inputs) : Accounted cfg inputs := by
  have balanced := run_balanced cfg inputs always
  refine ⟨?_, ?_⟩
  · intro settled kind streamId
    have same : passed kind streamId ∘ (run cfg inputs).handlers =
        counted kind streamId ∘ (run cfg inputs).handlers := by
      funext id
      simp only [Function.comp, passed, counted]
      cases stands : ((run cfg inputs).handlers id).stage with
      | connecting streamId => exact absurd stands (settled id streamId)
      | leaving streamId passed => cases passed <;> rfl
      | reading | live | finished => rfl
    rw [balanced.counts]
    exact Census.count_comp same.symm _
  · rintro past input later rfl id mine outside
    apply step_harmless cfg (run_balanced cfg past ?_) mine outside
    exact Run.always_before (step cfg) .init always

theorem quiet_handshake {cfg : Config} {id : Nat} {l1 l2 : PyText.Text} {error : Refusal}
    {streamId : Int}
    (said : verdict cfg.unicode cfg.token (s.handlers id).kind l1 l2 = .refused error streamId) :
    streamId ≤ 0 ↔ Quiet cfg s (.handshake id l1 l2) := by
  constructor
  · intro nobody error' streamId' same
    rw [said] at same
    cases same
    exact nobody
  · intro quiet
    exact quiet error streamId said

instance (cfg : Config) (s : State) : (input : Input) → Decidable (Quiet cfg s input)
  | .handshake id l1 l2 =>
    match said : verdict cfg.unicode cfg.token (s.handlers id).kind l1 l2 with
    | .passed _ => isTrue fun error streamId same => by rw [said] at same; cases same
    | .refused _ _ => decidable_of_iff _ (quiet_handshake said)
  | .accept _ | .fail _ | .connect _ | .finish _ | .disconnect _ | .expire _ | .fire _
  | .stopSoft _ | .tick => isTrue trivial

/-- The token "t", and five minutes. -/
def sampleConfig : Config := ⟨PyText.ascii, ['t'], 300⟩

def rightLine : PyText.Text := authPrefix ++ ['t']

def wrongLine : PyText.Text := authPrefix ++ ['x']

def subLine : PyText.Text := subPrefix ++ ['1']

/-- A viewer of stream 1. -/
def viewerInputs : List Input := [.accept .video, .handshake 0 rightLine subLine, .connect 0]

theorem run_accounted_viewer : Accounted sampleConfig viewerInputs :=
  run_accounted sampleConfig viewerInputs (by decide)

/-- Then somebody names the stream without the token. -/
def intruderInputs : List Input :=
  viewerInputs ++ [.accept .video, .handshake 1 wrongLine subLine, .disconnect 1]

theorem not_accounted_intruder : ¬Accounted sampleConfig intruderInputs := by
  intro accounted
  have settled : Settled (run sampleConfig intruderInputs) := by
    rintro (- | - | id) streamId stands
    · cases stands
    · cases stands
    · cases stands
  have counts := accounted.counts settled .video 1
  exact absurd counts (by decide)

end StreamRelay.Link
