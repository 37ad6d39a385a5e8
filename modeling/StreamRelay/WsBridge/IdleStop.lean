import StreamRelay.WsBridge.Server

/-! When the bridge stops the containers: the one timer and the one activeWs against all sessions. -/
namespace StreamRelay.WsBridge

/-- A session has been opened after the last call of stopContainers. -/
def owed (events : List Event) : Bool :=
  events.foldl (fun before event =>
    match event with
    | .opened _ _ _ => true
    | .stopContainers => false
    | _ => before) false

def stopRequests (events : List Event) : List Text :=
  events.filterMap fun
    | .stopRequest name => some name
    | _ => none

/-- The step issues a stop request. -/
def RequestsStop (s next : State) : Prop := stopRequests next.events ≠ stopRequests s.events

/-- The timer is pending when the last open session has closed and nobody has told the containers. -/
def TimerHeld (cfg : Config) (s : State) : Prop :=
  cfg.ondemandEnable = true → owed s.events = true → (∀ id, s.stages id ≠ .live) →
    s.idleStopTimer = .pending

/-- A connection would be accepted. -/
def State.admits (cfg : Config) (ip tok : Text) (waits : Waits) (s : State) : Bool :=
  let asked := (s.wait waits.ban).isBanned ip
  !asked.1 && ((asked.2.wait waits.valid).isTokenValid cfg tok ip).1

/-- Whoever goes on closes the active session. -/
def State.rotates (id : Nat) (s : State) : Bool :=
  match s.stages id with
  | .answered .http issued => issued.ok
  | _ => false

/-- When activeWs is cleared nobody else's session is open, and no session opens while a call of
stopContainers has still containers to stop. -/
def Orderly (cfg : Config) (s : State) : Input → Prop
  | .connection _ ip tok _ waits => s.admits cfg ip tok waits = true → ∀ rest ∈ s.stopping, rest = []
  | .close id => s.activeWs = some id → ∀ other, s.stages other = .live → other = id
  | .resume id => s.rotates id = true → ∀ other, s.stages other = .live → s.activeWs = some other
  | _ => True

def Event.aside : Event → Bool
  | .opened _ _ _ | .stopContainers | .stopRequest _ => false
  | _ => true

/-- A step that is not about sessions. -/
structure Aside (s next : State) : Prop where
  active : next.activeWs = s.activeWs
  timer : next.idleStopTimer = s.idleStopTimer
  live : ∀ id, next.stages id = .live ↔ s.stages id = .live
  stopping : next.stopping = s.stopping
  events : ∃ new, next.events = s.events ++ new ∧ ∀ event ∈ new, event.aside = true

/-- The active session is open, and the timer is held. -/
structure Tended (cfg : Config) (s : State) : Prop where
  active : ∀ id, s.activeWs = some id → s.stages id = .live
  timer : TimerHeld cfg s

/-- In an orderly run there is an active session when there is any, and none while a call of
stopContainers goes on. -/
structure Settled (s : State) : Prop where
  alone : s.activeWs = none → ∀ id, s.stages id ≠ .live
  loops : ∀ rest ∈ s.stopping, rest ≠ [] → ∀ id, s.stages id ≠ .live

variable {cfg : Config} {s next last : State}

theorem owed_append (events new : List Event) (aside : ∀ event ∈ new, event.aside = true) :
    owed (events ++ new) = owed events := by
  induction new using List.reverseRecOn with
  | nil => rw [List.append_nil]
  | append_singleton new event ih =>
    have before := ih fun other member => aside other (List.mem_append_left _ member)
    have here := aside event (by simp)
    rw [← List.append_assoc, owed, List.foldl_append, ← owed, before]
    cases event <;> first | rfl | cases here

theorem stopRequests_append (events new : List Event) (aside : ∀ event ∈ new, event.aside = true) :
    stopRequests (events ++ new) = stopRequests events := by
  rw [stopRequests, List.filterMap_append, ← stopRequests]
  have none : new.filterMap (fun | .stopRequest name => some name | _ => none) = [] := by
    apply List.filterMap_eq_nil_iff.mpr
    intro event member
    have here := aside event member
    cases event <;> first | rfl | cases here
  rw [none, List.append_nil]

theorem Aside.refl (s : State) : Aside s s :=
  ⟨rfl, rfl, fun _ => Iff.rfl, rfl, [], (List.append_nil _).symm, by simp⟩

theorem Aside.trans (first : Aside s next) (second : Aside next last) : Aside s last := by
  obtain ⟨new, events, aside⟩ := first.events
  obtain ⟨newer, events', aside'⟩ := second.events
  refine ⟨second.active.trans first.active, second.timer.trans first.timer,
    fun id => (second.live id).trans (first.live id), second.stopping.trans first.stopping,
    new ++ newer, by rw [events', events, List.append_assoc], ?_⟩
  intro event member
  rcases List.mem_append.mp member with early | late
  · exact aside event early
  · exact aside' event late

theorem Aside.owed (aside : Aside s next) : owed next.events = owed s.events := by
  obtain ⟨new, events, each⟩ := aside.events
  rw [events, owed_append _ _ each]

theorem Aside.requests (aside : Aside s next) : ¬ RequestsStop s next := by
  obtain ⟨new, events, each⟩ := aside.events
  rw [RequestsStop, events, stopRequests_append _ _ each]
  exact fun differs => differs rfl

theorem Aside.tended (aside : Aside s next) (tended : Tended cfg s) : Tended cfg next where
  active id now := (aside.live id).mpr (tended.active id (aside.active ▸ now))
  timer enabled opened nobody := by
    rw [aside.owed] at opened
    rw [aside.timer]
    exact tended.timer enabled opened fun id live => nobody id ((aside.live id).mpr live)

theorem Aside.settled (aside : Aside s next) (settled : Settled s) : Settled next where
  alone now id live := settled.alone (aside.active ▸ now) id ((aside.live id).mp live)
  loops rest member more id live :=
    settled.loops rest (aside.stopping ▸ member) more id ((aside.live id).mp live)

theorem Aside.of_eq (active : next.activeWs = s.activeWs)
    (timer : next.idleStopTimer = s.idleStopTimer) (stages : next.stages = s.stages)
    (stopping : next.stopping = s.stopping) (events : next.events = s.events) : Aside s next :=
  ⟨active, timer, fun id => by rw [stages], stopping, [], by rw [events, List.append_nil], by simp⟩

theorem Aside.of_log {event : Event} (active : next.activeWs = s.activeWs)
    (timer : next.idleStopTimer = s.idleStopTimer) (stages : next.stages = s.stages)
    (stopping : next.stopping = s.stopping) (events : next.events = s.events ++ [event])
    (here : event.aside = true) : Aside s next :=
  ⟨active, timer, fun id => by rw [stages], stopping, [event], events,
    fun _ member => List.mem_singleton.mp member ▸ here⟩

theorem answered_not_live (caller : Caller) (issued : Issued) :
    Stage.answered caller issued ≠ .live := by
  intro same
  cases same

theorem pushing_not_live (caller : Caller) (push : Push) : Stage.pushing caller push ≠ .live := by
  intro same
  cases same

section Handlers

variable (cfg) (s)

theorem aside_wait (gone : Nat) : Aside s (s.wait gone) := .of_eq rfl rfl rfl rfl rfl

theorem aside_setStage {id : Nat} {stage : Stage} (before : s.stages id ≠ .live)
    (after : stage ≠ .live) : Aside s (s.setStage id stage) := by
  refine ⟨rfl, rfl, fun other => ?_, rfl, [], (List.append_nil _).symm, by simp⟩
  by_cases same : other = id
  · subst same
    simp only [State.setStage, Function.update_self]
    exact ⟨fun live => absurd live after, fun live => absurd live before⟩
  · simp only [State.setStage, Function.update_of_ne same]

/-- The tokens and the clock are no part of it. -/
theorem aside_tokens {id : Nat} {stage : Stage} (now : Nat) (tokens : Tokens)
    (before : s.stages id ≠ .live) (after : stage ≠ .live) :
    Aside s ({s with now := now, tokens := tokens}.setStage id stage) := by
  have first : Aside s {s with now := now, tokens := tokens} := .of_eq rfl rfl rfl rfl rfl
  exact first.trans (aside_setStage {s with now := now, tokens := tokens} before after)

theorem aside_isBanned (ip : Text) : Aside s (s.isBanned ip).2 := by
  rw [State.isBanned]
  split
  · exact .refl s
  · exact .of_eq rfl rfl rfl rfl rfl

theorem aside_isTokenValid (tok ip : Text) : Aside s (s.isTokenValid cfg tok ip).2 :=
  .of_log rfl rfl rfl rfl rfl rfl

theorem aside_issue {id : Nat} (before : s.stages id ≠ .live) (caller : Caller) (ip : Text)
    (drawn lookup : Nat) : Aside s (s.issue cfg id caller ip drawn lookup) := by
  rw [State.issue]
  split
  · exact aside_tokens s _ _ before (answered_not_live _ _)
  · exact aside_tokens s _ _ before (pushing_not_live _ _)

theorem aside_noteBadToken (ip : Text) : Aside s (s.noteBadToken cfg ip) := by
  rw [State.noteBadToken]
  dsimp only
  split
  · exact .of_log rfl rfl rfl rfl rfl rfl
  · exact .of_eq rfl rfl rfl rfl rfl

theorem aside_reject {id : Nat} (before : s.stages id ≠ .live) (ip tok : Text) (drawn lookup : Nat) :
    Aside s (s.reject cfg id ip tok drawn lookup) := by
  have finish : ∀ t : State, t.stages id ≠ .live → Aside t (t.setStage id .finished) :=
    fun t still => aside_setStage t still (by decide)
  obtain ⟨-, -, after⟩ | ⟨-, -, after⟩ | ⟨-, after⟩ :=
    State.reject_cases cfg id ip tok drawn lookup s
  · rw [after]
    exact aside_issue cfg s before .ws ip drawn lookup
  · rw [after]
    have noted := aside_noteBadToken cfg s ip
    exact noted.trans (finish _ fun live => before ((noted.live id).mp live))
  · rw [after]
    exact finish s before

theorem aside_token {id : Nat} (before : s.stages id ≠ .live) (secret ip : Text) (drawn : Nat)
    (waits : Waits) : Aside s (s.token cfg id secret ip drawn waits) := by
  rw [State.token]
  split
  · exact aside_setStage s before (by decide)
  · split
    · exact aside_setStage s before (by decide)
    · exact (aside_wait s _).trans (aside_issue cfg (s.wait waits.start) before .http ip drawn _)

theorem aside_webhook (id : Nat) (ok : Bool) : Aside s (s.webhook id ok) := by
  rw [State.webhook]
  split
  · rename_i caller push stage
    have before : s.stages id ≠ .live := stage ▸ pushing_not_live caller push
    have answered : Aside s ({s with tokens := (s.tokens.pushed push ok).2}.setStage id
        (.answered caller (s.tokens.pushed push ok).1)) :=
      aside_tokens s _ _ before (answered_not_live _ _)
    dsimp only
    split
    · exact answered.trans (.of_log rfl rfl rfl rfl rfl rfl)
    · exact answered
  · exact .refl s

theorem aside_startDone (i : Nat) : Aside s (s.startDone i) := by
  rw [State.startDone]
  split
  · exact .of_log rfl rfl rfl rfl rfl rfl
  · exact .refl s

theorem aside_unban (secret : Text) (target : Option Text) : Aside s (s.unban cfg secret target) := by
  rw [State.unban.eq_def]
  split
  · exact .refl s
  · split
    · exact .of_eq rfl rfl rfl rfl rfl
    · split
      · exact .refl s
      · exact .of_eq rfl rfl rfl rfl rfl

end Handlers

theorem owed_snoc_stop (events : List Event) : owed (events ++ [.stopContainers]) = false := by
  rw [owed, List.foldl_append]
  rfl

theorem owed_snoc_request (events : List Event) (name : Text) :
    owed (events ++ [.stopRequest name]) = owed events := by
  rw [owed, List.foldl_append]
  rfl

/-- What an acceptance leaves: the new session is open and active, and no timer is. -/
theorem accept_frame (cfg : Config) (id : Nat) (ip : Text) (s : State) :
    let after := s.accept cfg id ip
    after.activeWs = some id ∧ after.stages id = .live ∧ after.stopping = s.stopping ∧
      stopRequests after.events = stopRequests s.events := by
  intro after
  have replaced : (if cfg.singleSession ∧ s.activeWs ≠ some id then s.closeActive else s).stopping =
      s.stopping ∧ (if cfg.singleSession ∧ s.activeWs ≠ some id then s.closeActive else s).events =
      s.events := by
    rw [State.closeActive]
    split
    · split <;> exact ⟨rfl, rfl⟩
    · exact ⟨rfl, rfl⟩
  simp only [after, State.accept]
  generalize (if cfg.singleSession ∧ s.activeWs ≠ some id then s.closeActive else s) = old at replaced ⊢
  obtain ⟨stopping, events⟩ := replaced
  rw [← stopping, ← events]
  have running : ∀ t : State, (t.ensureContainersRunning cfg).activeWs = t.activeWs ∧
      (t.ensureContainersRunning cfg).stopping = t.stopping ∧
      stopRequests (t.ensureContainersRunning cfg).events = stopRequests t.events := by
    intro t
    rw [State.ensureContainersRunning]
    split
    · exact ⟨rfl, rfl, rfl⟩
    · split
      · exact ⟨rfl, rfl, rfl⟩
      · exact ⟨rfl, rfl, stopRequests_append _ [_] (by simp [Event.aside])⟩
  obtain ⟨active, loops, requests⟩ := running {old with activeWs := some id, idleStopTimer := .none}
  generalize State.ensureContainersRunning cfg _ = ready at active loops requests ⊢
  have opened : stopRequests (ready.events ++ [.opened id ip ready.now]) = stopRequests ready.events := by
    rw [stopRequests, List.filterMap_append]
    exact List.append_nil _
  split
  · exact ⟨active, Function.update_self .., loops, opened.trans requests⟩
  · exact ⟨active, Function.update_self .., loops, opened.trans requests⟩

theorem tended_accept (id : Nat) (ip : Text) : Tended cfg (s.accept cfg id ip) := by
  obtain ⟨active, live, -, -⟩ := accept_frame cfg id ip s
  refine ⟨fun other now => ?_, fun _ _ nobody => absurd live (nobody id)⟩
  rw [active] at now
  exact Option.some.inj now ▸ live

theorem settled_accept (id : Nat) (ip : Text) (idle : ∀ rest ∈ s.stopping, rest = []) :
    Settled (s.accept cfg id ip) := by
  obtain ⟨active, -, stopping, -⟩ := accept_frame cfg id ip s
  refine ⟨fun none => ?_, fun rest member more => ?_⟩
  · rw [active] at none
    cases none
  · rw [stopping] at member
    exact absurd (idle rest member) more

/-- The timer's callback either finds an active session, or calls stopContainers. -/
theorem idleStop_cases (cfg : Config) (s : State) :
    (∃ id, s.activeWs = some id ∧ s.idleStop cfg = {s with idleStopTimer := .fired}) ∨
      (s.activeWs = none ∧ (s.idleStop cfg).activeWs = none ∧ (s.idleStop cfg).stages = s.stages ∧
        owed (s.idleStop cfg).events = false) := by
  cases active : s.activeWs with
  | some id => exact Or.inl ⟨id, rfl, by simp [State.idleStop, active]⟩
  | none =>
    right
    simp only [State.idleStop, active, Option.isSome_none, Bool.false_eq_true, if_false,
      State.stopContainers]
    split
    · exact ⟨trivial, rfl, rfl, owed_snoc_stop s.events⟩
    · split
      · exact ⟨trivial, rfl, rfl, owed_snoc_stop s.events⟩
      · exact ⟨trivial, rfl, rfl, (owed_snoc_request _ _).trans (owed_snoc_stop s.events)⟩

theorem tended_idleStop (tended : Tended cfg s) : Tended cfg (s.idleStop cfg) := by
  obtain ⟨id, active, after⟩ | ⟨-, none, stages, paid⟩ := idleStop_cases cfg s
  · rw [after]
    exact ⟨tended.active, fun _ _ nobody => absurd (tended.active id active) (nobody id)⟩
  · refine ⟨fun id now => ?_, fun _ opened => ?_⟩
    · rw [none] at now
      cases now
    · rw [paid] at opened
      cases opened

theorem settled_idleStop (settled : Settled s) : Settled (s.idleStop cfg) := by
  obtain ⟨id, active, after⟩ | ⟨was, none, stages, -⟩ := idleStop_cases cfg s
  · rw [after]
    exact ⟨settled.alone, settled.loops⟩
  · have nobody := settled.alone was
    refine ⟨fun _ id => ?_, fun _ _ _ id => ?_⟩
    · rw [stages]
      exact nobody id
    · rw [stages]
      exact nobody id

/-- A session that ends: one is active then only if it was, and it is not the one that ended. -/
structure Ended (s next : State) (id : Nat) : Prop where
  active : next.activeWs = none ∨ next.activeWs = s.activeWs ∧ s.activeWs ≠ some id
  cleared : next.activeWs = none → s.activeWs = none ∨ s.activeWs = some id
  gone : next.stages id ≠ .live
  stages : ∀ other, other ≠ id → next.stages other = s.stages other
  stopping : next.stopping = s.stopping
  events : next.events = s.events

theorem Ended.requests {id : Nat} (ended : Ended s next id) : ¬ RequestsStop s next := by
  rw [RequestsStop, ended.events]
  exact fun differs => differs rfl

theorem Ended.live {id other : Nat} (ended : Ended s next id) (live : next.stages other = .live) :
    other ≠ id ∧ s.stages other = .live := by
  have apart : other ≠ id := by
    rintro rfl
    exact ended.gone live
  exact ⟨apart, (ended.stages other apart).symm.trans live⟩

/-- With the timer pending afterwards nothing more has to be said of it. -/
theorem Ended.tended {id : Nat} (ended : Ended s next id) (tended : Tended cfg s)
    (held : TimerHeld cfg next) : Tended cfg next := by
  refine ⟨fun other now => ?_, held⟩
  obtain none | ⟨still, apart⟩ := ended.active
  · rw [none] at now
    cases now
  · rw [still] at now
    have other_apart : other ≠ id := by
      rintro rfl
      exact apart now
    rw [ended.stages other other_apart]
    exact tended.active other now

theorem Ended.settled {id : Nat} (ended : Ended s next id) (settled : Settled s)
    (last : s.activeWs = some id → ∀ other, s.stages other = .live → other = id) :
    Settled next := by
  refine ⟨fun none other live => ?_, fun rest member more other live => ?_⟩
  · obtain ⟨apart, live⟩ := ended.live live
    rcases ended.cleared none with was | active
    · exact settled.alone was other live
    · exact apart (last active other live)
  · rw [ended.stopping] at member
    exact settled.loops rest member more other (ended.live live).2

theorem timerHeld_scheduleIdleStop (cfg : Config) (s : State) :
    TimerHeld cfg (s.scheduleIdleStop cfg) := by
  intro enabled _ _
  rw [State.scheduleIdleStop, if_neg (by rw [enabled]; exact Bool.false_ne_true)]

theorem Ended.scheduleIdleStop {id : Nat} (ended : Ended s next id) :
    Ended s (next.scheduleIdleStop cfg) id := by
  rw [State.scheduleIdleStop]
  split
  · exact ended
  · exact ⟨ended.active, ended.cleared, ended.gone, ended.stages, ended.stopping, ended.events⟩

/-- The close event of a connection that was accepted, and nothing for any other. -/
theorem close_cases (cfg : Config) (s : State) (id : Nat) :
    s.close cfg id = s ∨
      (Ended s (s.close cfg id) id ∧ TimerHeld cfg (s.close cfg id)) := by
  rw [State.close]
  split
  · right
    refine ⟨Ended.scheduleIdleStop ?_, timerHeld_scheduleIdleStop cfg _⟩
    have gone : Function.update s.stages id Stage.finished id ≠ .live := by
      rw [Function.update_self]
      decide
    have stages : ∀ other, other ≠ id →
        Function.update s.stages id Stage.finished other = s.stages other :=
      fun other apart => Function.update_of_ne apart ..
    split
    · rename_i active
      exact ⟨Or.inl rfl, fun _ => Or.inr active, gone, stages, rfl, rfl⟩
    · rename_i other
      exact ⟨Or.inr ⟨rfl, other⟩, Or.inl, gone, stages, rfl, rfl⟩
  · exact Or.inl rfl

theorem closeActive_ended {id : Nat} (active : s.activeWs = some id) : Ended s s.closeActive id := by
  rw [State.closeActive, active]
  refine ⟨Or.inl rfl, fun _ => Or.inr active, ?_, fun other apart => Function.update_of_ne apart ..,
    rfl, rfl⟩
  simp only [State.setStage, Function.update_self]
  decide

/-- Whoever goes on only tells a result, or closes the active session. -/
theorem resume_cases (cfg : Config) (s : State) (id : Nat) :
    Aside s (s.resume cfg id) ∨
      (s.rotates id = true ∧ Aside s (s.setStage id .finished) ∧
        s.resume cfg id = (s.setStage id .finished).closeActive.scheduleIdleStop cfg) := by
  rw [State.resume, State.rotates]
  cases stage : s.stages id with
  | answered caller issued =>
    have before : s.stages id ≠ .live := stage ▸ answered_not_live caller issued
    have aside := aside_setStage s before (by decide : Stage.finished ≠ .live)
    cases caller with
    | ws => exact Or.inl aside
    | http =>
      cases issued : issued.ok with
      | true => exact Or.inr ⟨issued, aside, if_pos issued⟩
      | false =>
        simp only [issued, Bool.false_eq_true, if_false]
        exact Or.inl aside
  | _ => exact Or.inl (.refl s)

theorem closeActive_none (s : State) : s.closeActive.activeWs = none := by
  rw [State.closeActive]
  split
  · assumption
  · rfl

theorem tended_scheduleIdleStop (none : s.activeWs = none) : Tended cfg (s.scheduleIdleStop cfg) := by
  refine ⟨fun id now => ?_, timerHeld_scheduleIdleStop cfg s⟩
  have still : (s.scheduleIdleStop cfg).activeWs = s.activeWs := by
    rw [State.scheduleIdleStop]
    split <;> rfl
  rw [still, none] at now
  cases now

theorem settled_scheduleIdleStop (settled : Settled s) : Settled (s.scheduleIdleStop cfg) := by
  rw [State.scheduleIdleStop]
  split
  · exact settled
  · exact ⟨settled.alone, settled.loops⟩

/-- A connection is turned away, or it is accepted and was admitted. -/
theorem connection_aside (cfg : Config) {id : Nat} (before : s.stages id ≠ .live) (ip tok : Text)
    (drawn : Nat) (waits : Waits) :
    Aside s (s.connection cfg id ip tok drawn waits) ∨
      (s.admits cfg ip tok waits = true ∧ ∃ t, Aside s t ∧
        s.connection cfg id ip tok drawn waits = t.accept cfg id ip) := by
  have asked := (aside_wait s waits.ban).trans (aside_isBanned (s.wait waits.ban) ip)
  obtain ⟨-, after⟩ | ⟨allowed, result⟩ := State.connection_cases cfg id ip tok drawn waits s
  · left
    rw [after]
    exact asked.trans (aside_setStage _ (fun live => before ((asked.live id).mp live)) (by decide))
  · have valid := (asked.trans (aside_wait _ waits.valid)).trans (aside_isTokenValid cfg _ tok ip)
    obtain ⟨right, after⟩ | ⟨-, after⟩ := result
    · right
      refine ⟨?_, _, valid, after⟩
      simp only [State.admits, allowed, right, Bool.not_false, Bool.and_true]
    · left
      rw [after]
      have start := valid.trans (aside_wait _ waits.start)
      exact start.trans (aside_reject cfg _ (fun live => before ((start.live id).mp live)) ip tok drawn _)

theorem absent_not_live {id : Nat} (absent : s.stages id = .absent) : s.stages id ≠ .live := by
  rw [absent]
  decide

/-- What is done first when stopDone goes on with a loop. -/
theorem stopDone_cases (s : State) (i : Nat) :
    s.stopDone i = s ∨ ∃ name rest, name :: rest ∈ s.stopping ∧
      s.stopDone i = {s.log (.stopRequest name) with stopping := s.stopping.set i rest} := by
  rw [State.stopDone]
  split
  · rename_i name rest found
    exact Or.inr ⟨name, rest, List.mem_of_getElem? found, rfl⟩
  · exact Or.inl rfl

theorem tended_step (tended : Tended cfg s) (input : Input) : Tended cfg (step cfg s input) := by
  cases input with
  | connection id ip tok drawn waits =>
    simp only [step]
    split
    · rename_i absent
      obtain aside | ⟨-, t, -, after⟩ :=
        connection_aside cfg (absent_not_live absent) ip tok drawn waits
      · exact aside.tended tended
      · rw [after]
        exact tended_accept id ip
    · exact tended
  | token id secret ip drawn waits =>
    simp only [step]
    split
    · rename_i absent
      exact (aside_token cfg s (absent_not_live absent) secret ip drawn waits).tended tended
    · exact tended
  | webhook id ok => exact (aside_webhook s id ok).tended tended
  | resume id =>
    obtain aside | ⟨-, aside, after⟩ := resume_cases cfg s id
    · exact aside.tended tended
    · simp only [step, after]
      exact tended_scheduleIdleStop (closeActive_none _)
  | close id =>
    obtain same | ⟨ended, held⟩ := close_cases cfg s id
    · simp only [step, same]
      exact tended
    · exact ended.tended tended held
  | fire =>
    simp only [step]
    split
    · exact tended_idleStop tended
    · exact tended
  | startDone i => exact (aside_startDone s i).tended tended
  | stopDone i =>
    obtain same | ⟨name, rest, -, after⟩ := stopDone_cases s i
    · simp only [step, same]
      exact tended
    · simp only [step, after]
      refine ⟨tended.active, fun enabled opened nobody => tended.timer enabled ?_ nobody⟩
      exact (owed_snoc_request s.events name).symm.trans opened
  | unban secret target => exact (aside_unban cfg s secret target).tended tended

theorem settled_step (settled : Settled s) {input : Input} (orderly : Orderly cfg s input) :
    Settled (step cfg s input) := by
  cases input with
  | connection id ip tok drawn waits =>
    simp only [step]
    split
    · rename_i absent
      obtain aside | ⟨admitted, t, aside, after⟩ :=
        connection_aside cfg (absent_not_live absent) ip tok drawn waits
      · exact aside.settled settled
      · rw [after]
        apply settled_accept
        intro rest member
        exact orderly admitted rest (aside.stopping ▸ member)
    · exact settled
  | token id secret ip drawn waits =>
    simp only [step]
    split
    · rename_i absent
      exact (aside_token cfg s (absent_not_live absent) secret ip drawn waits).settled settled
    · exact settled
  | webhook id ok => exact (aside_webhook s id ok).settled settled
  | resume id =>
    obtain aside | ⟨rotates, aside, after⟩ := resume_cases cfg s id
    · exact aside.settled settled
    · simp only [step, after]
      apply settled_scheduleIdleStop
      have settled := aside.settled settled
      cases active : (s.setStage id .finished).activeWs with
      | none =>
        rw [State.closeActive, active]
        exact settled
      | some ended =>
        apply (closeActive_ended active).settled settled
        intro was other live
        have mine := orderly rotates other ((aside.live other).mp live)
        exact Option.some.inj (mine.symm.trans (aside.active.symm.trans was))
  | close id =>
    obtain same | ⟨ended, -⟩ := close_cases cfg s id
    · simp only [step, same]
      exact settled
    · exact ended.settled settled orderly
  | fire =>
    simp only [step]
    split
    · exact settled_idleStop settled
    · exact settled
  | startDone i => exact (aside_startDone s i).settled settled
  | stopDone i =>
    obtain same | ⟨name, rest, found, after⟩ := stopDone_cases s i
    · simp only [step, same]
      exact settled
    · simp only [step, after]
      refine ⟨settled.alone, fun others member more => ?_⟩
      rcases List.mem_or_eq_of_mem_set member with old | rfl
      · exact settled.loops others old more
      · exact settled.loops _ found (List.cons_ne_nil _ _)
  | unban secret target => exact (aside_unban cfg s secret target).settled settled

/-- A settled server stops containers only for the timer or in a loop, and nobody is there. -/
theorem requests_step (settled : Settled s) (input : Input)
    (requests : RequestsStop s (step cfg s input)) : ∀ id, s.stages id ≠ .live := by
  cases input with
  | connection id ip tok drawn waits =>
    simp only [step] at requests
    split at requests
    · rename_i absent
      obtain aside | ⟨-, t, aside, after⟩ :=
        connection_aside cfg (absent_not_live absent) ip tok drawn waits
      · exact absurd requests aside.requests
      · obtain ⟨-, -, -, none⟩ := accept_frame cfg id ip t
        rw [RequestsStop, after, none] at requests
        exact absurd requests aside.requests
    · exact absurd rfl requests
  | token id secret ip drawn waits =>
    simp only [step] at requests
    split at requests
    · rename_i absent
      exact absurd requests (aside_token cfg s (absent_not_live absent) secret ip drawn waits).requests
    · exact absurd rfl requests
  | webhook id ok => exact absurd requests (aside_webhook s id ok).requests
  | resume id =>
    obtain aside | ⟨-, aside, after⟩ := resume_cases cfg s id
    · exact absurd requests aside.requests
    · have silent : (step cfg s (.resume id)).events = s.events := by
        simp only [step, after, State.scheduleIdleStop, State.closeActive]
        split
        · split <;> rfl
        · split <;> rfl
      rw [RequestsStop, silent] at requests
      exact absurd rfl requests
  | close id =>
    obtain same | ⟨ended, -⟩ := close_cases cfg s id
    · simp only [step, same] at requests
      exact absurd rfl requests
    · exact absurd requests ended.requests
  | fire =>
    simp only [step] at requests
    split at requests
    · obtain ⟨id, -, after⟩ | ⟨none, -⟩ := idleStop_cases cfg s
      · rw [after] at requests
        exact absurd rfl requests
      · exact settled.alone none
    · exact absurd rfl requests
  | startDone i => exact absurd requests (aside_startDone s i).requests
  | stopDone i =>
    obtain same | ⟨name, rest, found, -⟩ := stopDone_cases s i
    · simp only [step, same] at requests
      exact absurd rfl requests
    · exact settled.loops _ found (List.cons_ne_nil _ _)
  | unban secret target => exact absurd requests (aside_unban cfg s secret target).requests

/-- Of the sessions before, one that an acceptance leaves open was not the active one, if there is to
be a single session. -/
theorem accept_others (single : cfg.singleSession = true) {id other : Nat} (ip : Text)
    (apart : other ≠ id) (live : (s.accept cfg id ip).stages other = .live) :
    s.stages other = .live ∧ s.activeWs ≠ some other := by
  have running : ∀ t : State, (t.ensureContainersRunning cfg).stages = t.stages := by
    intro t
    rw [State.ensureContainersRunning]
    split
    · rfl
    · split <;> rfl
  have stages : (s.accept cfg id ip).stages other =
      (if cfg.singleSession ∧ s.activeWs ≠ some id then s.closeActive else s).stages other := by
    rw [State.accept]
    split
    · simp only [State.setStage, State.log, Function.update_of_ne apart, running]
    · simp only [State.setStage, State.log, Function.update_of_ne apart, running]
  rw [stages] at live
  cases active : s.activeWs with
  | none =>
    rw [State.closeActive, active] at live
    refine ⟨?_, fun same => by cases same⟩
    split at live <;> exact live
  | some old =>
    by_cases same : old = id
    · subst same
      rw [active, if_neg (fun closes => closes.2 rfl)] at live
      exact ⟨live, fun this => apart (Option.some.inj this).symm⟩
    · have closes : s.activeWs ≠ some id := by
        rw [active]
        exact fun this => same (Option.some.inj this)
      rw [if_pos ⟨single, closes⟩] at live
      obtain ⟨apart, live⟩ := (closeActive_ended active).live live
      exact ⟨live, fun this => apart (Option.some.inj this).symm⟩

/-- Only the active session is open. -/
def Alone (s : State) : Prop := ∀ id, s.stages id = .live → s.activeWs = some id

theorem Aside.alone (aside : Aside s next) (alone : Alone s) : Alone next := by
  intro id live
  rw [aside.active]
  exact alone id ((aside.live id).mp live)

theorem Ended.alone {id : Nat} (ended : Ended s next id) (alone : Alone s) : Alone next := by
  intro other live
  obtain ⟨apart, live⟩ := ended.live live
  have active := alone other live
  rcases ended.active with none | ⟨still, -⟩
  · rcases ended.cleared none with was | was
    · rw [was] at active
      cases active
    · exact absurd (Option.some.inj (was.symm.trans active)).symm apart
  · exact still.trans active

theorem alone_scheduleIdleStop (alone : Alone s) : Alone (s.scheduleIdleStop cfg) := by
  rw [State.scheduleIdleStop]
  split
  · exact alone
  · exact alone

/-- With SINGLE_SESSION on there is one open session at most. -/
theorem alone_step (single : cfg.singleSession = true) (alone : Alone s) (input : Input) :
    Alone (step cfg s input) := by
  cases input with
  | connection id ip tok drawn waits =>
    simp only [step]
    split
    · rename_i absent
      obtain aside | ⟨-, t, aside, after⟩ :=
        connection_aside cfg (absent_not_live absent) ip tok drawn waits
      · exact aside.alone alone
      · rw [after]
        intro other live
        by_cases same : other = id
        · rw [same]
          exact (accept_frame cfg id ip t).1
        · obtain ⟨live, inactive⟩ := accept_others single ip same live
          exact absurd (aside.alone alone other live) inactive
    · exact alone
  | token id secret ip drawn waits =>
    simp only [step]
    split
    · rename_i absent
      exact (aside_token cfg s (absent_not_live absent) secret ip drawn waits).alone alone
    · exact alone
  | webhook id ok => exact (aside_webhook s id ok).alone alone
  | resume id =>
    obtain aside | ⟨-, aside, after⟩ := resume_cases cfg s id
    · exact aside.alone alone
    · simp only [step, after]
      apply alone_scheduleIdleStop
      cases active : (s.setStage id .finished).activeWs with
      | none =>
        rw [State.closeActive, active]
        exact aside.alone alone
      | some ended => exact (closeActive_ended active).alone (aside.alone alone)
  | close id =>
    obtain same | ⟨ended, -⟩ := close_cases cfg s id
    · simp only [step, same]
      exact alone
    · exact ended.alone alone
  | fire =>
    simp only [step]
    split
    · obtain ⟨id, -, after⟩ | ⟨none, -, stages, -⟩ := idleStop_cases cfg s
      · rw [after]
        exact alone
      · intro id live
        rw [stages] at live
        have active := alone id live
        rw [none] at active
        cases active
    · exact alone
  | startDone i => exact (aside_startDone s i).alone alone
  | stopDone i =>
    obtain same | ⟨name, rest, -, after⟩ := stopDone_cases s i
    · simp only [step, same]
      exact alone
    · simp only [step, after]
      exact alone
  | unban secret target => exact (aside_unban cfg s secret target).alone alone

theorem alone_run (single : cfg.singleSession = true) (now : Nat) (inputs : List Input) :
    Alone (run cfg now inputs) := by
  apply Run.invariant (step cfg) (.start now) Alone
  · intro id live
    cases live
  · exact fun s input alone => alone_step single alone input

/-- No session opens while a call of stopContainers has still containers to stop. -/
def NotOvertaken (cfg : Config) (s : State) : Input → Prop
  | .connection _ ip tok _ waits => s.admits cfg ip tok waits = true → ∀ rest ∈ s.stopping, rest = []
  | _ => True

instance (cfg : Config) (s : State) (input : Input) : Decidable (NotOvertaken cfg s input) := by
  cases input <;> simp only [NotOvertaken] <;> infer_instance

/-- With SINGLE_SESSION on this is all that an orderly run takes. -/
theorem orderly_of_single (single : cfg.singleSession = true) (now : Nat) (inputs : List Input)
    (always : Run.Always (step cfg) (.start now) (NotOvertaken cfg) inputs) :
    Run.Always (step cfg) (.start now) (Orderly cfg) inputs := by
  intro past input rest split
  have alone : Alone (run cfg now past) := alone_run single now past
  have here := always past input rest split
  cases input with
  | connection id ip tok drawn waits => exact here
  | close id =>
    intro active other live
    exact Option.some.inj ((alone other live).symm.trans active)
  | resume id => exact fun _ other live => alone other live
  | _ => trivial

theorem tended_run (cfg : Config) (now : Nat) (inputs : List Input) :
    Tended cfg (run cfg now inputs) := by
  apply Run.invariant (step cfg) (.start now) (Tended cfg)
  · refine ⟨fun id none => ?_, fun _ opened => ?_⟩
    · cases none
    · cases opened
  · exact fun s input tended => tended_step tended input

theorem settled_run (cfg : Config) (now : Nat) (inputs : List Input)
    (orderly : Run.Always (step cfg) (.start now) (Orderly cfg) inputs) :
    Settled (run cfg now inputs) := by
  apply Run.history_while (step cfg) (.start now) (Orderly cfg) (fun _ s => Settled s) _ _ inputs orderly
  · refine ⟨fun _ id live => ?_, fun rest member => ?_⟩
    · cases live
    · cases member
  · exact fun _ input settled allowed => settled_step settled allowed

/-- In every state the timer is held; and in an orderly run no stop request is issued while a session
is open. -/
theorem idle_stop (cfg : Config) (now : Nat) (inputs : List Input) :
    TimerHeld cfg (run cfg now inputs) ∧
      (Run.Always (step cfg) (.start now) (Orderly cfg) inputs →
        ∀ past input rest, inputs = past ++ input :: rest →
          RequestsStop (run cfg now past) (run cfg now (past ++ [input])) →
            ∀ id, (run cfg now past).stages id ≠ .live) := by
  refine ⟨(tended_run cfg now inputs).timer, ?_⟩
  rintro orderly past input rest rfl requests
  have settled := settled_run cfg now past (Run.always_before _ _ orderly)
  have last : run cfg now (past ++ [input]) = step cfg (run cfg now past) input :=
    Run.run_snoc ..
  rw [last] at requests
  exact requests_step settled input requests

/-- Two containers that are started on demand. -/
def ondemandConfig (singleSession : Bool) : Config where
  tokenRequired := true
  tokenIssueOnWsConnect := false
  tokenSingleUse := false
  singleSession := singleSession
  ondemandEnable := true
  ondemandContainers := [['m'], ['w']]
  tokenWebhookUrl := ['u']
  tokenIssueSecret := []
  adminSecret := []
  tokenTtlSec := 300
  tokenPerIpWindowSec := 300
  tokenWebhookRetryMinSec := 5
  badTokenWindowSec := 60
  badTokenMax := 10
  banSec := 600

/-- An address is sent its token, and a first session opens. -/
def firstSession : List Input :=
  [.token 0 [] ['a'] 7 ⟨0, 0, 1, 0⟩, .webhook 0 true, .resume 0,
    .connection 1 ['a'] ['0', '0', '0', '7'] 0 ⟨0, 0, 0, 0⟩]

/-- A second session opens beside it and closes, and a minute later the timer fires. -/
def secondSession : List Input :=
  firstSession ++ [.connection 2 ['a'] ['0', '0', '0', '7'] 0 ⟨0, 0, 0, 0⟩, .close 2]

/-- The session closes and the containers are being stopped when the viewer comes back. -/
def comesBack : List Input :=
  firstSession ++ [.close 1, .fire, .connection 2 ['a'] ['0', '0', '0', '7'] 0 ⟨0, 0, 0, 0⟩]

/-- The session closes, and all containers are stopped before the viewer comes back. -/
def stopsFirst : List Input :=
  firstSession ++ [.close 1, .fire, .stopDone 0, .stopDone 0,
    .connection 2 ['a'] ['0', '0', '0', '7'] 0 ⟨0, 0, 0, 0⟩]

theorem stopsFirst_idle :
    stopRequests (run (ondemandConfig true) 1 stopsFirst).events = [['w'], ['m']] ∧
      TimerHeld (ondemandConfig true) (run (ondemandConfig true) 1 stopsFirst) ∧
      ∀ past input rest, stopsFirst = past ++ input :: rest →
        RequestsStop (run (ondemandConfig true) 1 past) (run (ondemandConfig true) 1 (past ++ [input])) →
          ∀ id, (run (ondemandConfig true) 1 past).stages id ≠ .live := by
  obtain ⟨held, idle⟩ := idle_stop (ondemandConfig true) 1 stopsFirst
  exact ⟨by decide, held, idle (orderly_of_single rfl 1 stopsFirst (by decide))⟩

/-- Containers are stopped under an open session: by a timer that does not know of it, and by a
loop that it has overtaken. -/
theorem stopped_while_open :
    ((run (ondemandConfig false) 1 secondSession).stages 1 = .live ∧
        RequestsStop (run (ondemandConfig false) 1 secondSession)
          (run (ondemandConfig false) 1 (secondSession ++ [.fire]))) ∧
      ((run (ondemandConfig true) 1 comesBack).stages 2 = .live ∧
        RequestsStop (run (ondemandConfig true) 1 comesBack)
          (run (ondemandConfig true) 1 (comesBack ++ [.stopDone 0]))) := by
  refine ⟨⟨by decide, ?_⟩, by decide, ?_⟩
  · show stopRequests _ ≠ stopRequests _
    decide
  · show stopRequests _ ≠ stopRequests _
    decide

end StreamRelay.WsBridge
