import StreamRelay.SlidingWindow
import StreamRelay.WsBridge.Server

/-! How often an address may try a wrong token, whatever else the bridge does in between. -/
namespace StreamRelay.WsBridge

open SlidingWindow

/-- The time of an attempt of the address with a wrong token. -/
def Event.wrong (ip : Text) : Event → Option Nat
  | .checked other tok valid time =>
    if other = ip ∧ tok ≠ [] ∧ valid = false then some time else none
  | _ => none

/-- The time at which an attempt of the address reaches isTokenValid or opens a session. -/
def Event.reached (ip : Text) : Event → Option Nat
  | .checked other _ _ time | .opened _ other time => if other = ip then some time else none
  | _ => none

def Event.bans (ip : Text) : Event → Bool
  | .banned other _ => other = ip
  | _ => false

def wrongs (ip : Text) (events : List Event) : List Nat := events.filterMap (Event.wrong ip)

/-- An unban of the address. -/
def Input.Unbans (cfg : Config) (ip : Text) : Input → Prop
  | .unban secret target => adminAuthed cfg secret = true ∧ (target = none ∨ target = some ip)
  | _ => False

namespace State

variable {s next : State} {cfg : Config} {ip : Text}

def badTimes (ip : Text) (s : State) : List Nat := (s.bans.badTokenTimesByIp ip).getD []

def bannedUntil (ip : Text) (s : State) : Nat := (s.bans.bannedUntilMsByIp ip).getD 0

/-- Nobody at the address is admitted before. -/
def horizon (ip : Text) (s : State) : Nat := max s.now (s.bannedUntil ip)

end State

/-- A step that notes no wrong token of the address, and admits nobody there who is banned. -/
structure Calm (ip : Text) (s next : State) : Prop where
  horizon : s.horizon ip ≤ next.horizon ip
  times : next.badTimes ip = s.badTimes ip
  events : ∃ new, next.events = s.events ++ new ∧ ∀ event ∈ new,
    event.wrong ip = none ∧ event.bans ip = false ∧
      ∀ time, event.reached ip = some time → s.horizon ip ≤ time

/-- After a ban nobody at the address is admitted for so long. -/
def Shut (cfg : Config) (ip : Text) (events : List Event) : Prop :=
  events.Pairwise fun earlier later => ∀ banned, earlier = .banned ip banned →
    ∀ time, later.reached ip = some time → banned + cfg.banMs ≤ time

/-- What the server keeps of the address, beside what it has done. -/
structure Guarded (cfg : Config) (ip : Text) (s : State) : Prop where
  bounded : Bounded cfg.badWinMs cfg.maxBad (wrongs ip s.events) (s.badTimes ip) (s.horizon ip)
  held : ∀ time, .banned ip time ∈ s.events → time + cfg.banMs ≤ s.horizon ip
  shut : Shut cfg ip s.events

variable {cfg : Config} {ip : Text} {s next last : State}

theorem Calm.refl (ip : Text) (s : State) : Calm ip s s :=
  ⟨Nat.le_refl _, rfl, [], (List.append_nil _).symm, by simp⟩

theorem Calm.trans (first : Calm ip s next) (second : Calm ip next last) : Calm ip s last := by
  obtain ⟨new, events, calm⟩ := first.events
  obtain ⟨newer, events', calm'⟩ := second.events
  refine ⟨Nat.le_trans first.horizon second.horizon, second.times.trans first.times, new ++ newer,
    by rw [events', events, List.append_assoc], ?_⟩
  intro event member
  rcases List.mem_append.mp member with early | late
  · exact calm event early
  · obtain ⟨right, free, reached⟩ := calm' event late
    exact ⟨right, free, fun time at' => Nat.le_trans first.horizon (reached time at')⟩

theorem Guarded.calm (guarded : Guarded cfg ip s) (calm : Calm ip s next) :
    Guarded cfg ip next := by
  obtain ⟨new, events, each⟩ := calm.events
  have same : wrongs ip next.events = wrongs ip s.events := by
    have none : new.filterMap (Event.wrong ip) = [] :=
      List.filterMap_eq_nil_iff.mpr fun event member => (each event member).1
    rw [wrongs, events, List.filterMap_append, none, List.append_nil, wrongs]
  refine ⟨?_, ?_, ?_⟩
  · rw [same, calm.times]
    exact guarded.bounded.later calm.horizon
  · intro time member
    rw [events] at member
    rcases List.mem_append.mp member with old | fresh
    · exact Nat.le_trans (guarded.held time old) calm.horizon
    · have quiet := (each _ fresh).2.1
      simp [Event.bans] at quiet
  · rw [events, Shut, List.pairwise_append]
    refine ⟨guarded.shut, ?_, ?_⟩
    · apply List.Pairwise.imp_of_mem _ (List.pairwise_of_forall (R := fun _ _ => True) (by simp))
      rintro earlier later member - - banned rfl
      have quiet := (each _ member).2.1
      simp [Event.bans] at quiet
    · rintro earlier old later fresh banned rfl time reached
      exact Nat.le_trans (guarded.held banned old) ((each later fresh).2.2 time reached)

/-- A step that leaves the bans alone and is not about tokens. -/
structure Silent (s next : State) : Prop where
  now : s.now ≤ next.now
  bans : next.bans = s.bans
  events : ∃ new, next.events = s.events ++ new ∧
    ∀ event ∈ new, ∀ ip, event.wrong ip = none ∧ event.bans ip = false ∧ event.reached ip = none

theorem Silent.refl (s : State) : Silent s s :=
  ⟨Nat.le_refl _, rfl, [], (List.append_nil _).symm, by simp⟩

theorem Silent.trans (first : Silent s next) (second : Silent next last) : Silent s last := by
  obtain ⟨new, events, silent⟩ := first.events
  obtain ⟨newer, events', silent'⟩ := second.events
  refine ⟨Nat.le_trans first.now second.now, second.bans.trans first.bans, new ++ newer,
    by rw [events', events, List.append_assoc], ?_⟩
  intro event member
  rcases List.mem_append.mp member with early | late
  · exact silent event early
  · exact silent' event late

theorem Silent.calm (silent : Silent s next) (ip : Text) : Calm ip s next := by
  obtain ⟨new, events, none⟩ := silent.events
  refine ⟨?_, ?_, new, events, ?_⟩
  · have now := silent.now
    simp only [State.horizon, State.bannedUntil, silent.bans]
    omega
  · rw [State.badTimes, silent.bans, State.badTimes]
  · intro event member
    obtain ⟨right, quiet, nowhere⟩ := none event member ip
    refine ⟨right, quiet, fun time reached => ?_⟩
    rw [nowhere] at reached
    cases reached

theorem Upkeep.silent (upkeep : Upkeep s next) : Silent s next := by
  obtain ⟨new, events, ofContainers⟩ := upkeep.events
  refine ⟨upkeep.now, upkeep.bans, new, events, fun event member ip => ?_⟩
  have which := ofContainers event member
  cases event with
  | checked | banned | opened | sent => cases which
  | stopContainers | startRequest | stopRequest => exact ⟨rfl, rfl, rfl⟩

/-- Nothing is logged, and no ban is touched. -/
theorem Silent.of_eq (now : s.now ≤ next.now) (bans : next.bans = s.bans)
    (events : next.events = s.events) : Silent s next :=
  ⟨now, bans, [], by rw [events, List.append_nil], by simp⟩

theorem Silent.of_log {event : Event} (now : s.now ≤ next.now) (bans : next.bans = s.bans)
    (events : next.events = s.events ++ [event])
    (silent : ∀ ip, event.wrong ip = none ∧ event.bans ip = false ∧ event.reached ip = none) :
    Silent s next :=
  ⟨now, bans, [event], events, fun _ member => List.mem_singleton.mp member ▸ silent⟩

section Handlers

variable (cfg) (s)

theorem silent_setStage (id : Nat) (stage : Stage) : Silent s (s.setStage id stage) :=
  .of_eq (Nat.le_refl _) rfl rfl

theorem silent_issue (id : Nat) (caller : Caller) (ip : Text) (drawn lookup : Nat) :
    Silent s (s.issue cfg id caller ip drawn lookup) := by
  rw [State.issue]
  split <;> exact .of_eq (Nat.le_add_right ..) rfl rfl

theorem silent_token (id : Nat) (secret ip : Text) (drawn : Nat) (waits : Waits) :
    Silent s (s.token cfg id secret ip drawn waits) := by
  rw [State.token]
  split
  · exact silent_setStage s id _
  · split
    · exact silent_setStage s id _
    · exact (upkeep_wait s waits.start).silent.trans (silent_issue cfg _ id _ ip drawn waits.lookup)

theorem silent_webhook (id : Nat) (ok : Bool) : Silent s (s.webhook id ok) := by
  rw [State.webhook]
  split
  · dsimp only
    split
    · exact .of_log (Nat.le_refl _) rfl rfl fun _ => ⟨rfl, rfl, rfl⟩
    · exact .of_eq (Nat.le_refl _) rfl rfl
  · exact .refl s

end Handlers

/-- Somebody who is let past isBanned is not banned at that time. -/
def State.Free (ip : Text) (s : State) : Prop := s.bannedUntil ip ≤ s.now

theorem State.Free.horizon (free : s.Free ip) : s.horizon ip = s.now := Nat.max_eq_left free

theorem State.Free.silent (free : s.Free ip) (silent : Silent s next) : next.Free ip := by
  have now := silent.now
  simp only [State.Free, State.bannedUntil, silent.bans] at free ⊢
  omega

theorem Calm.of_log {event : Event} (free : ∀ time, event.reached ip = some time → s.Free ip)
    (right : event.wrong ip = none) (quiet : event.bans ip = false)
    (now : ∀ time, event.reached ip = some time → time = s.now) : Calm ip s (s.log event) := by
  refine ⟨Nat.le_refl _, rfl, [event], rfl, ?_⟩
  intro event' member
  obtain rfl := List.mem_singleton.mp member
  refine ⟨right, quiet, fun time reached => ?_⟩
  rw [(free time reached).horizon, now time reached]

theorem reached_opened {id time : Nat} {other : Text} {at' : Nat}
    (reached : (Event.opened id other time).reached ip = some at') : other = ip ∧ at' = time := by
  simp only [Event.reached, Option.ite_none_right_eq_some, Option.some.injEq] at reached
  exact ⟨reached.1, reached.2.symm⟩

theorem reached_checked {time : Nat} {other tok : Text} {valid : Bool} {at' : Nat}
    (reached : (Event.checked other tok valid time).reached ip = some at') :
    other = ip ∧ at' = time := by
  simp only [Event.reached, Option.ite_none_right_eq_some, Option.some.injEq] at reached
  exact ⟨reached.1, reached.2.symm⟩

theorem calm_accept (id : Nat) (other : Text) (free : other = ip → s.Free ip) :
    Calm ip s (s.accept cfg id other) := by
  rw [State.accept]
  have replaced : Silent s (if cfg.singleSession ∧ s.activeWs ≠ some id then s.closeActive else s) := by
    split
    · exact (upkeep_closeActive s).silent
    · exact .refl s
  generalize (if cfg.singleSession ∧ s.activeWs ≠ some id then s.closeActive else s) = old at replaced ⊢
  have active : Silent old {old with activeWs := some id, idleStopTimer := .none} :=
    .of_eq (Nat.le_refl _) rfl rfl
  generalize {old with activeWs := some id, idleStopTimer := .none} = active' at active ⊢
  have running := (upkeep_ensureContainersRunning cfg active').silent
  generalize active'.ensureContainersRunning cfg = ready at running ⊢
  have before := (replaced.trans active).trans running
  have opened : Calm ip ready (ready.log (.opened id other ready.now)) := by
    apply Calm.of_log
    · intro time reached
      exact (free (reached_opened reached).1).silent before
    · rfl
    · rfl
    · intro time reached
      exact (reached_opened reached).2
  have live := (silent_setStage (ready.log (.opened id other ready.now)) id .live).calm ip
  refine ((before.calm ip).trans (opened.trans live)).trans (Silent.calm ?_ ip)
  split
  · exact .of_eq (Nat.le_refl _) rfl rfl
  · exact .refl _

theorem calm_isBanned (other : Text) : Calm ip s (s.isBanned other).2 := by
  rw [State.isBanned]
  split
  · exact .refl ip s
  · refine ⟨?_, ?_, [], (List.append_nil _).symm, by simp⟩
    · simp only [State.horizon, State.bannedUntil, Bans.isBanned]
      split
      · exact Nat.le_refl _
      · split
        · by_cases same : ip = other
          · subst same
            simp only [Function.update_self, Option.getD_none]
            omega
          · simp only [Function.update_of_ne same, Nat.le_refl]
        · exact Nat.le_refl _
    · simp only [State.badTimes, Bans.isBanned]
      split
      · rfl
      · split <;> rfl

theorem free_isBanned (known : ip ≠ []) (free : (s.isBanned ip).1 = false) :
    (s.isBanned ip).2.Free ip := by
  simp only [State.isBanned, known, if_false, Bans.isBanned] at free ⊢
  split at free
  · rename_i zero
    rw [if_pos zero]
    simp only [State.Free, State.bannedUntil, zero]
    omega
  · rename_i till
    split at free
    · rename_i over'
      rw [if_neg till, if_pos over']
      simp [State.Free, State.bannedUntil, Function.update_self]
    · cases free

theorem isTokenValid_frame (cfg : Config) (s : State) (tok other : Text) :
    (s.isTokenValid cfg tok other).2.now = s.now ∧ (s.isTokenValid cfg tok other).2.bans = s.bans ∧
      (s.isTokenValid cfg tok other).2.events =
        s.events ++ [.checked other tok (s.isTokenValid cfg tok other).1 s.now] :=
  ⟨rfl, rfl, rfl⟩

theorem calm_isTokenValid (cfg : Config) (tok : Text) {other : Text} (free : other = ip → s.Free ip)
    (right : other = ip → tok = [] ∨ (s.isTokenValid cfg tok other).1 = true) :
    Calm ip s (s.isTokenValid cfg tok other).2 := by
  refine ⟨Nat.le_refl _, rfl, [_], rfl, ?_⟩
  intro event member
  obtain rfl := List.mem_singleton.mp member
  refine ⟨?_, rfl, fun time reached => ?_⟩
  · simp only [Event.wrong, ite_eq_right_iff]
    rintro ⟨same, provided, invalid⟩
    rcases right same with missing | valid
    · exact absurd missing provided
    · rw [State.isTokenValid] at valid
      rw [invalid] at valid
      cases valid
  · obtain ⟨same, rfl⟩ := reached_checked reached
    exact Nat.le_of_eq (free same).horizon

theorem calm_noteBadToken {other : Text} (apart : other ≠ ip) : Calm ip s (s.noteBadToken cfg other) := by
  have times : ∀ value, Function.update s.bans.badTokenTimesByIp other value ip =
      s.bans.badTokenTimesByIp ip := fun value => Function.update_of_ne (Ne.symm apart) ..
  have till : ∀ value, Function.update s.bans.bannedUntilMsByIp other value ip =
      s.bans.bannedUntilMsByIp ip := fun value => Function.update_of_ne (Ne.symm apart) ..
  rw [State.noteBadToken, Bans.noteBadToken]
  split
  · refine ⟨?_, ?_, [.banned other s.now], rfl, ?_⟩
    · simp only [if_true, State.log, State.horizon, State.bannedUntil, till]
      exact Nat.le_refl _
    · simp only [if_true, State.log, State.badTimes, times]
    · intro event member
      obtain rfl := List.mem_singleton.mp member
      refine ⟨rfl, decide_eq_false apart, fun time reached => ?_⟩
      cases reached
  · refine ⟨Nat.le_refl _, ?_, [], (List.append_nil _).symm, by simp⟩
    simp only [Bool.false_eq_true, if_false, State.badTimes, times]

namespace Config

theorem maxBad_pos (cfg : Config) : 0 < cfg.maxBad := by
  have : (1 : Int) ≤ max 1 cfg.badTokenMax := Int.le_max_left ..
  simp only [maxBad]
  omega

theorem badWinMs_le_banMs (longer : cfg.badTokenWindowSec ≤ cfg.banSec) :
    cfg.badWinMs ≤ cfg.banMs := by
  simp only [badWinMs, banMs]
  omega

end Config

/-- What the step that notes a wrong token leaves of the address. -/
theorem noteBadToken_cases (cfg : Config) (ip : Text) (s : State) :
    let kept := (s.badTimes ip).filter (fun t => t ≥ s.now - cfg.badWinMs) ++ [s.now]
    let noted := s.noteBadToken cfg ip
    noted.now = s.now ∧
      ((cfg.maxBad ≤ kept.length ∧ noted.badTimes ip = [] ∧
          noted.bannedUntil ip = s.now + cfg.banMs ∧
          noted.events = s.events ++ [.banned ip s.now]) ∨
        (kept.length < cfg.maxBad ∧ noted.badTimes ip = kept ∧
          noted.bannedUntil ip = s.bannedUntil ip ∧ noted.events = s.events)) := by
  intro kept noted
  by_cases full : cfg.maxBad ≤ kept.length
  · have noting : s.bans.noteBadToken cfg s.now ip = (true, _) := if_pos full
    simp only [noted, State.noteBadToken, noting, if_true]
    refine ⟨rfl, Or.inl ⟨full, ?_, ?_, rfl⟩⟩
    · simp [State.badTimes, State.log, Function.update_self]
    · simp [State.bannedUntil, State.log, Function.update_self]
  · have noting : s.bans.noteBadToken cfg s.now ip = (false, _) := if_neg full
    simp only [noted, State.noteBadToken, noting, Bool.false_eq_true, if_false]
    refine ⟨trivial, Or.inr ⟨Nat.lt_of_not_le full, ?_, rfl, trivial⟩⟩
    simp only [State.badTimes, Function.update_self, Option.getD_some]
    rfl

theorem Shut.snoc {events : List Event} (shut : Shut cfg ip events) (event : Event)
    (later : ∀ time, event.reached ip = some time →
      ∀ banned, .banned ip banned ∈ events → banned + cfg.banMs ≤ time) :
    Shut cfg ip (events ++ [event]) := by
  rw [Shut, List.pairwise_append]
  refine ⟨shut, List.pairwise_singleton .., ?_⟩
  rintro earlier old _ fresh banned rfl time arrives
  obtain rfl := List.mem_singleton.mp fresh
  exact later time arrives banned old

/-- The attempt with a wrong token as a whole: it is checked, and noted a little later. -/
theorem Guarded.noted (guarded : Guarded cfg ip s) (free : s.Free ip)
    (longer : cfg.badTokenWindowSec ≤ cfg.banSec) {tok : Text} (provided : tok ≠ [])
    (invalid : (s.isTokenValid cfg tok ip).1 = false) (gone : Nat) :
    Guarded cfg ip (((s.isTokenValid cfg tok ip).2.wait gone).noteBadToken cfg ip) := by
  have checked : Event.wrong ip (.checked ip tok false s.now) = some s.now :=
    if_pos ⟨rfl, provided, rfl⟩
  have reached : Event.reached ip (.checked ip tok false s.now) = some s.now := if_pos rfl
  obtain ⟨sameNow, sameBans, events⟩ := isTokenValid_frame cfg s tok ip
  rw [invalid] at events
  have horizon := free.horizon
  have shut : Shut cfg ip (s.events ++ [.checked ip tok false s.now]) := by
    apply guarded.shut.snoc
    intro time arrives banned old
    have held := guarded.held banned old
    rwa [horizon, Option.some.inj (reached.symm.trans arrives)] at held
  have bounded := guarded.bounded
  rw [horizon] at bounded
  have attempts : wrongs ip (s.events ++ [.checked ip tok false s.now]) =
      wrongs ip s.events ++ [s.now] := by
    rw [wrongs, List.filterMap_append, List.filterMap_cons, checked, List.filterMap_nil, wrongs]
  generalize before : (s.isTokenValid cfg tok ip).2.wait gone = t
  have now : t.now = s.now + gone := by rw [← before, State.wait, sameNow]
  have times : t.badTimes ip = s.badTimes ip := by
    rw [← before, State.badTimes, State.wait, sameBans, State.badTimes]
  have till : t.bannedUntil ip = s.bannedUntil ip := by
    rw [← before, State.bannedUntil, State.wait, sameBans, State.bannedUntil]
  have events : t.events = s.events ++ [.checked ip tok false s.now] := by
    rw [← before, State.wait, events]
  obtain ⟨still, ⟨full, times', till', events'⟩ | ⟨room, times', till', events'⟩⟩ :=
    noteBadToken_cases cfg ip t
  · have ahead : (t.noteBadToken cfg ip).horizon ip = t.now + cfg.banMs := by
      rw [State.horizon, still, till']
      omega
    refine ⟨?_, ?_, ?_⟩
    · have same : wrongs ip (s.events ++ [.checked ip tok false s.now] ++ [.banned ip t.now]) =
          wrongs ip s.events ++ [s.now] := by
        rw [wrongs, List.filterMap_append, ← wrongs, attempts]
        exact List.append_nil _
      rw [events', events, same, times', ahead]
      have width : cfg.badWinMs ≤ cfg.banMs := Config.badWinMs_le_banMs longer
      have closed : s.now + gone + cfg.badWinMs ≤ t.now + cfg.banMs := by omega
      exact bounded.clear (Nat.le_refl _) (Nat.le_add_right _ gone) closed
    · intro time member
      rw [ahead]
      rw [events', events] at member
      rcases List.mem_append.mp member with old | fresh
      · rcases List.mem_append.mp old with old | checked
        · have held := guarded.held time old
          rw [horizon] at held
          omega
        · cases List.mem_singleton.mp checked
      · cases List.mem_singleton.mp fresh
        exact Nat.le_refl _
    · rw [events', events]
      apply shut.snoc
      intro time arrives
      cases arrives
  · have ahead : (t.noteBadToken cfg ip).horizon ip = t.now := by
      rw [State.horizon, still, till', till]
      have : s.bannedUntil ip ≤ s.now := free
      omega
    refine ⟨?_, ?_, ?_⟩
    · rw [events', events, attempts, times', ahead, times]
      rw [times] at room
      exact bounded.note (Nat.le_refl _) (by omega) room
    · intro time member
      rw [ahead]
      rw [events', events] at member
      rcases List.mem_append.mp member with old | checked
      · have held := guarded.held time old
        rw [horizon] at held
        omega
      · cases List.mem_singleton.mp checked
    · rw [events', events]
      exact shut

theorem calm_setStage (id : Nat) (stage : Stage) : Calm ip s (s.setStage id stage) :=
  (silent_setStage s id stage).calm ip

theorem Guarded.connection (guarded : Guarded cfg ip s) (known : ip ≠ [])
    (longer : cfg.badTokenWindowSec ≤ cfg.banSec) (id : Nat) (other tok : Text) (drawn : Nat)
    (waits : Waits) : Guarded cfg ip (s.connection cfg id other tok drawn waits) := by
  have waited := (upkeep_wait s waits.ban).silent.calm ip
  have asked := waited.trans (calm_isBanned other)
  obtain ⟨-, after⟩ | ⟨allowed, result⟩ := State.connection_cases cfg id other tok drawn waits s
  · rw [after]
    exact guarded.calm (asked.trans (calm_setStage id .finished))
  · have free : other = ip → ((s.wait waits.ban).isBanned other).2.Free ip := by
      rintro rfl
      exact free_isBanned known allowed
    generalize ((s.wait waits.ban).isBanned other).2 = passed at asked free result
    have later := (upkeep_wait passed waits.valid).silent
    have reached := asked.trans (later.calm ip)
    replace free : other = ip → (passed.wait waits.valid).Free ip := fun same => (free same).silent later
    generalize passed.wait waits.valid = t at reached free result
    obtain ⟨valid, after⟩ | ⟨valid, after⟩ := result
    · rw [after]
      have checked := calm_isTokenValid cfg tok free fun _ => Or.inr valid
      have still : other = ip → (t.isTokenValid cfg tok other).2.Free ip := free
      exact guarded.calm ((reached.trans checked).trans (calm_accept id other still))
    · rw [after]
      have start := (upkeep_wait (t.isTokenValid cfg tok other).2 waits.start).silent.calm ip
      obtain ⟨missing, -, after⟩ | ⟨provided, -, after⟩ | ⟨either, after⟩ :=
        State.reject_cases cfg id other tok drawn waits.lookup
          ((t.isTokenValid cfg tok other).2.wait waits.start)
      · rw [after]
        have checked := calm_isTokenValid cfg tok free fun _ => Or.inl missing
        have issued := (silent_issue cfg ((t.isTokenValid cfg tok other).2.wait waits.start) id .ws
          other drawn waits.lookup).calm ip
        exact guarded.calm ((reached.trans checked).trans (start.trans issued))
      · rw [after]
        by_cases same : other = ip
        · subst same
          have noted := (guarded.calm reached).noted (free rfl) longer provided valid waits.start
          exact noted.calm (calm_setStage id .finished)
        · have checked := calm_isTokenValid cfg tok free fun here => absurd here same
          exact guarded.calm ((reached.trans checked).trans
            (start.trans ((calm_noteBadToken same).trans (calm_setStage id .finished))))
      · rw [after]
        have checked := calm_isTokenValid cfg tok free fun same =>
          either.imp_right fun empty => absurd (same.symm.trans empty) known
        exact guarded.calm ((reached.trans checked).trans (start.trans (calm_setStage id .finished)))

theorem calm_unban {secret : Text} {target : Option Text}
    (other : ¬ Input.Unbans cfg ip (.unban secret target)) : Calm ip s (s.unban cfg secret target) := by
  rw [State.unban.eq_def]
  split
  · exact .refl ip s
  · rename_i authed
    have authed : adminAuthed cfg secret = true := by simpa using authed
    cases target with
    | none => exact absurd ⟨authed, Or.inl rfl⟩ other
    | some target =>
      have apart : ip ≠ target := by
        rintro rfl
        exact other ⟨authed, Or.inr rfl⟩
      dsimp only
      split
      · exact .refl ip s
      · refine ⟨?_, ?_, [], (List.append_nil _).symm, by simp⟩
        · simp [State.horizon, State.bannedUntil, Bans.unban, Function.update_of_ne apart]
        · simp [State.badTimes, Bans.unban, Function.update_of_ne apart]

theorem Guarded.step (guarded : Guarded cfg ip s) (known : ip ≠ [])
    (longer : cfg.badTokenWindowSec ≤ cfg.banSec) (input : Input) (kept : ¬ input.Unbans cfg ip) :
    Guarded cfg ip (step cfg s input) := by
  cases input with
  | connection id other tok drawn waits =>
    simp only [WsBridge.step]
    split
    · exact guarded.connection known longer id other tok drawn waits
    · exact guarded
  | token id secret other drawn waits =>
    simp only [WsBridge.step]
    split
    · exact guarded.calm ((silent_token cfg s id secret other drawn waits).calm ip)
    · exact guarded
  | webhook id ok => exact guarded.calm ((silent_webhook s id ok).calm ip)
  | resume id => exact guarded.calm ((upkeep_resume cfg s id).silent.calm ip)
  | close id => exact guarded.calm ((upkeep_close cfg s id).silent.calm ip)
  | fire =>
    simp only [WsBridge.step]
    split
    · exact guarded.calm ((upkeep_idleStop cfg s).silent.calm ip)
    · exact guarded
  | startDone i => exact guarded.calm ((upkeep_startDone s i).silent.calm ip)
  | stopDone i => exact guarded.calm ((upkeep_stopDone s i).silent.calm ip)
  | unban secret target => exact guarded.calm (calm_unban kept)

theorem Guarded.start (cfg : Config) (ip : Text) (now : Nat) : Guarded cfg ip (.start now) where
  bounded := .initial cfg.maxBad_pos _
  held := fun _ member => absurd member List.not_mem_nil
  shut := List.Pairwise.nil

theorem guarded_run (known : ip ≠ []) (longer : cfg.badTokenWindowSec ≤ cfg.banSec) (now : Nat)
    (inputs : List Input) (kept : ∀ input ∈ inputs, ¬ input.Unbans cfg ip) :
    Guarded cfg ip (run cfg now inputs) :=
  Run.history_while (WsBridge.step cfg) (.start now) (fun _ input => ¬ input.Unbans cfg ip)
    (fun _ s => Guarded cfg ip s) (.start cfg ip now)
    (fun _ input guarded allowed => guarded.step known longer input allowed) inputs
    (Run.always_of_mem _ _ kept)

/-- In a window of the configured length. -/
def wrongsWithin (cfg : Config) (ip : Text) (start : Int) (events : List Event) : Nat :=
  (wrongs ip events).countP fun t : Nat => start ≤ t ∧ t < start + cfg.badTokenWindowSec * 1000

/-- In every window at most BAD_TOKEN_MAX wrong tokens of an address are evaluated, and from a ban
until BAN_SEC later nobody at the address reaches isTokenValid or opens a session. -/
theorem bad_tokens_bounded (cfg : Config) (longer : cfg.badTokenWindowSec ≤ cfg.banSec) (ip : Text)
    (known : ip ≠ []) (now : Nat) (inputs : List Input)
    (kept : ∀ input ∈ inputs, ¬ input.Unbans cfg ip) :
    (∀ start, (wrongsWithin cfg ip start (run cfg now inputs).events : Int) ≤
        max 1 cfg.badTokenMax) ∧
      (run cfg now inputs).events.Pairwise fun earlier later => ∀ banned : Nat,
        earlier = .banned ip banned → ∀ time : Nat, later.reached ip = some time →
          (banned : Int) + cfg.banSec * 1000 ≤ time := by
  have guarded := guarded_run known longer now inputs kept
  constructor
  · intro start
    have spread := guarded.bounded.spread start
    have narrower : wrongsWithin cfg ip start (run cfg now inputs).events ≤
        inside cfg.badWinMs start (wrongs ip (run cfg now inputs).events) := by
      apply List.countP_mono_left
      intro t _ within
      simp only [decide_eq_true_eq] at within ⊢
      have width : cfg.badTokenWindowSec * 1000 ≤ cfg.badWinMs := by
        simp only [Config.badWinMs]
        omega
      omega
    simp only [Config.maxBad] at spread
    omega
  · apply guarded.shut.imp
    intro earlier later shut banned same time reached
    have after := shut banned same time reached
    simp only [Config.banMs] at after
    omega

/-- Tokens are required, and two wrong ones within a minute are too many. -/
def strictConfig : Config where
  tokenRequired := true
  tokenIssueOnWsConnect := false
  tokenSingleUse := false
  singleSession := false
  ondemandEnable := false
  ondemandContainers := []
  tokenWebhookUrl := []
  tokenIssueSecret := []
  adminSecret := []
  tokenTtlSec := 300
  tokenPerIpWindowSec := 300
  tokenWebhookRetryMinSec := 5
  badTokenWindowSec := 60
  badTokenMax := 2
  banSec := 600

def guesses : List Input :=
  [.connection 0 ['a'] ['1'] 0 ⟨0, 0, 0, 0⟩, .connection 1 ['a'] ['2'] 0 ⟨1000, 0, 5, 0⟩,
    .connection 2 ['a'] ['3'] 0 ⟨1000, 0, 0, 0⟩]

theorem guesses_bounded :
    (run strictConfig 1 guesses).events =
        [.checked ['a'] ['1'] false 1, .checked ['a'] ['2'] false 1001, .banned ['a'] 1006] ∧
      (∀ start, (wrongsWithin strictConfig ['a'] start (run strictConfig 1 guesses).events : Int) ≤
        max 1 2) ∧
      (run strictConfig 1 guesses).events.Pairwise fun earlier later => ∀ banned : Nat,
        earlier = .banned ['a'] banned → ∀ time : Nat, later.reached ['a'] = some time →
          (banned : Int) + 600 * 1000 ≤ time :=
  ⟨by decide, bad_tokens_bounded strictConfig (by decide) ['a'] (by decide) 1 guesses (by
    intro input member
    simp only [guesses, List.mem_cons, List.not_mem_nil, or_false] at member
    rcases member with rfl | rfl | rfl <;> exact id)⟩

end StreamRelay.WsBridge
