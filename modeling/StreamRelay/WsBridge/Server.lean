import StreamRelay.Run
import StreamRelay.WsBridge.Tokens

/-! The handlers of ws_ctrl_bridge on its one thread: what runs between two awaits is one step,
and any other step may come between. -/
namespace StreamRelay.WsBridge

inductive Caller where
  | http
  | ws
  deriving DecidableEq, Repr

/-- A request of POST /token or a WebSocket connection: it waits for the webhook, or its call of
issueTokenForIp has returned and it is about to go on. A connection is live from its acceptance
until close is called on it or its close event comes. -/
inductive Stage where
  | absent
  | pushing (caller : Caller) (push : Push)
  | answered (caller : Caller) (issued : Issued)
  | live
  | closing
  | finished
  deriving DecidableEq, Repr

/-- The variable idleStopTimer, which keeps a timer that has fired. -/
inductive Timer where
  | none
  | pending
  | fired
  deriving DecidableEq, Repr

inductive Event where
  | checked (ip tok : Text) (valid : Bool) (time : Nat)
  | banned (ip : Text) (time : Nat)
  | opened (id : Nat) (ip : Text) (time : Nat)
  | sent (ip token : Text) (started : Nat)
  | stopContainers
  | startRequest (container : Text)
  | stopRequest (container : Text)
  deriving DecidableEq, Repr

/-- For each call of ensureContainersRunning and of stopContainers the containers that it has not
asked for yet. -/
structure State where
  now : Nat
  tokens : Tokens
  bans : Bans
  activeWs : Option Nat
  idleStopTimer : Timer
  stages : Nat → Stage
  starting : List (List Text)
  stopping : List (List Text)
  events : List Event

def State.start (now : Nat) : State :=
  ⟨now, .empty, .empty, none, .none, fun _ => .absent, [], [], []⟩

/-- The time that goes by in a handler before each of its readings of the clock: in isBanned, in
isTokenValid, at the start of noteBadToken or issueTokenForIp, and in the tokenRec of the last. -/
structure Waits where
  ban : Nat
  valid : Nat
  start : Nat
  lookup : Nat
  deriving DecidableEq, Repr

/-- A pending timer may fire at any time. The unban without an address is the one of all. -/
inductive Input where
  | connection (id : Nat) (ip tok : Text) (drawn : Nat) (waits : Waits)
  | token (id : Nat) (secret ip : Text) (drawn : Nat) (waits : Waits)
  | webhook (id : Nat) (ok : Bool)
  | resume (id : Nat)
  | close (id : Nat)
  | fire
  | startDone (i : Nat)
  | stopDone (i : Nat)
  | unban (secret : Text) (ip : Option Text)

namespace State

def wait (gone : Nat) (s : State) : State := {s with now := s.now + gone}

def setStage (id : Nat) (stage : Stage) (s : State) : State :=
  {s with stages := Function.update s.stages id stage}

def log (event : Event) (s : State) : State := {s with events := s.events ++ [event]}

/-- The first request of a loop is made at once. -/
def ensureContainersRunning (cfg : Config) (s : State) : State :=
  if !cfg.ondemandEnable then s
  else
    match cfg.ondemandContainers with
    | [] => s
    | name :: rest => {s.log (.startRequest name) with starting := s.starting ++ [rest]}

def stopContainers (cfg : Config) (s : State) : State :=
  if !cfg.ondemandEnable then s
  else
    match cfg.ondemandContainers.reverse with
    | [] => s
    | name :: rest => {s.log (.stopRequest name) with stopping := s.stopping ++ [rest]}

def scheduleIdleStop (cfg : Config) (s : State) : State :=
  if !cfg.ondemandEnable then s else {s with idleStopTimer := .pending}

/-- The callback of the timer. -/
def idleStop (cfg : Config) (s : State) : State :=
  let s := {s with idleStopTimer := .fired}
  if s.activeWs.isSome then s else (s.log .stopContainers).stopContainers cfg

def closeActive (s : State) : State :=
  match s.activeWs with
  | none => s
  | some id => {s.setStage id .closing with activeWs := none}

/-- The call of issueTokenForIp by a handler that has just waited. -/
def issue (cfg : Config) (id : Nat) (caller : Caller) (ip : Text) (drawn lookup : Nat) (s : State) :
    State :=
  let now := s.now
  let s := s.wait lookup
  let issuing := s.tokens.issueTokenForIp cfg now s.now drawn ip
  let s := {s with tokens := issuing.2}
  match issuing.1 with
  | .done issued => s.setStage id (.answered caller issued)
  | .pushing push => s.setStage id (.pushing caller push)

def noteBadToken (cfg : Config) (ip : Text) (s : State) : State :=
  let noted := s.bans.noteBadToken cfg s.now ip
  let s := {s with bans := noted.2}
  if noted.1 then s.log (.banned ip s.now) else s

/-- A connection that has passed. -/
def accept (cfg : Config) (id : Nat) (ip : Text) (s : State) : State :=
  let s := if cfg.singleSession ∧ s.activeWs ≠ some id then s.closeActive else s
  let s := {s with activeWs := some id, idleStopTimer := .none}
  let s := s.ensureContainersRunning cfg
  let s := (s.log (.opened id ip s.now)).setStage id .live
  if cfg.effectiveTokenRequired ∧ cfg.tokenSingleUse ∧ cfg.tokenPerIpWindowSec ≤ 0 ∧ ip ≠ [] then
    {s with tokens := s.tokens.delete ip}
  else s

def isBanned (ip : Text) (s : State) : Bool × State :=
  if ip = [] then (false, s)
  else
    let banned := s.bans.isBanned s.now ip
    (banned.1, {s with bans := banned.2})

def isTokenValid (cfg : Config) (tok ip : Text) (s : State) : Bool × State :=
  let valid := s.tokens.isTokenValid cfg s.now tok ip
  (valid.1, {s with tokens := valid.2}.log (.checked ip tok valid.1 s.now))

/-- A connection whose token is not valid. -/
def reject (cfg : Config) (id : Nat) (ip tok : Text) (drawn lookup : Nat) (s : State) : State :=
  if cfg.effectiveTokenRequired ∧ cfg.tokenIssueOnWsConnect ∧ tok = [] then
    if ip = [] then s.setStage id .finished
    else s.issue cfg id .ws ip drawn lookup
  else if ip ≠ [] ∧ tok ≠ [] then (s.noteBadToken cfg ip).setStage id .finished
  else s.setStage id .finished

def connection (cfg : Config) (id : Nat) (ip tok : Text) (drawn : Nat) (waits : Waits) (s : State) :
    State :=
  let banned := (s.wait waits.ban).isBanned ip
  if banned.1 then banned.2.setStage id .finished
  else
    let valid := (banned.2.wait waits.valid).isTokenValid cfg tok ip
    if valid.1 then valid.2.accept cfg id ip
    else (valid.2.wait waits.start).reject cfg id ip tok drawn waits.lookup

theorem connection_cases (cfg : Config) (id : Nat) (ip tok : Text) (drawn : Nat) (waits : Waits)
    (s : State) :
    let asked := (s.wait waits.ban).isBanned ip
    let valid := (asked.2.wait waits.valid).isTokenValid cfg tok ip
    let after := s.connection cfg id ip tok drawn waits
    (asked.1 = true ∧ after = asked.2.setStage id .finished) ∨
      (asked.1 = false ∧
        ((valid.1 = true ∧ after = valid.2.accept cfg id ip) ∨
          (valid.1 = false ∧
            after = (valid.2.wait waits.start).reject cfg id ip tok drawn waits.lookup))) := by
  intro asked valid after
  cases banned : asked.1 with
  | true => exact Or.inl ⟨rfl, if_pos banned⟩
  | false =>
    refine Or.inr ⟨rfl, ?_⟩
    have passed : after = if valid.1 then valid.2.accept cfg id ip
        else (valid.2.wait waits.start).reject cfg id ip tok drawn waits.lookup :=
      if_neg (by rw [banned]; exact Bool.false_ne_true)
    cases right : valid.1 with
    | true => exact Or.inl ⟨rfl, passed.trans (if_pos right)⟩
    | false =>
      exact Or.inr ⟨rfl, passed.trans (if_neg (by rw [right]; exact Bool.false_ne_true))⟩

theorem reject_cases (cfg : Config) (id : Nat) (ip tok : Text) (drawn lookup : Nat) (s : State) :
    let after := s.reject cfg id ip tok drawn lookup
    (tok = [] ∧ ip ≠ [] ∧ after = s.issue cfg id .ws ip drawn lookup) ∨
      (tok ≠ [] ∧ ip ≠ [] ∧ after = (s.noteBadToken cfg ip).setStage id .finished) ∨
      ((tok = [] ∨ ip = []) ∧ after = s.setStage id .finished) := by
  intro after
  by_cases provided : tok = []
  · by_cases known : ip = []
    · right; right
      simp [after, reject, provided, known]
    · by_cases issues : cfg.effectiveTokenRequired = true ∧ cfg.tokenIssueOnWsConnect = true
      · left
        simp [after, reject, provided, known, issues]
      · right; right
        simp only [after, reject, provided, and_true, if_neg issues]
        simp
  · by_cases known : ip = []
    · right; right
      simp [after, reject, provided, known]
    · right; left
      simp [after, reject, provided, known]

def token (cfg : Config) (id : Nat) (secret ip : Text) (drawn : Nat) (waits : Waits) (s : State) :
    State :=
  if cfg.tokenIssueSecret ≠ [] ∧ secret ≠ cfg.tokenIssueSecret then s.setStage id .finished
  else if ip = [] then s.setStage id .finished
  else (s.wait waits.start).issue cfg id .http ip drawn waits.lookup

/-- The webhook has answered, and issueTokenForIp returns. -/
def webhook (id : Nat) (ok : Bool) (s : State) : State :=
  match s.stages id with
  | .pushing caller push =>
    let issued := s.tokens.pushed push ok
    let s := {s with tokens := issued.2}.setStage id (.answered caller issued.1)
    if ok then s.log (.sent push.ip push.token push.now) else s
  | _ => s

/-- The caller goes on. A connection is told the result and closed. -/
def resume (cfg : Config) (id : Nat) (s : State) : State :=
  match s.stages id with
  | .answered caller issued =>
    let s := s.setStage id .finished
    match caller with
    | .ws => s
    | .http => if issued.ok then s.closeActive.scheduleIdleStop cfg else s
  | _ => s

/-- The close event, for which only an accepted connection has a handler. -/
def close (cfg : Config) (id : Nat) (s : State) : State :=
  if s.stages id = .live ∨ s.stages id = .closing then
    let s := s.setStage id .finished
    (if s.activeWs = some id then {s with activeWs := none} else s).scheduleIdleStop cfg
  else s

def startDone (i : Nat) (s : State) : State :=
  match s.starting[i]? with
  | some (name :: rest) => {s.log (.startRequest name) with starting := s.starting.set i rest}
  | _ => s

def stopDone (i : Nat) (s : State) : State :=
  match s.stopping[i]? with
  | some (name :: rest) => {s.log (.stopRequest name) with stopping := s.stopping.set i rest}
  | _ => s

end State

def adminAuthed (cfg : Config) (secret : Text) : Bool :=
  let want := if cfg.adminSecret = [] then cfg.tokenIssueSecret else cfg.adminSecret
  want ≠ [] ∧ secret = want

/-- An unban of no address is an error. -/
def State.unban (cfg : Config) (secret : Text) (ip : Option Text) (s : State) : State :=
  if !adminAuthed cfg secret then s
  else
    match ip with
    | none => {s with bans := .empty}
    | some ip => if ip = [] then s else {s with bans := s.bans.unban ip}

/-- A request or a connection comes under a number of its own. -/
def step (cfg : Config) (s : State) : Input → State
  | .connection id ip tok drawn waits =>
    if s.stages id = .absent then s.connection cfg id ip tok drawn waits else s
  | .token id secret ip drawn waits =>
    if s.stages id = .absent then s.token cfg id secret ip drawn waits else s
  | .webhook id ok => s.webhook id ok
  | .resume id => s.resume cfg id
  | .close id => s.close cfg id
  | .fire => if s.idleStopTimer = .pending then s.idleStop cfg else s
  | .startDone i => s.startDone i
  | .stopDone i => s.stopDone i
  | .unban secret ip => s.unban cfg secret ip

def run (cfg : Config) (now : Nat) (inputs : List Input) : State :=
  Run.run (step cfg) (.start now) inputs

/-- What is logged about the containers. -/
def Event.ofContainers : Event → Bool
  | .stopContainers | .startRequest _ | .stopRequest _ => true
  | .checked .. | .banned .. | .opened .. | .sent .. => false

/-- A step that looks after the session and the containers: tokens and bans are as they were, and nobody
begins to wait for the webhook. -/
structure Upkeep (s next : State) : Prop where
  now : s.now ≤ next.now
  flights : ∀ id caller push, next.stages id = .pushing caller push →
    s.stages id = .pushing caller push
  tokens : next.tokens = s.tokens
  bans : next.bans = s.bans
  events : ∃ new, next.events = s.events ++ new ∧ ∀ event ∈ new, event.ofContainers = true

namespace Upkeep

variable {s next last : State}

theorem refl (s : State) : Upkeep s s :=
  ⟨Nat.le_refl _, fun _ _ _ same => same, rfl, rfl, [], (List.append_nil _).symm, by simp⟩

theorem trans (first : Upkeep s next) (second : Upkeep next last) : Upkeep s last := by
  obtain ⟨new, events, ofContainers⟩ := first.events
  obtain ⟨newer, events', ofContainers'⟩ := second.events
  refine ⟨Nat.le_trans first.now second.now,
    fun id caller push waits => first.flights id caller push (second.flights id caller push waits),
    second.tokens.trans first.tokens, second.bans.trans first.bans, new ++ newer,
    by rw [events', events, List.append_assoc], fun event member => ?_⟩
  rcases List.mem_append.mp member with early | late
  · exact ofContainers event early
  · exact ofContainers' event late

/-- Nothing is logged. -/
theorem of_eq (now : s.now ≤ next.now) (stages : next.stages = s.stages) (tokens : next.tokens = s.tokens)
    (bans : next.bans = s.bans) (events : next.events = s.events) : Upkeep s next :=
  ⟨now, fun id caller push waits => by rw [← stages]; exact waits, tokens, bans, [],
    by rw [events, List.append_nil], by simp⟩

theorem of_log {event : Event} (now : s.now ≤ next.now) (stages : next.stages = s.stages)
    (tokens : next.tokens = s.tokens) (bans : next.bans = s.bans)
    (events : next.events = s.events ++ [event]) (ofContainers : event.ofContainers = true) :
    Upkeep s next :=
  ⟨now, fun id caller push waits => by rw [← stages]; exact waits, tokens, bans, [event], events,
    fun _ member => List.mem_singleton.mp member ▸ ofContainers⟩

end Upkeep

section Handlers

variable (cfg : Config) (s : State)

theorem upkeep_wait (gone : Nat) : Upkeep s (s.wait gone) :=
  .of_eq (Nat.le_add_right ..) rfl rfl rfl rfl

theorem upkeep_setStage (id : Nat) {stage : Stage}
    (settled : ∀ caller push, stage ≠ .pushing caller push) : Upkeep s (s.setStage id stage) := by
  refine ⟨Nat.le_refl _, fun other caller push waits => ?_, rfl, rfl, [],
    (List.append_nil _).symm, by simp⟩
  by_cases same : other = id
  · subst same
    simp only [State.setStage, Function.update_self] at waits
    exact absurd waits (settled caller push)
  · simpa only [State.setStage, Function.update_of_ne same] using waits

theorem upkeep_finished (id : Nat) : Upkeep s (s.setStage id .finished) :=
  upkeep_setStage s id fun _ _ same => by cases same

theorem upkeep_ensureContainersRunning : Upkeep s (s.ensureContainersRunning cfg) := by
  rw [State.ensureContainersRunning]
  split
  · exact .refl s
  · split
    · exact .refl s
    · exact .of_log (Nat.le_refl _) rfl rfl rfl rfl rfl

theorem upkeep_stopContainers : Upkeep s (s.stopContainers cfg) := by
  rw [State.stopContainers]
  split
  · exact .refl s
  · split
    · exact .refl s
    · exact .of_log (Nat.le_refl _) rfl rfl rfl rfl rfl

theorem upkeep_scheduleIdleStop : Upkeep s (s.scheduleIdleStop cfg) := by
  rw [State.scheduleIdleStop]
  split
  · exact .refl s
  · exact .of_eq (Nat.le_refl _) rfl rfl rfl rfl

theorem upkeep_idleStop : Upkeep s (s.idleStop cfg) := by
  rw [State.idleStop]
  split
  · exact .of_eq (Nat.le_refl _) rfl rfl rfl rfl
  · refine Upkeep.trans ?_ (upkeep_stopContainers cfg _)
    exact .of_log (Nat.le_refl _) rfl rfl rfl rfl rfl

theorem upkeep_closeActive : Upkeep s s.closeActive := by
  rw [State.closeActive]
  split
  · exact .refl s
  · rename_i id _
    refine (upkeep_setStage s id (fun _ _ same => ?_)).trans (.of_eq (Nat.le_refl _) rfl rfl rfl rfl)
    cases same

theorem upkeep_resume (id : Nat) : Upkeep s (s.resume cfg id) := by
  rw [State.resume]
  split
  · dsimp only
    split
    · exact upkeep_finished s id
    · split
      · exact ((upkeep_finished s id).trans (upkeep_closeActive _)).trans (upkeep_scheduleIdleStop cfg _)
      · exact upkeep_finished s id
  · exact .refl s

theorem upkeep_close (id : Nat) : Upkeep s (s.close cfg id) := by
  rw [State.close]
  split
  · refine (upkeep_finished s id).trans (Upkeep.trans ?_ (upkeep_scheduleIdleStop cfg _))
    split
    · exact .of_eq (Nat.le_refl _) rfl rfl rfl rfl
    · exact .refl _
  · exact .refl s

theorem upkeep_startDone (i : Nat) : Upkeep s (s.startDone i) := by
  rw [State.startDone]
  split
  · exact .of_log (Nat.le_refl _) rfl rfl rfl rfl rfl
  · exact .refl s

theorem upkeep_stopDone (i : Nat) : Upkeep s (s.stopDone i) := by
  rw [State.stopDone]
  split
  · exact .of_log (Nat.le_refl _) rfl rfl rfl rfl rfl
  · exact .refl s

end Handlers

end StreamRelay.WsBridge
