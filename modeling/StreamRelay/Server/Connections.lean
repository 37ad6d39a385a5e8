import Mathlib.Logic.Function.Basic
import StreamRelay.Run

/-! The list of connected clients, which accept_loop, the detached handlers and server_stop
keep between them. What stands between two steps is one operation under `clients_lock` or one
test or close of a descriptor, so a handler may be scheduled arbitrarily late. -/
namespace StreamRelay.Server.Connections

/-- How far a connection has come: in accept_loop, and after that in its client_handler. -/
inductive Stage
  | unborn
  | accepted
  | refused
  | admitted
  | created
  | prepared
  | listed
  | failed
  | doomed
  | dropped
  | waiting
  | serving
  | leaving
  | removed
  | returned
  | abandoned
  deriving DecidableEq, Repr

/-- A connection and its ClientConn. `fdOpen` is `client->fd >= 0`; how often the descriptor
was closed and client_destroy was called is noted for the observer. -/
structure Conn where
  stage : Stage
  fdOpen : Bool
  closes : Nat
  destroyed : Nat
  deriving DecidableEq, Repr

inductive Acceptor
  | polling
  | accepting
  | busy (id : Nat)
  | returned
  deriving DecidableEq, Repr

/-- server_stop; while it walks over the clients it holds `clients_lock`. -/
inductive Stopper
  | idle
  | joining
  | walking (rest : List Nat)
  | draining
  | returned
  deriving DecidableEq, Repr

structure State where
  running : Bool
  acceptor : Acceptor
  stopper : Stopper
  clients : List Nat
  clientCount : Int
  accepted : Nat
  conns : Nat → Conn

def State.initial : State where
  running := true
  acceptor := .polling
  stopper := .idle
  clients := []
  clientCount := 0
  accepted := 0
  conns := fun _ => ⟨.unborn, false, 0, 0⟩

def Stopper.holdsLock : Stopper → Bool
  | .walking _ => true
  | _ => false

def State.locked (s : State) : Bool := s.stopper.holdsLock

def State.put (s : State) (id : Nat) (conn : Conn) : State :=
  {s with conns := Function.update s.conns id conn}

def State.setStage (s : State) (id : Nat) (stage : Stage) : State :=
  s.put id {s.conns id with stage := stage}

/-- `if (client->fd >= 0) close(client->fd)` -/
def Conn.closeFd (c : Conn) : Conn := if c.fdOpen then {c with closes := c.closes + 1} else c

def clientDestroy (c : Conn) : Conn := {c.closeFd with destroyed := c.destroyed + 1}

/-- The walk along `next` to the client that is unlinked. -/
def unlink (clients : List Nat) (id : Nat) : List Nat := clients.erase id

inductive AcceptAnswer
  | connection
  | again
  | failed
  deriving DecidableEq, Repr

/-- One operation of accept_loop. `granted` is whether memory or the thread is there. -/
def acceptLoop (maxConnections : Int) (s : State) (answer : AcceptAnswer) (granted : Bool) : State :=
  match s.acceptor with
  | .returned => s
  | .polling => {s with acceptor := if s.running then .accepting else .returned}
  | .accepting =>
    match answer with
    | .connection =>
      { s.put s.accepted ⟨.accepted, true, 0, 0⟩ with
        acceptor := .busy s.accepted, accepted := s.accepted + 1 }
    | .again => {s with acceptor := .polling}
    | .failed => {s with acceptor := .returned}
  | .busy id =>
    let c := s.conns id
    match c.stage with
    | .accepted =>
      if s.locked then s
      else s.setStage id (if maxConnections ≤ s.clientCount then .refused else .admitted)
    | .refused =>
      {s.put id {c with stage := .dropped, closes := c.closes + 1} with acceptor := .polling}
    | .admitted => s.setStage id (if granted then .created else .refused)
    | .created => s.setStage id (if granted then .prepared else .doomed)
    | .prepared =>
      if s.locked then s
      else {s.setStage id .listed with
        clients := id :: s.clients, clientCount := s.clientCount + 1}
    | .listed =>
      if granted then {s.setStage id .waiting with acceptor := .polling}
      else s.setStage id .failed
    | .failed =>
      if s.locked then s
      else if id ∈ s.clients then
        {s.setStage id .doomed with
          clients := unlink s.clients id, clientCount := s.clientCount - 1}
      else s.setStage id .doomed
    | .doomed =>
      {s.put id {clientDestroy c with stage := .dropped} with acceptor := .polling}
    | _ => s

/-- One operation of a client_handler. `received` is whether a packet came and was handled. -/
def clientHandler (s : State) (id : Nat) (received : Bool) : State :=
  let c := s.conns id
  match c.stage with
  | .waiting => s.setStage id (if c.fdOpen then .serving else .abandoned)
  | .serving => if s.running && c.fdOpen && received then s else s.setStage id .leaving
  | .leaving =>
    if s.locked then s
    else {s.setStage id .removed with
      clients := unlink s.clients id, clientCount := s.clientCount - 1}
  | .removed => s.put id {clientDestroy c with stage := .returned}
  | _ => s

/-- One operation of server_stop. `timedOut` is the end of its waiting for the handlers. -/
def serverStop (s : State) (timedOut : Bool) : State :=
  match s.stopper with
  | .idle => {s with running := false, stopper := .joining}
  | .joining => if s.acceptor = .returned then {s with stopper := .walking s.clients} else s
  | .walking (id :: rest) =>
    {s.put id {(s.conns id).closeFd with fdOpen := false} with stopper := .walking rest}
  | .walking [] => {s with stopper := .draining}
  | .draining => if s.clients = [] ∨ timedOut then {s with stopper := .returned} else s
  | .returned => s

inductive Input
  | acceptLoop (answer : AcceptAnswer) (granted : Bool)
  | clientHandler (id : Nat) (received : Bool)
  | serverStop (timedOut : Bool)
  deriving DecidableEq, Repr

def step (maxConnections : Int) (s : State) : Input → State
  | .acceptLoop answer granted => acceptLoop maxConnections s answer granted
  | .clientHandler id received => clientHandler s id received
  | .serverStop timedOut => serverStop s timedOut

def run (maxConnections : Int) (inputs : List Input) : State :=
  Run.run (step maxConnections) .initial inputs

/-- The list and its counter agree, and no client is destroyed twice or in the list. -/
structure Booked (s : State) : Prop where
  count : s.clientCount = s.clients.length
  once : ∀ id, (s.conns id).destroyed ≤ 1
  listed : ∀ id ∈ s.clients, (s.conns id).destroyed = 0

/-- accept_loop and all handler threads have returned. -/
def Finished (s : State) : Prop :=
  s.acceptor = .returned ∧ ∀ id < s.accepted, (s.conns id).stage = .dropped ∨
    (s.conns id).stage = .returned ∨ (s.conns id).stage = .abandoned

structure Drained (s : State) : Prop where
  empty : s.clients = []
  closed : ∀ id < s.accepted, (s.conns id).closes = 1

/-- A handler's first look at the descriptor comes before server_stop has closed it. -/
def Timely (s : State) : Input → Prop
  | .clientHandler id _ => (s.conns id).stage = .waiting → (s.conns id).fdOpen
  | _ => True

/-- The connection is in the list. -/
def Stage.linked : Stage → Bool
  | .listed | .failed | .waiting | .serving | .leaving | .abandoned => true
  | _ => false

/-- The connection is in the hands of accept_loop. -/
def Stage.accepting : Stage → Bool
  | .accepted | .refused | .admitted | .created | .prepared | .listed | .failed | .doomed => true
  | _ => false

/-- What each stage says about the closes and the destruction. -/
def Conn.Sound (c : Conn) : Prop :=
  match c.stage with
  | .unborn => c.closes = 0 ∧ c.destroyed = 0
  | .accepted | .refused | .admitted => c.fdOpen ∧ c.closes = 0 ∧ c.destroyed = 0
  | .dropped => c.closes = 1 ∧ c.destroyed ≤ 1
  | .returned => c.closes = 1 ∧ c.destroyed = 1
  | .abandoned => c.fdOpen = false ∧ c.closes = 1 ∧ c.destroyed = 0
  | _ => c.closes = (if c.fdOpen then 0 else 1) ∧ c.destroyed = 0

structure Sound (s : State) : Prop where
  nodup : s.clients.Nodup
  members : ∀ id, id ∈ s.clients ↔ (s.conns id).stage.linked
  count : s.clientCount = s.clients.length
  born : ∀ id, (s.conns id).stage ≠ .unborn ↔ id < s.accepted
  busy : ∀ id, (s.conns id).stage.accepting ↔ s.acceptor = .busy id
  conns : ∀ id, (s.conns id).Sound
  walk : ∀ rest, s.stopper = .walking rest → ∀ id ∈ rest, id ∈ s.clients

variable {maxConnections : Int} {s : State} {id : Nat} {conn : Conn}

theorem Sound.initial : Sound .initial where
  nodup := .nil
  members := by simp [State.initial, Stage.linked]
  count := rfl
  born := by simp [State.initial]
  busy := by simp [State.initial, Stage.accepting]
  conns := fun _ => ⟨rfl, rfl⟩
  walk := by simp [State.initial]

/-- One connection changes, with what the rest of the state says about it. -/
theorem Sound.change (sound : Sound s) (s' : State)
    (conns : s'.conns = Function.update s.conns id conn) (valid : conn.Sound)
    (born : conn.stage ≠ .unborn)
    (accepted : ∀ other, other < s'.accepted ↔ other = id ∨ other < s.accepted)
    (nodup : s'.clients.Nodup) (count : s'.clientCount = s'.clients.length)
    (members : ∀ other, other ∈ s'.clients ↔
      if other = id then conn.stage.linked = true else other ∈ s.clients)
    (busy : ∀ other, s'.acceptor = .busy other ↔
      if other = id then conn.stage.accepting = true else s.acceptor = .busy other)
    (walk : ∀ rest, s'.stopper = .walking rest → ∀ id ∈ rest, id ∈ s'.clients) : Sound s' where
  nodup := nodup
  count := count
  walk := walk
  members := by
    intro other
    rw [members, conns]
    by_cases same : other = id
    · simp [same]
    · simpa [same] using sound.members other
  born := by
    intro other
    rw [accepted, conns]
    by_cases same : other = id
    · simp [same, born]
    · simpa [same] using sound.born other
  busy := by
    intro other
    rw [busy, conns]
    by_cases same : other = id
    · simp [same]
    · simpa [same] using sound.busy other
  conns := by
    intro other
    rw [conns]
    by_cases same : other = id
    · simpa [same] using valid
    · simpa [same] using sound.conns other

/-- A connection that was accepted changes, and the list keeps or loses it. -/
theorem Sound.put (sound : Sound s) (born : (s.conns id).stage ≠ .unborn)
    (linked : conn.stage.linked = (s.conns id).stage.linked)
    (accepting : conn.stage.accepting = (s.conns id).stage.accepting)
    (still : conn.stage ≠ .unborn) (valid : conn.Sound) : Sound (s.put id conn) := by
  refine sound.change _ rfl valid still ?_ sound.nodup sound.count ?_ ?_ sound.walk
  · intro other
    have below := (sound.born id).mp born
    constructor
    · exact .inr
    · rintro (rfl | before)
      exacts [below, before]
  · intro other
    split
    · next same => rw [linked, same]; exact sound.members id
    · rfl
  · intro other
    split
    · next same => rw [accepting, same]; exact (sound.busy id).symm
    · rfl

theorem Sound.below (sound : Sound s) (born : (s.conns id).stage ≠ .unborn) (other : Nat) :
    other < s.accepted ↔ other = id ∨ other < s.accepted := by
  have below := (sound.born id).mp born
  constructor
  · exact .inr
  · rintro (rfl | before)
    exacts [below, before]

/-- accept_loop lets go of the connection it is busy with. -/
theorem Sound.letGo (sound : Sound s) (own : s.acceptor = .busy id)
    (linked : conn.stage.linked = (s.conns id).stage.linked) (free : conn.stage.accepting = false)
    (still : conn.stage ≠ .unborn) (valid : conn.Sound) :
    Sound {s.put id conn with acceptor := .polling} := by
  have accepting := (sound.busy id).mpr own
  have born : (s.conns id).stage ≠ .unborn := by
    intro unborn
    simp [unborn, Stage.accepting] at accepting
  refine sound.change _ rfl valid still (sound.below born) sound.nodup sound.count ?_ ?_ sound.walk
  · intro other
    split
    · next same => rw [linked, same]; exact sound.members id
    · exact Iff.rfl
  · intro other
    split
    · simp [free]
    · next apart =>
      simp only [reduceCtorEq, own, Acceptor.busy.injEq, false_iff]
      exact Ne.symm apart

/-- The connection is taken out of the list, outside the walk. -/
theorem Sound.unlink (sound : Sound s) (open_lock : s.locked = false) (inside : id ∈ s.clients)
    (unlinked : conn.stage.linked = false)
    (accepting : conn.stage.accepting = (s.conns id).stage.accepting)
    (still : conn.stage ≠ .unborn) (valid : conn.Sound) :
    Sound {s.put id conn with
      clients := unlink s.clients id, clientCount := s.clientCount - 1} := by
  have born : (s.conns id).stage ≠ .unborn := by
    intro unborn
    have linked := (sound.members id).mp inside
    simp [unborn, Stage.linked] at linked
  refine sound.change _ rfl valid still (sound.below born) (sound.nodup.erase id) ?_ ?_ ?_ ?_
  · have some_left := List.length_pos_of_mem inside
    simp only [Connections.unlink, List.length_erase_of_mem inside, sound.count]
    omega
  · intro other
    rw [Connections.unlink, sound.nodup.mem_erase_iff]
    split
    · next same => simp [same, unlinked]
    · next apart => simp [apart]
  · intro other
    split
    · next same => rw [accepting, same]; exact (sound.busy id).symm
    · exact Iff.rfl
  · intro rest walking
    have held : s.stopper = .walking rest := walking
    simp [State.locked, held, Stopper.holdsLock] at open_lock

theorem closeFd_closes (c : Conn) (closes : c.closes = if c.fdOpen then 0 else 1) :
    c.closeFd.closes = 1 := by
  unfold Conn.closeFd
  split
  · next opened => simp [closes, opened]
  · next shut => simp [closes, shut]

theorem closeFd_same (c : Conn) : c.closeFd.destroyed = c.destroyed ∧ c.closeFd.stage = c.stage := by
  unfold Conn.closeFd
  split <;> exact ⟨rfl, rfl⟩

theorem Sound.setStage (sound : Sound s) {before after : Stage} (now : (s.conns id).stage = before)
    (born : before ≠ .unborn) (linked : after.linked = before.linked)
    (accepting : after.accepting = before.accepting) (still : after ≠ .unborn)
    (valid : ({s.conns id with stage := after} : Conn).Sound) : Sound (s.setStage id after) :=
  sound.put (by rwa [now]) (by rw [now, linked]) (by rw [now, accepting]) still valid

theorem acceptLoop_sound (sound : Sound s) (answer : AcceptAnswer) (granted : Bool) :
    Sound (acceptLoop maxConnections s answer granted) := by
  have idle (next : Acceptor) (free : ∀ id, s.acceptor ≠ .busy id) (after : ∀ id, next ≠ .busy id) :
      Sound {s with acceptor := next} :=
    ⟨sound.nodup, sound.members, sound.count, sound.born,
      fun id => (sound.busy id).trans (iff_of_false (free id) (after id)), sound.conns, sound.walk⟩
  unfold acceptLoop
  split
  · exact sound
  · next polling => exact idle _ (by simp [polling]) (by split <;> simp)
  · next accepting =>
    cases answer with
    | connection =>
      dsimp only
      refine sound.change _ rfl ⟨rfl, rfl, rfl⟩ (by simp) ?_ sound.nodup sound.count ?_ ?_ sound.walk
      · intro other
        dsimp only
        omega
      · intro other
        split
        · next same =>
          have unborn := mt (sound.born other).mp (by omega)
          simp only [ne_eq, not_not] at unborn
          exact (sound.members other).trans (by simp [unborn, Stage.linked])
        · exact Iff.rfl
      · intro other
        simp only [accepting, Acceptor.busy.injEq, reduceCtorEq, Stage.accepting]
        split
        · next same => simp [same]
        · next apart => simpa using Ne.symm apart
    | again => exact idle _ (by simp [accepting]) (by simp)
    | failed => exact idle _ (by simp [accepting]) (by simp)
  · next id own =>
    have valid := sound.conns id
    dsimp only
    split
    · next stage =>
      split
      · exact sound
      · simp only [Conn.Sound, stage] at valid
        split
        · exact sound.setStage stage (by decide) rfl rfl (by decide) valid
        · exact sound.setStage stage (by decide) rfl rfl (by decide) valid
    · next stage =>
      simp only [Conn.Sound, stage] at valid
      exact sound.letGo own (by rw [stage]; rfl) rfl (by simp)
        ⟨by simp [valid.2.1], by simp [valid.2.2]⟩
    · next stage =>
      simp only [Conn.Sound, stage] at valid
      split
      · exact sound.setStage stage (by decide) rfl rfl (by decide)
          ⟨by simp [valid.1, valid.2.1], valid.2.2⟩
      · exact sound.setStage stage (by decide) rfl rfl (by decide) valid
    · next stage =>
      simp only [Conn.Sound, stage] at valid
      split
      · exact sound.setStage stage (by decide) rfl rfl (by decide) valid
      · exact sound.setStage stage (by decide) rfl rfl (by decide) valid
    · next stage =>
      simp only [Conn.Sound, stage] at valid
      split
      · exact sound
      · next unlocked =>
        have outside : id ∉ s.clients := by simp [sound.members id, stage, Stage.linked]
        refine sound.change {s.setStage id .listed with
          clients := id :: s.clients, clientCount := s.clientCount + 1} rfl valid (by simp)
          (sound.below (by simp [stage])) (List.nodup_cons.mpr ⟨outside, sound.nodup⟩) ?_ ?_ ?_ ?_
        · simp [sound.count]
        · intro other
          by_cases same : other = id
          · simp [same, Stage.linked]
          · simp [same]
        · intro other
          split
          · next same => exact ⟨fun _ => rfl, fun _ => same ▸ own⟩
          · exact Iff.rfl
        · intro rest walking
          have held : s.stopper = .walking rest := walking
          simp [State.locked, held, Stopper.holdsLock] at unlocked
    · next stage =>
      simp only [Conn.Sound, stage] at valid
      split
      · exact sound.letGo own (by rw [stage]; rfl) rfl (by simp) valid
      · exact sound.setStage stage (by decide) rfl rfl (by decide) valid
    · next stage =>
      simp only [Conn.Sound, stage] at valid
      split
      · exact sound
      · next unlocked =>
        have inside := (sound.members id).mpr (by rw [stage]; rfl)
        rw [if_pos inside]
        exact sound.unlink (by simpa using unlocked) inside rfl (by rw [stage]; rfl) (by simp) valid
    · next stage =>
      simp only [Conn.Sound, stage] at valid
      exact sound.letGo own (by rw [stage]; rfl) rfl (by simp)
        ⟨closeFd_closes _ valid.1, by simp [clientDestroy, closeFd_same, valid.2]⟩
    · exact sound

theorem clientHandler_sound (sound : Sound s) (id : Nat) (received : Bool) :
    Sound (clientHandler s id received) := by
  have valid := sound.conns id
  unfold clientHandler
  dsimp only
  split
  · next stage =>
    simp only [Conn.Sound, stage] at valid
    split
    · exact sound.setStage stage (by decide) rfl rfl (by decide) valid
    · next shut =>
      exact sound.setStage stage (by decide) rfl rfl (by decide)
        ⟨by simpa using shut, by simpa [shut] using valid.1, valid.2⟩
  · next stage =>
    simp only [Conn.Sound, stage] at valid
    split
    · exact sound
    · exact sound.setStage stage (by decide) rfl rfl (by decide) valid
  · next stage =>
    simp only [Conn.Sound, stage] at valid
    split
    · exact sound
    · next unlocked =>
      have inside := (sound.members id).mpr (by rw [stage]; rfl)
      exact sound.unlink (by simpa using unlocked) inside rfl (by rw [stage]; rfl) (by simp) valid
  · next stage =>
    simp only [Conn.Sound, stage] at valid
    exact sound.put (by simp [stage]) (by rw [stage]; rfl) (by rw [stage]; rfl) (by simp)
      ⟨closeFd_closes _ valid.1, by simp [clientDestroy, closeFd_same, valid.2]⟩
  · exact sound

/-- The walk closes a descriptor of the list, which is counted once. -/
theorem Conn.Sound.shut {c : Conn} (valid : c.Sound) (linked : c.stage.linked) :
    ({c.closeFd with fdOpen := false} : Conn).Sound := by
  unfold Conn.Sound at valid ⊢
  simp only [closeFd_same]
  cases stage : c.stage <;> simp only [stage, Stage.linked, Bool.false_eq_true] at linked valid ⊢
  case abandoned =>
    exact ⟨trivial, by simp [Conn.closeFd, valid.1, valid.2.1], valid.2.2⟩
  all_goals exact ⟨by simp [closeFd_closes c valid.1], valid.2⟩

theorem serverStop_sound (sound : Sound s) (timedOut : Bool) : Sound (serverStop s timedOut) := by
  have still (running : Bool) (next : Stopper)
      (walk : ∀ rest, next = .walking rest → ∀ id ∈ rest, id ∈ s.clients) :
      Sound {s with running := running, stopper := next} :=
    ⟨sound.nodup, sound.members, sound.count, sound.born, sound.busy, sound.conns, walk⟩
  unfold serverStop
  split
  · exact still _ _ (by simp)
  · split
    · exact still _ _ (by rintro _ ⟨⟩; simp)
    · exact sound
  · next id rest walking =>
    have members := sound.walk _ walking
    have linked := (sound.members id).mp (members id (by simp))
    have born : (s.conns id).stage ≠ .unborn := by
      intro unborn
      simp [unborn, Stage.linked] at linked
    have shut : Sound (s.put id {(s.conns id).closeFd with fdOpen := false}) := sound.put born
      (by rw [(closeFd_same _).2]) (by rw [(closeFd_same _).2]) (by rwa [(closeFd_same _).2])
      ((sound.conns id).shut linked)
    exact ⟨shut.nodup, shut.members, shut.count, shut.born, shut.busy, shut.conns, by
      rintro _ ⟨⟩ other later
      exact members other (List.mem_cons_of_mem _ later)⟩
  · exact still _ _ (by simp)
  · split
    · exact still _ _ (by simp)
    · exact sound
  · exact sound

theorem step_sound (sound : Sound s) (input : Input) : Sound (step maxConnections s input) := by
  cases input with
  | acceptLoop answer granted => exact acceptLoop_sound sound answer granted
  | clientHandler id received => exact clientHandler_sound sound id received
  | serverStop timedOut => exact serverStop_sound sound timedOut

theorem run_sound (maxConnections : Int) (inputs : List Input) :
    Sound (run maxConnections inputs) :=
  Run.invariant (step maxConnections) .initial Sound Sound.initial
    (fun _ input sound => step_sound sound input) inputs

theorem Sound.booked (sound : Sound s) : Booked s where
  count := sound.count
  once := by
    intro id
    have valid := sound.conns id
    unfold Conn.Sound at valid
    split at valid <;> omega
  listed := by
    intro id inside
    have valid := sound.conns id
    have linked := (sound.members id).mp inside
    unfold Conn.Sound at valid
    cases stage : (s.conns id).stage <;>
      simp only [stage, Stage.linked, Bool.false_eq_true] at linked valid
    all_goals omega

def Abandoned (s : State) : Prop := ∃ id, (s.conns id).stage = .abandoned

/-- Once all threads have returned, the list holds exactly the abandoned clients. -/
theorem Sound.drained_iff (sound : Sound s) (finished : Finished s) :
    Drained s ↔ ¬ Abandoned s := by
  obtain ⟨-, all⟩ := finished
  constructor
  · rintro ⟨empty, -⟩ ⟨id, abandoned⟩
    have inside := (sound.members id).mpr (by rw [abandoned]; rfl)
    simp [empty] at inside
  · intro none
    refine ⟨List.eq_nil_iff_forall_not_mem.mpr fun id inside => ?_, fun id below => ?_⟩
    · have linked := (sound.members id).mp inside
      have born : (s.conns id).stage ≠ .unborn := by
        intro unborn
        simp [unborn, Stage.linked] at linked
      rcases all id ((sound.born id).mp born) with stage | stage | stage
      · simp [stage, Stage.linked] at linked
      · simp [stage, Stage.linked] at linked
      · exact none ⟨id, stage⟩
    · have valid := sound.conns id
      rcases all id below with stage | stage | stage <;> simp only [Conn.Sound, stage] at valid
      exacts [valid.1, valid.1, valid.2.1]

theorem put_other {other : Nat} (s : State) (conn : Conn) (apart : other ≠ id) :
    (s.put id conn).conns other = s.conns other := Function.update_of_ne apart ..

theorem acceptLoop_abandoned (sound : Sound s) (answer : AcceptAnswer) (granted : Bool)
    (abandoned : (s.conns id).stage = .abandoned) :
    ((acceptLoop maxConnections s answer granted).conns id).stage = .abandoned := by
  unfold acceptLoop
  split
  · exact abandoned
  · exact abandoned
  · cases answer with
    | connection =>
      have below := (sound.born id).mp (by simp [abandoned])
      exact (congrArg Conn.stage (put_other s _ (by omega))).trans abandoned
    | again => exact abandoned
    | failed => exact abandoned
  · next busy own =>
    have accepting := (sound.busy busy).mpr own
    have apart : id ≠ busy := by
      rintro rfl
      simp [abandoned, Stage.accepting] at accepting
    have kept (conn : Conn) : ((s.put busy conn).conns id).stage = .abandoned := by
      rwa [put_other s conn apart]
    dsimp only
    split <;> (try split) <;> (try split) <;> first | exact kept _ | exact abandoned

theorem clientHandler_abandoned (other : Nat) (received : Bool)
    (abandoned : (s.conns id).stage = .abandoned) :
    ((clientHandler s other received).conns id).stage = .abandoned := by
  by_cases same : other = id
  · subst same
    simp only [clientHandler, abandoned]
  · have kept (conn : Conn) : ((s.put other conn).conns id).stage = .abandoned := by
      rwa [put_other s conn (Ne.symm same)]
    unfold clientHandler
    dsimp only
    split <;> (try split) <;> first | exact kept _ | exact abandoned

theorem serverStop_stage (timedOut : Bool) (id : Nat) :
    ((serverStop s timedOut).conns id).stage = (s.conns id).stage := by
  unfold serverStop
  split
  · rfl
  · split <;> rfl
  · next walked rest _ =>
    by_cases same : id = walked
    · subst same
      simp [State.put, closeFd_same]
    · exact congrArg Conn.stage (put_other s _ same)
  · rfl
  · split <;> rfl
  · rfl

/-- An abandoned client stays so. -/
theorem step_abandoned (sound : Sound s) (input : Input) (abandoned : Abandoned s) :
    Abandoned (step maxConnections s input) := by
  obtain ⟨id, stage⟩ := abandoned
  cases input with
  | acceptLoop answer granted => exact ⟨id, acceptLoop_abandoned sound answer granted stage⟩
  | clientHandler other received => exact ⟨id, clientHandler_abandoned other received stage⟩
  | serverStop timedOut => exact ⟨id, (serverStop_stage timedOut id).trans stage⟩

/-- No stage but that of a handler that starts too late becomes abandoned. -/
theorem put_abandons {other : Nat} (apart : conn.stage ≠ .abandoned)
    (abandoned : ((s.put other conn).conns id).stage = .abandoned) :
    (s.conns id).stage = .abandoned := by
  by_cases same : id = other
  · subst same
    exact absurd ((congrArg Conn.stage (Function.update_self ..)).symm.trans abandoned) apart
  · rwa [put_other s conn same] at abandoned

theorem acceptLoop_abandons (answer : AcceptAnswer) (granted : Bool)
    (abandoned : ((acceptLoop maxConnections s answer granted).conns id).stage = .abandoned) :
    (s.conns id).stage = .abandoned := by
  unfold acceptLoop at abandoned
  split at abandoned
  · exact abandoned
  · exact abandoned
  · cases answer with
    | connection => exact put_abandons (by simp) abandoned
    | again => exact abandoned
    | failed => exact abandoned
  · dsimp only at abandoned
    split at abandoned <;> (try split at abandoned) <;> (try split at abandoned) <;>
      first | exact abandoned | exact put_abandons (by simp) abandoned

theorem clientHandler_abandons {other : Nat} {received : Bool}
    (abandoned : ((clientHandler s other received).conns id).stage = .abandoned) :
    (s.conns id).stage = .abandoned ∨
      (s.conns other).stage = .waiting ∧ (s.conns other).fdOpen = false := by
  unfold clientHandler at abandoned
  dsimp only at abandoned
  split at abandoned
  · next waiting =>
    split at abandoned
    · exact .inl (put_abandons (by simp) abandoned)
    · next shut => exact .inr ⟨waiting, by simpa using shut⟩
  all_goals
    try split at abandoned
    all_goals first | exact .inl abandoned | exact .inl (put_abandons (by simp) abandoned)

theorem step_timely (none : ¬ Abandoned s) (input : Input) :
    ¬ Abandoned (step maxConnections s input) ↔ Timely s input := by
  cases input with
  | acceptLoop answer granted =>
    exact iff_of_true (fun ⟨id, stage⟩ => none ⟨id, acceptLoop_abandons answer granted stage⟩) trivial
  | serverStop timedOut =>
    exact iff_of_true (fun ⟨id, stage⟩ => none ⟨id, (serverStop_stage timedOut id).symm.trans stage⟩)
      trivial
  | clientHandler other received =>
    constructor
    · intro after waiting
      by_contra shut
      refine after ⟨other, ?_⟩
      simp [step, clientHandler, waiting, shut, State.setStage, State.put]
    · rintro timely ⟨id, stage⟩
      rcases clientHandler_abandons stage with before | ⟨waiting, shut⟩
      · exact none ⟨id, before⟩
      · simp [timely waiting] at shut

theorem abandoned_later (maxConnections : Int) (past rest : List Input)
    (abandoned : Abandoned (run maxConnections past)) :
    Abandoned (run maxConnections (past ++ rest)) := by
  induction rest using List.reverseRecOn with
  | nil => rwa [List.append_nil]
  | append_singleton rest input ih =>
    rw [← List.append_assoc, run, Run.run_snoc]
    exact step_abandoned (run_sound maxConnections (past ++ rest)) input ih

/-- A run leaves no abandoned client exactly if every handler looks in time. -/
theorem abandons_none_iff (maxConnections : Int) (inputs : List Input) :
    ¬ Abandoned (run maxConnections inputs) ↔
      Run.Always (step maxConnections) .initial Timely inputs := by
  have exact_run := Run.invariant_iff (step maxConnections) .initial Timely
    (fun s => Sound s ∧ ¬ Abandoned s) ⟨Sound.initial, by simp [Abandoned, State.initial]⟩
    (fun s input ⟨sound, clean⟩ =>
      (and_iff_right (step_sound sound input)).trans (step_timely clean input)) inputs
  rw [← exact_run]
  constructor
  · rintro none past rest rfl
    exact ⟨run_sound maxConnections past, fun earlier => none (abandoned_later _ past rest earlier)⟩
  · intro all
    exact (all inputs [] (by simp)).2

/-- The bookkeeping is right in every state of a run, and complete whenever all threads have
returned, exactly if up to such a state each handler had looked in time. -/
theorem run_booked_iff (maxConnections : Int) (inputs : List Input) :
    (∀ past rest, inputs = past ++ rest →
        ((run maxConnections past).locked = false → Booked (run maxConnections past)) ∧
        (Finished (run maxConnections past) → Drained (run maxConnections past))) ↔
      ∀ past rest, inputs = past ++ rest → Finished (run maxConnections past) →
        Run.Always (step maxConnections) .initial Timely past := by
  constructor
  · intro right past rest split finished
    have drained := (right past rest split).2 finished
    exact (abandons_none_iff maxConnections past).mp
      (((run_sound maxConnections past).drained_iff finished).mp drained)
  · intro timely past rest split
    have sound := run_sound maxConnections past
    refine ⟨fun _ => sound.booked, fun finished => (sound.drained_iff finished).mpr ?_⟩
    exact (abandons_none_iff maxConnections past).mpr (timely past rest split finished)

/-- server_stop closes the one client before its handler has run at all. -/
def lateHandler : List Input :=
  [.acceptLoop .connection true, .acceptLoop .connection true, .acceptLoop .connection true,
    .acceptLoop .connection true, .acceptLoop .connection true, .acceptLoop .connection true,
    .acceptLoop .connection true, .serverStop false, .acceptLoop .connection true,
    .serverStop false, .serverStop false, .serverStop false, .clientHandler 0 true]

theorem lateHandler_leaks : Finished (run 10 lateHandler) ∧ ¬ Drained (run 10 lateHandler) := by
  refine ⟨⟨by decide, by decide⟩, fun drained => ?_⟩
  have empty := drained.empty
  revert empty
  decide

end StreamRelay.Server.Connections
