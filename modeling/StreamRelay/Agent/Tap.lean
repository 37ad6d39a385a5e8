import StreamRelay.Agent.Handshake
import StreamRelay.Run

/-! The agent's start and its video connections. The accept thread runs as soon as the listener
is there, and main sets the token after that. -/
namespace StreamRelay.Agent.Tap

/-- Where main is. -/
inductive Main where
  | starting
  | exited
  | started
  | tokenSet
  deriving DecidableEq, Repr

structure TapClient where
  conn : Nat
  streamId : UInt16
  deriving DecidableEq, Repr

/-- What the accept thread is at. -/
inductive Phase where
  | accepting
  | shaking (conn : Nat) (handshake : Handshake)
  | subscribed (conn : Nat) (sid : UInt16)
  deriving DecidableEq, Repr

/-- Connections are numbered as they are accepted; got is what a handshake took from each. -/
structure State where
  main : Main
  running : Bool
  videoToken : Bytes
  phase : Phase
  clients : Nat → Option TapClient
  connections : Nat
  got : Nat → Bytes

def State.init : State := ⟨.starting, false, [], .accepting, fun _ => none, 0, fun _ => []⟩

def tapMaxClients : Nat := 16

/-- The size of both buffers that hold the token, a zero byte included. -/
def tokenSize : Nat := 256

/-- AgentCfg.token after the command line. -/
def cfgToken (argument : Bytes) : Bytes := argument.take (tokenSize - 1)

inductive StartAnswer where
  | failed
  | noPort
  | listening
  deriving DecidableEq, Repr

/-- A step of main, of the accept thread, or of a publisher that finds clients dead. While
snprintf writes the token its buffer may hold anything. -/
inductive Input where
  | start (answer : StartAnswer)
  | writing (content : Bytes)
  | setToken
  | accept
  | recv (late : Bool) (answer : RecvAnswer)
  | place (dead deadLater : Nat → Bool)
  | publish (dead : Nat → Bool)

namespace State

/-- The clients that are found dead are closed. -/
def prune (dead : Nat → Bool) (s : State) : State :=
  {s with clients := fun i => if dead i then none else s.clients i}

def firstFree (s : State) : Option Nat :=
  (List.range tapMaxClients).find? fun i => (s.clients i).isNone

def putClient (client : TapClient) (s : State) : Option State :=
  s.firstFree.map fun i => {s with clients := Function.update s.clients i (some client)}

/-- A second search follows if there was no free slot; then the connection is closed. -/
def place (client : TapClient) (dead deadLater : Nat → Bool) (s : State) : State :=
  let s := {s with phase := .accepting}.prune dead
  match s.putClient client with
  | some s => s
  | none =>
    let s := s.prune deadLater
    (s.putClient client).getD s

def shake (conn : Nat) (handshake : Handshake) (late : Bool) (answer : RecvAnswer) (s : State) :
    State :=
  let round := handshake.round s.videoToken late answer
  {s with
    got := Function.update s.got conn (s.got conn ++ round.2)
    phase :=
      match round.1 with
      | .refused => .accepting
      | .subscribed sid => .subscribed conn sid
      | .waiting handshake => .shaking conn handshake}

end State

def step (argument : Bytes) (s : State) : Input → State
  | .start answer =>
    if s.main = .starting then
      match answer with
      | .failed => {s with main := .exited}
      | .noPort => {s with main := .started}
      | .listening => {s with main := .started, running := true}
    else s
  | .writing content => if s.main = .started then {s with videoToken := content} else s
  | .setToken =>
    if s.main = .started then
      {s with main := .tokenSet, videoToken := (cfgToken argument).take (tokenSize - 1)}
    else s
  | .accept =>
    if s.running && s.phase = .accepting then
      {s with
        phase := .shaking s.connections (.begin s.videoToken)
        connections := s.connections + 1}
    else s
  | .recv late answer =>
    match s.phase with
    | .shaking conn handshake => s.shake conn handshake late answer
    | _ => s
  | .place dead deadLater =>
    match s.phase with
    | .subscribed conn sid => s.place ⟨conn, sid⟩ dead deadLater
    | _ => s
  | .publish dead => s.prune dead

def run (argument : Bytes) (inputs : List Input) : State := Run.run (step argument) .init inputs

/-- A handshake begins after the token is set. -/
def Disciplined (s : State) : Input → Prop
  | .accept => s.main = .tokenSet
  | _ => True

/-- What the accept thread knows of the connection it is at. -/
def Phase.Authentic (token : Bytes) (s : State) : Phase → Prop
  | .accepting => True
  | .shaking conn handshake =>
    conn < s.connections ∧ s.main = .tokenSet ∧ handshake.Knows token (s.got conn)
  | .subscribed conn _ => Presented token (s.got conn)

/-- Whoever holds a slot, or is about to, has presented the token. -/
structure Authentic (token : Bytes) (s : State) : Prop where
  memory : s.main = .tokenSet → s.videoToken = token
  fresh : ∀ conn, s.connections ≤ conn → s.got conn = []
  phase : s.phase.Authentic token s
  clients : ∀ i client, s.clients i = some client → Presented token (s.got client.conn)

variable {token : Bytes} {s t : State}

/-- The clients after a change are clients from before it. -/
theorem Authentic.fewer (authentic : Authentic token s) (main : t.main = s.main)
    (memory : t.videoToken = s.videoToken) (connections : t.connections = s.connections)
    (got : t.got = s.got) (phase : t.phase = s.phase ∨ t.phase = .accepting)
    (clients : ∀ i client, t.clients i = some client → s.clients i = some client) :
    Authentic token t := by
  constructor
  · rw [main, memory]
    exact authentic.memory
  · rw [connections, got]
    exact authentic.fresh
  · rcases phase with same | idle
    · have before := authentic.phase
      rw [same]
      cases stands : s.phase with
      | accepting => trivial
      | shaking conn handshake =>
        rw [stands] at before
        simp only [Phase.Authentic, main, connections, got]
        exact before
      | subscribed conn sid =>
        rw [stands] at before
        simp only [Phase.Authentic, got]
        exact before
    · rw [idle]
      trivial
  · intro i client held
    rw [got]
    exact authentic.clients i client (clients i client held)

theorem prune_clients {dead : Nat → Bool} {i : Nat} {client : TapClient}
    (held : (s.prune dead).clients i = some client) : s.clients i = some client := by
  simp only [State.prune] at held
  split at held
  · cases held
  · exact held

theorem Authentic.prune (authentic : Authentic token s) (dead : Nat → Bool) :
    Authentic token (s.prune dead) :=
  authentic.fewer rfl rfl rfl rfl (Or.inl rfl) fun _ _ => prune_clients

theorem Authentic.putClient (authentic : Authentic token s) {client : TapClient}
    (presented : Presented token (s.got client.conn)) (put : s.putClient client = some t) :
    Authentic token t := by
  simp only [State.putClient, Option.map_eq_some_iff] at put
  obtain ⟨slot, -, rfl⟩ := put
  refine ⟨authentic.memory, authentic.fresh, ?_, ?_⟩
  · have before := authentic.phase
    dsimp only
    cases stands : s.phase with
    | accepting => trivial
    | shaking conn handshake | subscribed conn sid =>
      rw [stands] at before
      exact before
  · intro i held taken
    dsimp only at taken ⊢
    by_cases same : i = slot
    · subst same
      rw [Function.update_self] at taken
      obtain rfl := Option.some.inj taken
      exact presented
    · rw [Function.update_of_ne same] at taken
      exact authentic.clients i held taken

theorem Authentic.place (authentic : Authentic token s) (client : TapClient)
    (presented : Presented token (s.got client.conn)) (dead deadLater : Nat → Bool) :
    Authentic token (s.place client dead deadLater) := by
  have idle : Authentic token {s with phase := .accepting} :=
    authentic.fewer rfl rfl rfl rfl (Or.inr rfl) fun _ _ held => held
  have pruned := idle.prune dead
  simp only [State.place]
  split
  · rename_i put
    exact pruned.putClient presented put
  · cases put : ((({s with phase := .accepting} : State).prune dead).prune deadLater).putClient
      client with
    | none => exact pruned.prune deadLater
    | some t => exact (pruned.prune deadLater).putClient presented put

/-- What a connection has sent stays sent. -/
theorem presented_update {conn : Nat} {more : Bytes} {other : Nat}
    (presented : Presented token (s.got other)) :
    Presented token (Function.update s.got conn (s.got conn ++ more) other) := by
  by_cases same : other = conn
  · subst same
    rw [Function.update_self]
    exact presented.append more
  · rw [Function.update_of_ne same]
    exact presented

theorem Authentic.shake (authentic : Authentic token s) {conn : Nat} {handshake : Handshake}
    (stands : s.phase = .shaking conn handshake) (late : Bool) (answer : RecvAnswer) :
    Authentic token (s.shake conn handshake late answer) := by
  have before := authentic.phase
  rw [stands] at before
  obtain ⟨known, set, knows⟩ := before
  have round := Handshake.round_knows late answer knows
  have memory := authentic.memory set
  simp only [State.shake, memory]
  refine ⟨fun _ => rfl, ?_, ?_, ?_⟩
  · intro other beyond
    have apart : other ≠ conn := by
      rintro rfl
      exact absurd known (Nat.not_lt.mpr beyond)
    dsimp only
    rw [Function.update_of_ne apart]
    exact authentic.fresh other beyond
  · revert round
    cases (handshake.round token late answer).1 with
    | refused => exact fun _ => trivial
    | subscribed sid =>
      intro presented
      simp only [Phase.Authentic, Function.update_self]
      exact presented
    | waiting next =>
      intro knows
      simp only [Phase.Authentic, Function.update_self]
      exact ⟨known, set, knows⟩
  · intro i client held
    exact presented_update (authentic.clients i client held)

theorem Authentic.accept (authentic : Authentic token s) (nonempty : token ≠ [])
    (set : s.main = .tokenSet) :
    Authentic token {s with
      phase := .shaking s.connections (.begin s.videoToken)
      connections := s.connections + 1} := by
  refine ⟨authentic.memory, ?_, ?_, authentic.clients⟩
  · intro conn beyond
    exact authentic.fresh conn (Nat.le_of_succ_le beyond)
  · refine ⟨Nat.lt_succ_self _, set, ?_, ?_⟩
    · intro authed
      rw [authentic.memory set] at authed
      exact absurd (of_decide_eq_true authed) nonempty
    · intro _
      exact (authentic.fresh s.connections le_rfl).symm

/-- Before the token is set nobody is past its check. -/
theorem Authentic.beforeSet (authentic : Authentic token s) (unset : s.main ≠ .tokenSet)
    (connections : t.connections = s.connections) (got : t.got = s.got) (phase : t.phase = s.phase)
    (clients : t.clients = s.clients) (memory : t.main = .tokenSet → t.videoToken = token) :
    Authentic token t := by
  refine ⟨memory, ?_, ?_, ?_⟩
  · rw [connections, got]
    exact authentic.fresh
  · have before := authentic.phase
    rw [phase]
    cases stands : s.phase with
    | accepting => trivial
    | shaking conn handshake =>
      rw [stands] at before
      exact absurd before.2.1 unset
    | subscribed conn sid =>
      rw [stands] at before
      simp only [Phase.Authentic, got]
      exact before
  · rw [clients, got]
    exact authentic.clients

theorem step_authentic {argument : Bytes} (nonempty : argument ≠ [])
    (short : argument.length < tokenSize) (input : Input) (authentic : Authentic argument s)
    (disciplined : Disciplined s input) : Authentic argument (step argument s input) := by
  have whole : (cfgToken argument).take (tokenSize - 1) = argument := by
    have fits : argument.length ≤ tokenSize - 1 := Nat.le_pred_of_lt short
    rw [cfgToken, List.take_of_length_le fits, List.take_of_length_le fits]
  cases input with
  | start answer =>
    simp only [step]
    split
    · rename_i starting
      have unset : s.main ≠ .tokenSet := by
        rw [starting]
        decide
      cases answer <;> exact authentic.beforeSet unset rfl rfl rfl rfl nofun
    · exact authentic
  | writing content =>
    simp only [step]
    split
    · rename_i started
      have unset : s.main ≠ .tokenSet := by
        rw [started]
        decide
      exact authentic.beforeSet unset rfl rfl rfl rfl fun set => absurd set unset
    · exact authentic
  | setToken =>
    simp only [step, whole]
    split
    · rename_i started
      have unset : s.main ≠ .tokenSet := by
        rw [started]
        decide
      exact authentic.beforeSet unset rfl rfl rfl rfl fun _ => rfl
    · exact authentic
  | accept =>
    simp only [step]
    split
    · exact authentic.accept nonempty disciplined
    · exact authentic
  | recv late answer =>
    simp only [step]
    split
    · rename_i stands
      exact authentic.shake stands late answer
    · exact authentic
  | place dead deadLater =>
    simp only [step]
    split
    · rename_i conn sid stands
      have presented := authentic.phase
      rw [stands] at presented
      exact authentic.place ⟨conn, sid⟩ presented dead deadLater
    · exact authentic
  | publish dead => exact authentic.prune dead

theorem init_authentic : Authentic token .init :=
  ⟨nofun, fun _ _ => rfl, trivial, nofun⟩

/-- If no handshake begins before the token is set, only clients that presented the token hold
slots. -/
theorem run_authentic {argument : Bytes} (nonempty : argument ≠ [])
    (short : argument.length < tokenSize) (inputs : List Input)
    (always : Run.Always (step argument) .init Disciplined inputs) (slot : Nat)
    (client : TapClient) (held : (run argument inputs).clients slot = some client) :
    Presented argument ((run argument inputs).got client.conn) := by
  have authentic := Run.history_while (step argument) .init Disciplined
    (fun _ s => Authentic argument s) init_authentic
    (fun past input kept allowed => step_authentic nonempty short input kept allowed) inputs always
  exact authentic.clients slot client held

instance (s : State) : (input : Input) → Decidable (Disciplined s input)
  | .accept => inferInstanceAs (Decidable (s.main = .tokenSet))
  | .start _ | .writing _ | .setToken | .recv _ _ | .place _ _ | .publish _ => isTrue trivial

/-- "abc" -/
def sampleToken : Bytes := [97, 98, 99]

/-- "SUB 1" and a newline -/
def sampleSub : Bytes := [83, 85, 66, 32, 49, 10]

def alive (_ : Nat) : Bool := false

def plainInputs : List Input :=
  [.start .listening, .setToken, .accept, .recv false (.data (authWord ++ sampleToken ++ [13])),
    .recv false (.data (10 :: sampleSub)), .place alive alive]

theorem run_authentic_plain :
    Presented sampleToken ((run sampleToken plainInputs).got 0) :=
  run_authentic (by decide) (by decide) plainInputs (by decide) 0 ⟨0, 1⟩ (by decide)

/-- The token as a line begins what was presented. -/
theorem presented_begins {sent : Bytes} (presented : Presented token sent) :
    authWord ++ token <+: sent := by
  obtain ⟨line, rest, rfl, -, same⟩ := presented
  rw [← same]
  exact (List.rdropWhile_prefix _ line).trans (List.prefix_append line _)

/-- A client that connects before main sets the token. -/
def earlyInputs : List Input :=
  [.start .listening, .accept, .setToken, .recv false (.data sampleSub), .place alive alive]

theorem not_authentic_early :
    (run sampleToken earlyInputs).clients 0 = some ⟨0, 1⟩ ∧
      (run sampleToken earlyInputs).got 0 = sampleSub ∧ ¬Presented sampleToken sampleSub :=
  ⟨by decide, by decide, fun presented => absurd (presented_begins presented) (by decide)⟩

end StreamRelay.Agent.Tap
