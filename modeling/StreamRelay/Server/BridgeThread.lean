import StreamRelay.Server.Router

/-! The end of the bridge thread. The request loop asks for the running flag and the
receives fail once the ZeroMQ context is shut down, but the wait for a frame asks for the
client's deadline only, and the context is terminated behind the replies that clients have not
got: a shutdown finds its end exactly when no request is waiting and no reply is left. -/
namespace StreamRelay.Server.BridgeThread

variable {Picture Socket Act : Type*}

/-- The ZeroMQ library behind the bridge's socket: what sending a reply does to it, what it and the
clients do by themselves, the messages that are not transferred yet, and whether zmq_ctx_term
returns once the socket is closed. -/
structure Zmq (Socket Act : Type*) where
  start : Socket
  send : Socket → Socket
  act : Act → Socket → Socket
  unsent : Socket → Nat
  terminates : Socket → Bool

/-- The bridge sets no ZMQ_LINGER, so zmq_ctx_term waits without a limit until all messages are
transferred. Only a send adds to them. -/
structure Zmq.Documented (zmq : Zmq Socket Act) : Prop where
  terminates : ∀ socket, zmq.terminates socket = true ↔ zmq.unsent socket = 0
  transfers : ∀ act socket, zmq.unsent (zmq.act act socket) ≤ zmq.unsent socket

/-- Where the thread is. `first` is before the first attempt at a frame, `waiting` at the
test of the frame-wait loop, and `closing` behind the request loop. -/
inductive Stage where
  | head
  | receiving (receive : Receive)
  | serving (request : RoutedRequest)
  | first (request : FrameRequest)
  | waiting (request : FrameRequest) (deadlineNs : Nat)
  | replying
  | closing
  | returned

structure State (Picture Socket : Type*) where
  bridge : Bridge Picture
  socket : Socket
  running : Bool
  contextShut : Bool
  nowNs : Nat
  stage : Stage

/-- What a step of the thread is given: the frame of a receive, with ZMQ_RCVMORE, if it
does not fail, and how an attempt goes. -/
structure Answer where
  received : Option (Part × Bool)
  convert : ConvertAnswers

inductive Event (Act : Type*) where
  | server (input : Input)
  | socket (act : Act)
  | elapse (ns : Nat)
  | clearRunning
  | shutdownContext
  | thread (answer : Answer)

section
variable (zmq : Zmq Socket Act) (cfg : ServerConfig) (codec : Codec Picture)
  (convert : Conversion Picture)

def start : State Picture Socket := ⟨.start, zmq.start, true, false, 0, .head⟩

/-- recv_frame, after which a failure goes back to the loop's head. -/
def receive (s : State Picture Socket) (pending : Receive) (received : Option (Part × Bool)) : Stage :=
  if s.contextShut then .head
  else
    match received with
    | none => .head
    | some (part, more) =>
      match pending.take part more with
      | (_, some request) => .serving request
      | (.identity, none) => .head
      | (next, none) => .receiving next

def getLatestBgr : Bytes := ascii ['G', 'E', 'T', '_', 'L', 'A', 'T', 'E', 'S', 'T', '_', 'B', 'G', 'R']

/-- What the command of a request leads to; anything but a frame is replied to at once. -/
def serve (request : RoutedRequest) : Stage :=
  if request.cmd.bytes = getLatestBgr then
    match frameRequest cfg request.jsonBytes with
    | .error _ => .replying
    | .ok request => .first request
  else .replying

/-- An attempt at the frame, and where the thread goes on without one. -/
def attempt (s : State Picture Socket) (request : FrameRequest) (answers : ConvertAnswers)
    (without : Stage) : State Picture Socket :=
  match s.bridge.convertLastFrameToBgr cfg convert request.streamId answers with
  | (bridge, some _) => {s with bridge := bridge, stage := .replying}
  | (bridge, none) => {s with bridge := bridge, stage := without}

def deadline (nowNs : Nat) (timeoutMs : Int) : Nat := nowNs + timeoutMs.toNat * 1000000

def thread (s : State Picture Socket) (answer : Answer) : State Picture Socket :=
  match s.stage with
  | .head => {s with stage := if s.running then .receiving .identity else .closing}
  | .receiving pending => {s with stage := receive s pending answer.received}
  | .serving request => {s with stage := serve cfg request}
  | .first request =>
    attempt cfg convert s request answer.convert
      (if request.timeoutMs = 0 then .replying
        else .waiting request (deadline s.nowNs request.timeoutMs))
  | .waiting request deadlineNs =>
    if request.timeoutMs < 0 || s.nowNs < deadlineNs then
      attempt cfg convert s request answer.convert (.waiting request deadlineNs)
    else {s with stage := .replying}
  | .replying =>
    {s with socket := if s.contextShut then s.socket else zmq.send s.socket, stage := .head}
  -- zmq_close, zmq_ctx_term and clearing the cache
  | .closing => if zmq.terminates s.socket then {s with stage := .returned} else s
  | .returned => s

def step (s : State Picture Socket) : Event Act → State Picture Socket
  | .server input => {s with bridge := Bridge.step cfg codec convert s.bridge (.server input)}
  | .socket act => {s with socket := zmq.act act s.socket}
  | .elapse ns => {s with nowNs := s.nowNs + ns}
  | .clearRunning => {s with running := false}
  | .shutdownContext => {s with contextShut := true}
  | .thread answer => thread zmq cfg convert s answer

def run (events : List (Event Act)) : State Picture Socket :=
  Run.run (step zmq cfg codec convert) (start zmq) events

def isThread : Event Act → Bool
  | .thread _ => true
  | _ => false

/-- The steps of the thread among the events. -/
def threadSteps (events : List (Event Act)) : Nat := events.countP isThread

/-- After four more steps the thread has left its loops, whatever else happens and takes time. -/
def Leaves (past : List (Event Act)) : Prop :=
  ∀ rest, 4 ≤ threadSteps rest → (run zmq cfg codec convert (past ++ rest)).stage = .closing ∨
    (run zmq cfg codec convert (past ++ rest)).stage = .returned

/-- Five more steps of the thread are its last, so that it can be joined. -/
def Ends (past : List (Event Act)) : Prop :=
  ∀ rest, 5 ≤ threadSteps rest → (run zmq cfg codec convert (past ++ rest)).stage = .returned

/-- No request is waiting for a frame or about to: the one in hand, if any, allows no time
or its time is over. -/
def Unwaiting (nowNs : Nat) : Stage → Prop
  | .serving request => ∀ frame, serve cfg request = .first frame → frame.timeoutMs = 0
  | .first request => request.timeoutMs = 0
  | .waiting request deadlineNs => 0 ≤ request.timeoutMs ∧ deadlineNs ≤ nowNs
  | _ => True

structure Stopped (s : State Picture Socket) : Prop where
  running : s.running = false
  contextShut : s.contextShut = true

/-- The steps that are left of a thread that does not wait. -/
def rank : Stage → Nat
  | .returned => 0
  | .closing => 1
  | .head => 2
  | .receiving _ | .replying => 3
  | .first _ | .waiting .. => 4
  | .serving _ => 5

end

section
variable {zmq : Zmq Socket Act} {cfg : ServerConfig} {codec : Codec Picture}
  {convert : Conversion Picture} {s : State Picture Socket}

variable (cfg convert s) in
/-- An attempt changes the cache and the stage only. -/
theorem attempt_frame (request : FrameRequest) (answers : ConvertAnswers) (without : Stage) :
    let next := attempt cfg convert s request answers without
    (next.running = s.running ∧ next.contextShut = s.contextShut ∧ next.nowNs = s.nowNs ∧
      next.socket = s.socket) ∧ (next.stage = .replying ∨ next.stage = without) := by
  unfold attempt
  split
  · exact ⟨⟨rfl, rfl, rfl, rfl⟩, .inl rfl⟩
  · exact ⟨⟨rfl, rfl, rfl, rfl⟩, .inr rfl⟩

variable (zmq cfg convert s) in
theorem thread_frame (answer : Answer) :
    (thread zmq cfg convert s answer).running = s.running ∧
      (thread zmq cfg convert s answer).contextShut = s.contextShut ∧
      (thread zmq cfg convert s answer).nowNs = s.nowNs ∧
      (s.contextShut = true → (thread zmq cfg convert s answer).socket = s.socket) := by
  unfold thread
  split
  case h_4 =>
    obtain ⟨⟨running, shut, now, socket⟩, -⟩ := attempt_frame cfg convert s _ answer.convert _
    exact ⟨running, shut, now, fun _ => socket⟩
  case h_5 =>
    split
    · obtain ⟨⟨running, shut, now, socket⟩, -⟩ := attempt_frame cfg convert s _ answer.convert _
      exact ⟨running, shut, now, fun _ => socket⟩
    · exact ⟨rfl, rfl, rfl, fun _ => rfl⟩
  case h_6 => exact ⟨rfl, rfl, rfl, fun shut => if_pos shut⟩
  case h_7 => split <;> exact ⟨rfl, rfl, rfl, fun _ => rfl⟩
  all_goals exact ⟨rfl, rfl, rfl, fun _ => rfl⟩

theorem Stopped.step (stopped : Stopped s) (event : Event Act) :
    Stopped (step zmq cfg codec convert s event) := by
  cases event with
  | server input | socket act | elapse ns => exact ⟨stopped.running, stopped.contextShut⟩
  | clearRunning => exact ⟨rfl, stopped.contextShut⟩
  | shutdownContext => exact ⟨stopped.running, rfl⟩
  | thread answer =>
    obtain ⟨running, shut, -⟩ := thread_frame zmq cfg convert s answer
    exact ⟨running.trans stopped.running, shut.trans stopped.contextShut⟩

variable (cfg) in
theorem serve_stage (request : RoutedRequest) :
    serve cfg request = .replying ∨ ∃ frame, serve cfg request = .first frame := by
  unfold serve
  split
  · split
    · exact .inl rfl
    · next frame _ => exact .inr ⟨frame, rfl⟩
  · exact .inl rfl

/-- A thread that does not wait has a step less left after each, but for the last one, which takes
until nothing is left to be transferred. -/
theorem thread_unwaiting (documented : zmq.Documented) (convert : Conversion Picture)
    (stopped : Stopped s) (unwaiting : Unwaiting cfg s.nowNs s.stage) (answer : Answer) :
    Unwaiting cfg s.nowNs (thread zmq cfg convert s answer).stage ∧
      rank (thread zmq cfg convert s answer).stage - 1 ≤ rank s.stage - 1 - 1 ∧
      (zmq.unsent s.socket = 0 → rank (thread zmq cfg convert s answer).stage ≤ rank s.stage - 1) := by
  unfold thread
  split
  case h_1 stage => simp [stopped.running, stage, Unwaiting, rank]
  case h_2 pending stage => simp [receive, stopped.contextShut, stage, Unwaiting, rank]
  case h_3 request stage =>
    rw [stage] at unwaiting
    rcases serve_stage cfg request with replies | ⟨frame, asks⟩
    · simp [replies, stage, Unwaiting, rank]
    · simp [asks, stage, Unwaiting, rank, unwaiting frame asks]
  case h_4 request stage =>
    have none : request.timeoutMs = 0 := by rwa [stage] at unwaiting
    rw [if_pos none]
    rcases (attempt_frame cfg convert s request answer.convert .replying).2 with found | failed
    · simp [found, stage, Unwaiting, rank]
    · simp [failed, stage, Unwaiting, rank]
  case h_5 request deadlineNs stage =>
    have ended : 0 ≤ request.timeoutMs ∧ deadlineNs ≤ s.nowNs := by rwa [stage] at unwaiting
    rw [if_neg (by simp; omega)]
    simp [stage, Unwaiting, rank]
  case h_6 stage => simp [stage, Unwaiting, rank]
  case h_7 stage =>
    split
    · simp [stage, Unwaiting, rank]
    · next stays =>
      have left : zmq.unsent s.socket ≠ 0 := fun none => stays ((documented.terminates _).mpr none)
      simp [stage, Unwaiting, rank, left]
  case h_8 stage => simp [stage, Unwaiting, rank]

theorem Unwaiting.later {nowNs laterNs : Nat} {stage : Stage} (unwaiting : Unwaiting cfg nowNs stage)
    (passed : nowNs ≤ laterNs) : Unwaiting cfg laterNs stage := by
  cases stage with
  | waiting request deadlineNs => exact ⟨unwaiting.1, unwaiting.2.trans passed⟩
  | _ => exact unwaiting

/-- What a thread that does not wait has left after more events, up to its last `spare` steps. -/
structure Leaving (zmq : Zmq Socket Act) (cfg : ServerConfig) (spare total steps : Nat)
    (s : State Picture Socket) : Prop where
  stopped : Stopped s
  unwaiting : Unwaiting cfg s.nowNs s.stage
  sent : spare = 0 → zmq.unsent s.socket = 0
  left : rank s.stage - spare ≤ total - steps

theorem Leaving.step (documented : zmq.Documented) {spare total steps : Nat} (few : spare ≤ 1)
    (leaving : Leaving zmq cfg spare total steps s) (event : Event Act) :
    Leaving zmq cfg spare total (steps + threadSteps [event])
      (step zmq cfg codec convert s event) := by
  have stopped : Stopped (BridgeThread.step zmq cfg codec convert s event) :=
    leaving.stopped.step event
  cases event with
  | server input => exact ⟨stopped, leaving.unwaiting, leaving.sent, leaving.left⟩
  | socket act =>
    refine ⟨stopped, leaving.unwaiting, fun all => ?_, leaving.left⟩
    exact Nat.le_zero.mp ((documented.transfers act s.socket).trans (leaving.sent all).le)
  | elapse ns =>
    exact ⟨stopped, leaving.unwaiting.later (Nat.le_add_right ..), leaving.sent, leaving.left⟩
  | clearRunning => exact ⟨stopped, leaving.unwaiting, leaving.sent, leaving.left⟩
  | shutdownContext => exact ⟨stopped, leaving.unwaiting, leaving.sent, leaving.left⟩
  | thread answer =>
    obtain ⟨-, -, now, socket⟩ := thread_frame zmq cfg convert s answer
    obtain ⟨unwaiting, loops, last⟩ :=
      thread_unwaiting documented convert leaving.stopped leaving.unwaiting answer
    have same : (thread zmq cfg convert s answer).socket = s.socket :=
      socket leaving.stopped.contextShut
    refine ⟨stopped, ?_, ?_, ?_⟩
    · rw [BridgeThread.step, now]
      exact unwaiting
    · rw [BridgeThread.step, same]
      exact leaving.sent
    · have left := leaving.left
      simp only [BridgeThread.step, threadSteps, isThread, List.countP_singleton, if_true]
      interval_cases spare
      · have less := last (leaving.sent rfl)
        omega
      · omega

theorem rank_le (stage : Stage) : rank stage ≤ 5 := by
  cases stage <;> simp [rank]

/-- A thread that does not wait when it is stopped is soon through. -/
theorem leaving_run (documented : zmq.Documented) {spare : Nat} (few : spare ≤ 1)
    (past rest : List (Event Act)) (stopped : Stopped (run zmq cfg codec convert past))
    (unwaiting : Unwaiting cfg (run zmq cfg codec convert past).nowNs
      (run zmq cfg codec convert past).stage)
    (sent : spare = 0 → zmq.unsent (run zmq cfg codec convert past).socket = 0) :
    rank (run zmq cfg codec convert (past ++ rest)).stage - spare ≤ 5 - spare - threadSteps rest := by
  have leaving := Run.history (step zmq cfg codec convert) (run zmq cfg codec convert past)
    (fun rest s => Leaving zmq cfg spare (5 - spare) (threadSteps rest) s)
    ⟨stopped, unwaiting, sent, Nat.sub_le_sub_right (rank_le _) spare⟩
    (fun before event leaving => by
      rw [threadSteps, List.countP_append]
      exact leaving.step documented few event) rest
  rw [run, Run.run_append]
  exact leaving.left

/-- An attempt for which there is no memory, and no frame of a receive. -/
def denied : Answer := ⟨none, ⟨false, false, false, 0⟩⟩

/-- A client that sets no limit, and a stream that has no frame. -/
structure Endless (request : FrameRequest) (s : State Picture Socket) : Prop where
  stage : ∃ deadlineNs, s.stage = .waiting request deadlineNs
  frameless : (s.bridge.server.streams request.streamId).lastFrame = none

/-- Without the stream's next frame that goes on, whatever the clock says. -/
theorem Endless.step {request : FrameRequest} (unlimited : request.timeoutMs < 0)
    (endless : Endless request s) (event : Event Act) (apart : ∀ input, event ≠ .server input) :
    Endless request (step zmq cfg codec convert s event) := by
  obtain ⟨⟨deadlineNs, stage⟩, frameless⟩ := endless
  cases event with
  | server input => exact absurd rfl (apart input)
  | socket act => exact ⟨⟨deadlineNs, stage⟩, frameless⟩
  | elapse ns => exact ⟨⟨deadlineNs, stage⟩, frameless⟩
  | clearRunning => exact ⟨⟨deadlineNs, stage⟩, frameless⟩
  | shutdownContext => exact ⟨⟨deadlineNs, stage⟩, frameless⟩
  | thread answer =>
    have none : s.bridge.snapshot request.streamId answer.convert = none := by
      rw [Bridge.snapshot, frameless]
      rfl
    have fails : thread zmq cfg convert s answer = {s with stage := .waiting request deadlineNs} := by
      simp only [thread, stage, unlimited, decide_true, Bool.true_or, if_true, attempt,
        Bridge.convertLastFrameToBgr, none]
    rw [BridgeThread.step, fails]
    exact ⟨⟨deadlineNs, rfl⟩, frameless⟩

end

section Samples

def sampleConfig : ServerConfig := ⟨2, 2, .auto, false, none⟩

def sampleCodec : Codec Unit := fun _ _ => ⟨1280, 720, .nv12, true, ()⟩

def sampleConvert : Conversion Unit := fun _ _ _ => ⟨3840, []⟩

end Samples

end StreamRelay.Server.BridgeThread
