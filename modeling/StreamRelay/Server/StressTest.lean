import StreamRelay.Server.Packet

/-! The calls that start, stop and report on the stress test, with the lock of the manager and the
memory they hold. The lock is not recursive. A call that takes it twice, or goes through a pointer
to no memory, has no result. What the threads do in between is the handler's affair. -/
namespace StreamRelay.Server.Stress

variable {Picture : Type} (cfg : ServerConfig)

/-- An array in memory or a null pointer. Of the queues only the length is kept, and the handle of a
thread is zero until there is a thread. -/
abbrev Pointer (Entry : Type) := Option (List Entry)

structure StressTestConfig where
  enabled : Bool
  sourceStreamId : Nat
  numVirtualStreams : Nat
  virtualStreamIds : Pointer Nat
  backend : DecodeBackend
  startTime : Int
  endTime : Int
  threads : Pointer (Option Nat)
  queueLocks : Pointer Unit
  queueConds : Pointer Unit
  queueData : Pointer Unit
  queueSize : Pointer Unit
  queueReady : Pointer Unit
  threadsRunning : Bool

/-- The manager with its streams. An observer counts the threads that were started, which are
numbered, and keeps those that were joined. -/
structure Manager (Picture : Type) where
  server : State Picture
  locked : Bool
  test : StressTestConfig
  started : Nat
  joined : List Nat

def init : Manager Picture where
  server := State.init
  locked := false
  test := ⟨false, 0, 0, none, .auto, 0, 0, none, none, none, none, none, none, false⟩
  started := 0
  joined := []

/-- What the system answers while a test is started: whether there is memory for the ids, for each of
the arrays of the threads and for the argument of each thread, and whether that thread is made. -/
structure StartAnswers where
  malloc : Bool
  copies : Nat → Nat → AttemptAnswers
  calloc : Fin 6 → Bool
  argument : Nat → Bool
  create : Nat → Bool
  time : Int

/-- The first entries of an array, one after another. -/
def entries {Entry : Type} (array : Pointer Entry) (n : Nat) : Option (List Entry) :=
  if n = 0 then some []
  else array.bind fun cells => if n ≤ cells.length then some (cells.take n) else none

namespace Manager

def lock (m : Manager Picture) : Option (Manager Picture) :=
  if m.locked then none else some {m with locked := true}

def unlock (m : Manager Picture) : Manager Picture := {m with locked := false}

/-- The decoders of the copies are closed. -/
def closeCopies (ids : List Nat) (m : Manager Picture) : Manager Picture :=
  let close (s : State Picture) (streamId : Nat) : State Picture :=
    s.onStream streamId fun stream => stream.closeDecoder.setState .idle
  {m with server := ids.foldl close m.server}

end Manager

/-- pthread_join on each handle. Zero is the handle of no thread, and to join it is to go through a
pointer to no memory. -/
def joinThreads : List (Option Nat) → Option (List Nat)
  | [] => some []
  | none :: _ => none
  | some handle :: rest => (joinThreads rest).map (handle :: ·)

/-- stream_manager_stop_stress_test -/
def stopStressTest (time : Int) (m : Manager Picture) : Option (Manager Picture) := do
  let m ← m.lock
  if !m.test.enabled then some m.unlock
  else
    let n := m.test.numVirtualStreams
    let m := {m with test.endTime := time, test.enabled := false, test.threadsRunning := false}
    let _ ← entries m.test.queueConds n
    let m := m.unlock
    let handles ← entries m.test.threads n
    let joined ← joinThreads handles
    let m := {m with joined := m.joined ++ joined}
    let m ← m.lock
    let _ ← entries m.test.queueLocks n
    let _ ← entries m.test.queueConds n
    let _ ← entries m.test.queueData n
    let m := {m with
      test.threads := none, test.queueLocks := none, test.queueConds := none
      test.queueData := none, test.queueSize := none, test.queueReady := none}
    let ids ← entries m.test.virtualStreamIds n
    let m := m.closeCopies ids
    let m := {m with test.virtualStreamIds := none}
    some m.unlock

/-- `calloc(n, size)` -/
def calloc {Entry : Type} (granted : Bool) (zero : Entry) (n : Nat) : Pointer Entry :=
  if granted then some (List.replicate n zero) else none

/-- The loop that makes `count` threads from the `i`-th on: their handles, and how many threads have
been started by then. The argument is filled in and the handle kept whatever the system answers. -/
def createThreads (answers : StartAnswers) :
    (i count started : Nat) → Option (List (Option Nat) × Nat)
  | _, 0, started => some ([], started)
  | i, count + 1, started =>
    if !answers.argument i then none
    else if answers.create i then
      (createThreads answers (i + 1) count (started + 1)).map fun rest =>
        (some started :: rest.1, rest.2)
    else
      (createThreads answers (i + 1) count started).map fun rest => (none :: rest.1, rest.2)

/-- The part of stream_manager_start_stress_test that starts the threads, one for each of `n`. -/
def startThreads (answers : StartAnswers) (n : Nat) (m : Manager Picture) :
    Option (Manager Picture) := do
  let m := {m with
    test.threads := calloc (answers.calloc 0) none n
    test.queueLocks := calloc (answers.calloc 1) () n
    test.queueConds := calloc (answers.calloc 2) () n
    test.queueData := calloc (answers.calloc 3) () n
    test.queueSize := calloc (answers.calloc 4) () n
    test.queueReady := calloc (answers.calloc 5) () n
    test.threadsRunning := true}
  let _ ← entries m.test.queueLocks n
  let _ ← entries m.test.queueConds n
  let _ ← entries m.test.queueData n
  let _ ← entries m.test.queueSize n
  let _ ← entries m.test.queueReady n
  let _ ← entries m.test.threads n
  let made ← createThreads answers 0 n m.started
  some {m with test.threads := some made.1, started := made.2}

/-- stream_manager_start_stress_test, with whether a test was started. -/
def startStressTest (source : Nat) (numCopies : Int) (backend : DecodeBackend)
    (answers : StartAnswers) (m : Manager Picture) : Option (Manager Picture × Bool) :=
  if numCopies < 1 || numCopies > cfg.maxStreams then some (m, false)
  else do
    let m ← m.lock
    let m ← if m.test.enabled then stopStressTest answers.time m else some m
    if !State.hasStream cfg source || !(m.server.streams source).infoReceived then
      some (m.unlock, false)
    else if !answers.malloc then some ({m with test.virtualStreamIds := none}.unlock, false)
    else
      let copied := m.server.initCopies cfg source backend answers.copies 0 numCopies.toNat
      let m := {m with server := copied.1, test.virtualStreamIds := some copied.2}
      if copied.2 = [] then some ({m with test.virtualStreamIds := none}.unlock, false)
      else
        let m := {m with
          test.enabled := true, test.sourceStreamId := source
          test.numVirtualStreams := copied.2.length, test.backend := backend
          test.startTime := answers.time, test.endTime := 0}
        let m ← startThreads answers copied.2.length m
        some (m.unlock, true)

/-- stream_manager_get_stress_report, with the streams whose numbers it adds up. -/
def getStressReport (wanted : Bool) (m : Manager Picture) : Option (Manager Picture × List Nat) :=
  if !wanted then some (m, [])
  else do
    let m ← m.lock
    let ids ← entries m.test.virtualStreamIds m.test.numVirtualStreams
    some (m.unlock, ids.filter (State.hasStream cfg))

/-- The calls, and what the handler makes of the streams in between. -/
inductive Call (Picture : Type)
  | start (source : Nat) (numCopies : Int) (backend : DecodeBackend) (answers : StartAnswers)
  | stop (time : Int)
  | report (wanted : Bool)
  | handle (server : State Picture)

def call (m : Manager Picture) : Call Picture → Option (Manager Picture)
  | .start source numCopies backend answers =>
    (startStressTest cfg source numCopies backend answers m).map Prod.fst
  | .stop time => stopStressTest time m
  | .report wanted => (getStressReport cfg wanted m).map Prod.fst
  | .handle server => some {m with server := server}

/-- After a call without a result there is no other. -/
def step (m : Option (Manager Picture)) (c : Call Picture) : Option (Manager Picture) :=
  m.bind fun m => call cfg m c

/-- The threads of the test that is running. -/
def Manager.running (m : Manager Picture) : List Nat :=
  if m.test.enabled then (m.test.threads.getD []).reduceOption else []

/-- No call has failed, the lock is free, and of the threads that were started each was joined
once, up to those of the running test. -/
def Sound (m : Option (Manager Picture)) : Prop :=
  ∃ manager, m = some manager ∧ manager.locked = false ∧
    manager.joined ++ manager.running = List.range manager.started

/-- There is memory for what `n` threads need. -/
structure Granted (answers : StartAnswers) (n : Nat) : Prop where
  arrays : ∀ array, answers.calloc array = true
  arguments : ∀ i < n, answers.argument i = true

/-- No test is replaced, none is started without the memory it needs, none is stopped of whose
threads one was not made, and none is reported on between its end and the next one. -/
def Allowed (m : Option (Manager Picture)) : Call Picture → Prop
  | .start source numCopies backend answers => ∀ manager, m = some manager →
      1 ≤ numCopies → numCopies ≤ cfg.maxStreams →
        manager.test.enabled = false ∧
          (State.hasStream cfg source = true → (manager.server.streams source).infoReceived = true →
            answers.malloc = true →
            (manager.server.initCopies cfg source backend answers.copies 0 numCopies.toNat).2 ≠ [] →
              Granted answers
                (manager.server.initCopies cfg source backend answers.copies 0 numCopies.toNat).2.length)
  | .stop _ => ∀ manager, m = some manager → manager.test.enabled = true →
      none ∉ manager.test.threads.getD []
  | .handle _ => True
  | .report wanted => ∀ manager, m = some manager → wanted = true →
      manager.test.enabled = true ∨ manager.test.numVirtualStreams = 0

/-- An array with room for the first `n` entries. -/
def Holds {Entry : Type} (array : Pointer Entry) (n : Nat) : Prop :=
  ∃ cells, array = some cells ∧ n ≤ cells.length

theorem entries_holds {Entry : Type} {array : Pointer Entry} {n : Nat} (holds : Holds array n) :
    entries array n = some ((array.getD []).take n) := by
  obtain ⟨cells, rfl, room⟩ := holds
  unfold entries
  split
  · next none_read => simp [none_read]
  · simp [room]

theorem entries_all {Entry : Type} {array : Pointer Entry} {cells : List Entry} {n : Nat}
    (there : array = some cells) (all : cells.length = n) : entries array n = some cells := by
  rw [entries_holds ⟨cells, there, all.ge⟩, there, Option.getD_some, List.take_of_length_le all.le]

theorem entries_null {Entry : Type} {n : Nat} (positive : n ≠ 0) :
    entries (none : Pointer Entry) n = none := by
  rw [entries, if_neg positive]
  rfl

theorem calloc_holds {Entry : Type} {granted : Bool} (yes : granted = true) (zero : Entry) (n : Nat) :
    Holds (calloc granted zero n) n :=
  ⟨List.replicate n zero, if_pos yes, by simp⟩

theorem calloc_null {Entry : Type} {granted : Bool} (no : granted = false) (zero : Entry) (n : Nat) :
    calloc granted zero n = none := by
  rw [calloc, no]
  rfl

theorem joinThreads_all {handles : List (Option Nat)} (made : none ∉ handles) :
    joinThreads handles = some handles.reduceOption := by
  induction handles with
  | nil => rfl
  | cons handle rest ih =>
    rw [List.mem_cons, not_or] at made
    cases handle with
    | none => exact absurd rfl made.1
    | some handle => rw [joinThreads, ih made.2, Option.map_some, List.reduceOption_cons_of_some]

theorem joinThreads_missing {handles : List (Option Nat)} (missing : none ∈ handles) :
    joinThreads handles = none := by
  induction handles with
  | nil => cases missing
  | cons handle rest ih =>
    cases handle with
    | none => rfl
    | some handle =>
      have later : none ∈ rest := by simpa using missing
      rw [joinThreads, ih later]
      rfl

/-- The threads that are made are numbered one after another. -/
theorem createThreads_granted (answers : StartAnswers) (i count started : Nat)
    (granted : ∀ j, i ≤ j → j < i + count → answers.argument j = true) :
    ∃ handles more, createThreads answers i count started = some (handles, started + more) ∧
      handles.length = count ∧ handles.reduceOption = List.range' started more := by
  induction count generalizing i started with
  | zero => exact ⟨[], 0, rfl, rfl, rfl⟩
  | succ count ih =>
    have here := granted i le_rfl (by omega)
    have later : ∀ j, i + 1 ≤ j → j < i + 1 + count → answers.argument j = true :=
      fun j least most => granted j (by omega) (by omega)
    rw [createThreads, here, Bool.not_true, if_neg Bool.false_ne_true]
    split
    · obtain ⟨handles, more, made, length, numbers⟩ := ih (i + 1) (started + 1) later
      refine ⟨some started :: handles, more + 1, ?_, by rw [List.length_cons, length], ?_⟩
      · rw [made, Option.map_some]
        simp only [Option.some.injEq, Prod.mk.injEq, true_and]
        omega
      · rw [List.reduceOption_cons_of_some, numbers, List.range'_succ]
    · obtain ⟨handles, more, made, length, numbers⟩ := ih (i + 1) started later
      refine ⟨none :: handles, more, by rw [made, Option.map_some], by rw [List.length_cons, length], ?_⟩
      rw [List.reduceOption_cons_of_none, numbers]

theorem createThreads_refused (answers : StartAnswers) {i count j : Nat} (started : Nat)
    (least : i ≤ j) (most : j < i + count) (refused : answers.argument j = false) :
    createThreads answers i count started = none := by
  induction count generalizing i started with
  | zero => omega
  | succ count ih =>
    rw [createThreads]
    by_cases here : i = j
    · rw [here, refused]
      rfl
    · have later (started : Nat) : createThreads answers (i + 1) count started = none :=
        ih started (by omega) (by omega)
      rw [later, later]
      simp

/-- What a running test holds. -/
structure Equipped (test : StressTestConfig) : Prop where
  ids : ∃ cells, test.virtualStreamIds = some cells ∧ cells.length = test.numVirtualStreams
  handles : ∃ cells, test.threads = some cells ∧ cells.length = test.numVirtualStreams
  locks : Holds test.queueLocks test.numVirtualStreams
  conds : Holds test.queueConds test.numVirtualStreams
  data : Holds test.queueData test.numVirtualStreams

/-- What holds between two calls. -/
structure Inv (m : Manager Picture) : Prop where
  free : m.locked = false
  idle : m.test.enabled = false → m.test.virtualStreamIds = none
  busy : m.test.enabled = true → Equipped m.test
  account : m.joined ++ m.running = List.range m.started

theorem init_inv : Inv (init : Manager Picture) :=
  ⟨rfl, fun _ => rfl, fun enabled => absurd enabled Bool.false_ne_true, rfl⟩

theorem Inv.sound {m : Manager Picture} (inv : Inv m) : Sound (some m) :=
  ⟨m, rfl, inv.free, inv.account⟩

/-- Stopping does not fail where every thread was made; afterwards no test is running and every thread
has been joined. -/
theorem stopStressTest_spec (time : Int) {m : Manager Picture} (inv : Inv m)
    (made : m.test.enabled = true → none ∉ m.test.threads.getD []) :
    ∃ after, stopStressTest time m = some after ∧ Inv after ∧ after.test.enabled = false ∧
      after.joined = List.range after.started := by
  have free := inv.free
  have account := inv.account
  cases enabled : m.test.enabled with
  | false =>
    have same : stopStressTest time m = some m := by
      obtain ⟨server, locked, test, started, joined⟩ := m
      obtain rfl : locked = false := free
      have idle : test.enabled = false := enabled
      simp [stopStressTest, Manager.lock, Manager.unlock, idle]
    refine ⟨m, same, inv, enabled, ?_⟩
    simpa [Manager.running, enabled] using account
  | true =>
    obtain ⟨⟨ids, listed, every⟩, ⟨handles, cells, all⟩, locks, conds, data⟩ := inv.busy enabled
    simp only [Manager.running, enabled, if_true, cells, Option.getD_some] at account
    have joins : joinThreads handles = some handles.reduceOption := by
      apply joinThreads_all
      simpa [cells] using made enabled
    simp only [joins, stopStressTest, Manager.lock, free, enabled, Manager.unlock, entries_all listed every,
      entries_holds locks, entries_holds conds, entries_holds data, entries_all cells all,
      Option.bind_eq_bind, Option.bind_some, Bool.false_eq_true, if_false, Bool.not_true, Manager.closeCopies]
    refine ⟨_, rfl, ⟨rfl, fun _ => rfl, fun busy => absurd busy Bool.false_ne_true, ?_⟩, rfl, ?_⟩
    · simpa [Manager.running] using account
    · exact account

/-- A thread that was not made is joined all the same. -/
theorem stopStressTest_missing (time : Int) {m : Manager Picture} (inv : Inv m)
    (enabled : m.test.enabled = true) (missing : none ∈ m.test.threads.getD []) :
    stopStressTest time m = none := by
  obtain ⟨-, ⟨handles, cells, all⟩, -, conds, -⟩ := inv.busy enabled
  have stuck : joinThreads handles = none := by
    apply joinThreads_missing
    simpa [cells] using missing
  simp only [stopStressTest, Manager.lock, inv.free, enabled, Manager.unlock, entries_holds conds,
    entries_all cells all, stuck, Option.bind_eq_bind, Option.bind_some, Option.bind_none,
    Bool.false_eq_true, if_false, Bool.not_true]

theorem lock_unlock {m : Manager Picture} (free : m.locked = false) :
    ({m with locked := true} : Manager Picture).unlock = m := by
  obtain ⟨server, locked, test, started, joined⟩ := m
  obtain rfl : locked = false := free
  rfl

theorem lock_free {m : Manager Picture} (free : m.locked = false) :
    m.lock = some {m with locked := true} := by
  rw [Manager.lock, free]
  rfl

/-- A report goes through the ids, which are gone unless a test is running. -/
theorem report_step {m : Manager Picture} (inv : Inv m) (wanted : Bool) :
    (Allowed cfg (some m) (.report wanted) → call cfg m (.report wanted) = some m) ∧
      (¬ Allowed cfg (some m) (.report wanted) → call cfg m (.report wanted) = none) := by
  have allowed : Allowed cfg (some m) (.report wanted) ↔
      (wanted = true → m.test.enabled = true ∨ m.test.numVirtualStreams = 0) :=
    ⟨fun allowed => allowed m rfl, fun allowed manager same => by
      obtain rfl := Option.some.inj same
      exact allowed⟩
  have read (ids : List Nat) (found : entries m.test.virtualStreamIds m.test.numVirtualStreams = some ids) :
      (getStressReport cfg true m).map Prod.fst = some m := by
    simp only [getStressReport, Bool.not_true, Bool.false_eq_true, if_false, lock_free inv.free,
      Option.bind_eq_bind, Option.bind_some, found, lock_unlock inv.free, Option.map_some]
  rw [allowed, call]
  cases wanted with
  | false => simp [getStressReport]
  | true =>
    cases enabled : m.test.enabled with
    | true =>
      obtain ⟨ids, listed, every⟩ := (inv.busy enabled).ids
      rw [read ids (entries_all listed every)]
      simp
    | false =>
      have gone := inv.idle enabled
      by_cases none_read : m.test.numVirtualStreams = 0
      · rw [read [] (by rw [entries, if_pos none_read])]
        simp [none_read]
      · have lost : entries m.test.virtualStreamIds m.test.numVirtualStreams = none := by
          rw [gone, entries_null none_read]
        refine ⟨fun may => absurd (may rfl) (by simp [none_read]), fun _ => ?_⟩
        simp only [getStressReport, Bool.not_true, Bool.false_eq_true, if_false, lock_free inv.free,
          Option.bind_eq_bind, Option.bind_some, lost, Option.bind_none, Option.map_none]

theorem startThreads_granted (answers : StartAnswers) (n : Nat) (m : Manager Picture)
    (granted : Granted answers n) :
    ∃ after handles more, startThreads answers n m = some after ∧ after.locked = m.locked ∧
      after.server = m.server ∧ after.joined = m.joined ∧ after.started = m.started + more ∧
      after.test.enabled = m.test.enabled ∧ after.test.virtualStreamIds = m.test.virtualStreamIds ∧
      after.test.numVirtualStreams = m.test.numVirtualStreams ∧
      after.test.threads = some handles ∧ handles.length = n ∧
      handles.reduceOption = List.range' m.started more ∧ Holds after.test.queueLocks n ∧
      Holds after.test.queueConds n ∧ Holds after.test.queueData n := by
  have zeroed (array : Fin 6) := calloc_holds (granted.arrays array) () n
  have room := calloc_holds (granted.arrays 0) (none : Option Nat) n
  obtain ⟨handles, more, made, length, numbers⟩ := createThreads_granted answers 0 n m.started
    fun i _ inside => granted.arguments i (by omega)
  simp only [startThreads, entries_holds (zeroed 1), entries_holds (zeroed 2),
    entries_holds (zeroed 3), entries_holds (zeroed 4), entries_holds (zeroed 5),
    entries_holds room, made, Option.bind_eq_bind, Option.bind_some]
  exact ⟨_, handles, more, rfl, rfl, rfl, rfl, rfl, rfl, rfl, rfl, rfl, length, numbers, zeroed 1,
    zeroed 2, zeroed 3⟩

/-- Missing memory is gone through as if it were there. -/
theorem startThreads_refused (answers : StartAnswers) {n : Nat} (positive : n ≠ 0)
    (m : Manager Picture) (refused : ¬ Granted answers n) :
    startThreads answers n m = none := by
  have null {Entry : Type} (zero : Entry) {array : Fin 6} (no : answers.calloc array = false) :
      entries (calloc (answers.calloc array) zero n) n = none := by
    rw [calloc_null no, entries_null positive]
  have which : ∀ array : Fin 6,
      array = 0 ∨ array = 1 ∨ array = 2 ∨ array = 3 ∨ array = 4 ∨ array = 5 := by decide
  by_cases arrays : ∀ array, answers.calloc array = true
  · have lacking : ¬ ∀ i < n, answers.argument i = true := fun all => refused ⟨arrays, all⟩
    obtain ⟨i, inside, no⟩ : ∃ i < n, answers.argument i = false := by
      simpa using lacking
    have unmade : createThreads answers 0 n m.started = none :=
      createThreads_refused answers m.started (Nat.zero_le i) (by omega) no
    simp only [startThreads, unmade, Option.bind_eq_bind, Option.bind_none, Option.bind_fun_none]
  · obtain ⟨array, no⟩ := not_forall.mp arrays
    rw [Bool.not_eq_true] at no
    unfold startThreads
    rcases which array with rfl | rfl | rfl | rfl | rfl | rfl <;>
      simp only [null _ no, Option.bind_eq_bind, Option.bind_none, Option.bind_fun_none]

/-- While a test is running its lock is taken a second time to stop it. -/
theorem startStressTest_relocks {source : Nat} {numCopies : Int} (backend : DecodeBackend)
    (answers : StartAnswers) {m : Manager Picture} (least : 1 ≤ numCopies)
    (most : numCopies ≤ cfg.maxStreams) (free : m.locked = false) (enabled : m.test.enabled = true) :
    startStressTest cfg source numCopies backend answers m = none := by
  have valid : ¬ (numCopies < 1 || numCopies > cfg.maxStreams) = true := by
    simp only [Bool.or_eq_true, decide_eq_true_eq]
    omega
  have stuck : stopStressTest answers.time {m with locked := true} = none := rfl
  simp only [startStressTest, if_neg valid, lock_free free, Option.bind_eq_bind, Option.bind_some,
    enabled, if_true, stuck, Option.bind_none]

/-- Without a running test the ids are asked for only if the source is known, and the threads are
started only if some copy has a decoder. -/
theorem startStressTest_idle {source : Nat} {numCopies : Int} (backend : DecodeBackend)
    (answers : StartAnswers) {m : Manager Picture} (least : 1 ≤ numCopies)
    (most : numCopies ≤ cfg.maxStreams) (free : m.locked = false) (idle : m.test.enabled = false) :
    startStressTest cfg source numCopies backend answers m =
      if State.hasStream cfg source = false ∨ (m.server.streams source).infoReceived = false then
        some (m, false)
      else if answers.malloc = false then some ({m with test.virtualStreamIds := none}, false)
      else
        let copied := m.server.initCopies cfg source backend answers.copies 0 numCopies.toNat
        if copied.2 = [] then
          some ({m with server := copied.1, test.virtualStreamIds := none}, false)
        else
          (startThreads answers copied.2.length {m with
            server := copied.1
            locked := true
            test := {m.test with
              virtualStreamIds := some copied.2, enabled := true, sourceStreamId := source
              numVirtualStreams := copied.2.length, backend := backend
              startTime := answers.time, endTime := 0}}).map fun started => (started.unlock, true) := by
  have valid : ¬ (numCopies < 1 || numCopies > cfg.maxStreams) = true := by
    simp only [Bool.or_eq_true, decide_eq_true_eq]
    omega
  obtain ⟨server, locked, test, started, joined⟩ := m
  obtain rfl : locked = false := free
  have off : test.enabled = false := idle
  simp only [startStressTest, if_neg valid, Manager.lock, Bool.false_eq_true, if_false,
    Option.bind_eq_bind, Option.bind_some, off]
  by_cases unready : State.hasStream cfg source = false ∨ (server.streams source).infoReceived = false
  · rw [if_pos (by simpa using unready), if_pos unready]
    rfl
  rw [if_neg (by simpa using unready), if_neg unready]
  by_cases refused : answers.malloc = false
  · rw [if_pos (by simp [refused]), if_pos refused]
    rfl
  rw [if_neg (by simpa using refused), if_neg refused]
  split
  · rfl
  · generalize startThreads answers _ _ = result
    cases result <;> rfl

theorem start_step {m : Manager Picture} (inv : Inv m) (source : Nat) (numCopies : Int)
    (backend : DecodeBackend) (answers : StartAnswers) :
    (Allowed cfg (some m) (.start source numCopies backend answers) →
      ∃ after, call cfg m (.start source numCopies backend answers) = some after ∧ Inv after) ∧
    (¬ Allowed cfg (some m) (.start source numCopies backend answers) →
      call cfg m (.start source numCopies backend answers) = none) := by
  have allowed : Allowed cfg (some m) (.start source numCopies backend answers) ↔
      (1 ≤ numCopies → numCopies ≤ cfg.maxStreams → m.test.enabled = false ∧
        (State.hasStream cfg source = true → (m.server.streams source).infoReceived = true →
          answers.malloc = true →
          (m.server.initCopies cfg source backend answers.copies 0 numCopies.toNat).2 ≠ [] →
            Granted answers
              (m.server.initCopies cfg source backend answers.copies 0 numCopies.toNat).2.length)) :=
    ⟨fun allowed => allowed m rfl, fun allowed manager same => by
      obtain rfl := Option.some.inj same
      exact allowed⟩
  rw [allowed, call]
  by_cases valid : 1 ≤ numCopies ∧ numCopies ≤ cfg.maxStreams
  swap
  · have invalid : (numCopies < 1 || numCopies > cfg.maxStreams) = true := by
      simp only [Bool.or_eq_true, decide_eq_true_eq]
      omega
    rw [startStressTest, if_pos invalid]
    exact ⟨fun _ => ⟨m, rfl, inv⟩, fun never => absurd (fun least most =>
      absurd ⟨least, most⟩ valid) never⟩
  obtain ⟨least, most⟩ := valid
  cases enabled : m.test.enabled with
  | true =>
    rw [startStressTest_relocks cfg backend answers least most inv.free enabled]
    exact ⟨fun may => absurd (may least most).1 (by simp), fun _ => rfl⟩
  | false =>
    have gone := inv.idle enabled
    have account : m.joined = List.range m.started := by
      simpa [Manager.running, enabled] using inv.account
    have kept (server : State Picture) :
        Inv {m with server := server, test.virtualStreamIds := none} := by
      refine ⟨inv.free, fun _ => rfl, fun busy => ?_, ?_⟩
      · exact absurd (enabled.symm.trans busy) Bool.false_ne_true
      · simp [Manager.running, enabled, account]
    rw [startStressTest_idle cfg backend answers least most inv.free enabled]
    split
    · next unready =>
      refine ⟨fun _ => ⟨m, rfl, inv⟩, fun never => absurd (fun _ _ => ⟨rfl, fun known informed => ?_⟩)
        never⟩
      rcases unready with unknown | uninformed
      · exact absurd (unknown.symm.trans known) Bool.false_ne_true
      · exact absurd (uninformed.symm.trans informed) Bool.false_ne_true
    split
    · next refused =>
      refine ⟨fun _ => ⟨_, rfl, kept m.server⟩, fun never => absurd (fun _ _ =>
        ⟨rfl, fun _ _ granted => ?_⟩) never⟩
      exact absurd (refused.symm.trans granted) Bool.false_ne_true
    dsimp only
    split
    · next bare =>
      exact ⟨fun _ => ⟨_, rfl, kept _⟩, fun never => absurd (fun _ _ =>
        ⟨rfl, fun _ _ _ some_copy => absurd bare some_copy⟩) never⟩
    · next ready granted some_copy =>
      generalize m.server.initCopies cfg source backend answers.copies 0 numCopies.toNat = copied
        at some_copy
      have positive : copied.2.length ≠ 0 := fun none_left =>
        some_copy (List.length_eq_zero_iff.mp none_left)
      by_cases all : Granted answers copied.2.length
      · refine ⟨fun _ => ?_, fun never => absurd (fun _ _ => ⟨rfl, fun _ _ _ _ => all⟩) never⟩
        obtain ⟨after, handles, more, begun, locked, server, joined, started, busy, ids, count, threads,
          length, numbers, locks, conds, data⟩ := startThreads_granted answers copied.2.length {m with
            server := copied.1
            locked := true
            test := {m.test with
              virtualStreamIds := some copied.2, enabled := true, sourceStreamId := source
              numVirtualStreams := copied.2.length, backend := backend
              startTime := answers.time, endTime := 0}} all
        rw [begun]
        refine ⟨after.unlock, rfl, rfl, fun idle => ?_, fun _ => ?_, ?_⟩
        · exact absurd (busy.symm.trans idle) (by simp)
        · dsimp only at count ids
          rw [← count] at locks conds data
          exact ⟨⟨copied.2, ids, count.symm⟩, ⟨handles, threads, length.trans count.symm⟩,
            locks, conds, data⟩
        · have running : after.unlock.running = List.range' m.started more := by
            simp [Manager.running, Manager.unlock, busy, threads, numbers]
          have all_joined : after.unlock.joined = List.range m.started := joined.trans account
          have number : after.unlock.started = m.started + more := started
          have range := List.range'_append_1 (s := 0) (m := m.started) (n := more)
          rw [Nat.zero_add] at range
          rw [running, all_joined, number, List.range_eq_range', List.range_eq_range', range]
      · refine ⟨fun may => absurd ((may least most).2 ?_ ?_ ?_ some_copy) all, fun _ => ?_⟩
        · simpa using (not_or.mp ready).1
        · simpa using (not_or.mp ready).2
        · simpa using granted
        · rw [startThreads_refused answers positive _ all]
          rfl

/-- A call succeeds, and leaves the manager in order, exactly if it is allowed. -/
theorem call_step {m : Manager Picture} (inv : Inv m) (c : Call Picture) :
    (Allowed cfg (some m) c → ∃ after, call cfg m c = some after ∧ Inv after) ∧
      (¬ Allowed cfg (some m) c → call cfg m c = none) := by
  cases c with
  | start source numCopies backend answers => exact start_step cfg inv source numCopies backend answers
  | stop time =>
    have allowed : Allowed cfg (some m) (.stop time) ↔
        (m.test.enabled = true → none ∉ m.test.threads.getD []) :=
      ⟨fun allowed => allowed m rfl, fun allowed manager same => by
        obtain rfl := Option.some.inj same
        exact allowed⟩
    rw [allowed]
    constructor
    · intro made
      obtain ⟨after, run, kept, -⟩ := stopStressTest_spec time inv made
      exact ⟨after, run, kept⟩
    · intro never
      rw [Classical.not_imp, not_not] at never
      exact stopStressTest_missing time inv never.1 never.2
  | report wanted =>
    obtain ⟨reads, fails⟩ := report_step cfg inv wanted
    exact ⟨fun may => ⟨m, reads may, inv⟩, fails⟩
  | handle server =>
    exact ⟨fun _ => ⟨_, rfl, inv.free, inv.idle, inv.busy, inv.account⟩,
      fun never => absurd trivial never⟩

/-- A start that goes through does to the streams what the handler's model, which leaves the lock
and the memory out, says. -/
theorem startStressTest_streams {source : Nat} {numCopies : Int} {backend : DecodeBackend}
    {answers : StartAnswers} {m after : Manager Picture} {ok : Bool} (inv : Inv m)
    (idle : m.test.enabled = false) (off : m.server.stress.enabled = false)
    (run : startStressTest cfg source numCopies backend answers m = some (after, ok)) :
    let handled := m.server.startStressTest cfg source numCopies backend answers.malloc answers.copies
    after.server.streams = handled.1.streams ∧ ok = handled.2 := by
  have unstopped : m.server.stopStressTest = m.server := by
    rw [State.stopStressTest, if_neg (by simp [off])]
  intro handled
  by_cases valid : 1 ≤ numCopies ∧ numCopies ≤ cfg.maxStreams
  swap
  · have invalid : (numCopies < 1 || numCopies > cfg.maxStreams) = true := by
      simp only [Bool.or_eq_true, decide_eq_true_eq]
      omega
    rw [startStressTest, if_pos invalid] at run
    cases run
    simp only [handled, State.startStressTest, if_pos invalid, and_self]
  have proper : ¬ (numCopies < 1 || numCopies > cfg.maxStreams) = true := by
    simp only [Bool.or_eq_true, decide_eq_true_eq]
    omega
  simp only [handled, State.startStressTest, if_neg proper, unstopped]
  rw [startStressTest_idle cfg backend answers valid.1 valid.2 inv.free idle] at run
  split at run
  · next unready =>
    cases run
    rw [if_pos (by rcases unready with unknown | uninformed <;> simp [*])]
    exact ⟨rfl, rfl⟩
  next ready =>
  obtain ⟨known, informed⟩ := not_or.mp ready
  split at run
  · next refused =>
    cases run
    rw [if_pos (by simp [refused])]
    exact ⟨rfl, rfl⟩
  next granted =>
  rw [if_neg (by simp_all)]
  dsimp only at run
  split at run
  · next bare =>
    cases run
    rw [if_pos bare]
    exact ⟨rfl, rfl⟩
  · next some_copy =>
    rw [if_neg some_copy]
    obtain ⟨started, begun, same⟩ := Option.map_eq_some_iff.mp run
    cases same
    have positive := fun none_left => some_copy (List.length_eq_zero_iff.mp none_left)
    by_cases all : Granted answers
        (m.server.initCopies cfg source backend answers.copies 0 numCopies.toNat).2.length
    · obtain ⟨_, _, _, threads, -, server, -⟩ := startThreads_granted answers _ _ all
      rw [threads] at begun
      cases begun
      have streams := congrArg State.streams server
      exact ⟨streams, rfl⟩
    · rw [startThreads_refused answers positive _ all] at begun
      cases begun

/-- So does a stop. -/
theorem stopStressTest_streams {time : Int} {m after : Manager Picture} (inv : Inv m)
    (enabled : m.test.enabled = true) (on : m.server.stress.enabled = true)
    (same : m.test.virtualStreamIds = some m.server.stress.virtualStreamIds)
    (run : stopStressTest time m = some after) :
    after.server.streams = m.server.stopStressTest.streams := by
  obtain ⟨⟨ids, listed, every⟩, ⟨handles, cells, all⟩, locks, conds, data⟩ := inv.busy enabled
  obtain rfl := Option.some.inj (listed.symm.trans same)
  have made : none ∉ handles := by
    intro missing
    have stuck := stopStressTest_missing time inv enabled (by rw [cells]; exact missing)
    rw [stuck] at run
    cases run
  simp only [joinThreads_all made, stopStressTest, Manager.lock, inv.free, enabled, Manager.unlock,
    entries_all listed every, entries_holds locks, entries_holds conds, entries_holds data,
    entries_all cells all, Option.bind_eq_bind, Option.bind_some, Bool.false_eq_true, if_false,
    Bool.not_true, Manager.closeCopies] at run
  rw [State.stopStressTest, if_pos on, ← Option.some.inj run]

/-- Some manager in order. -/
def Ordered (m : Option (Manager Picture)) : Prop := ∃ manager, m = some manager ∧ Inv manager

theorem step_ordered {m : Option (Manager Picture)} (ordered : Ordered m) (c : Call Picture) :
    (Ordered (step cfg m c) ↔ Allowed cfg m c) ∧ (Sound (step cfg m c) ↔ Allowed cfg m c) := by
  obtain ⟨manager, rfl, inv⟩ := ordered
  obtain ⟨succeeds, fails⟩ := call_step cfg inv c
  by_cases may : Allowed cfg (some manager) c
  · obtain ⟨after, run, kept⟩ := succeeds may
    have next : step cfg (some manager) c = some after := run
    rw [next]
    exact ⟨iff_of_true ⟨after, rfl, kept⟩ may, iff_of_true kept.sound may⟩
  · have next : step cfg (some manager) c = none := fails may
    rw [next]
    refine ⟨iff_of_false ?_ may, iff_of_false ?_ may⟩
    · rintro ⟨_, absent, -⟩
      cases absent
    · rintro ⟨_, absent, -⟩
      cases absent

/-- Over any sequence of calls every state is sound exactly if every call is allowed where it is
made. -/
theorem run_sound_iff (calls : List (Call Picture)) :
    (∀ past rest, calls = past ++ rest →
      Sound (Run.run (step cfg) (some (init : Manager Picture)) past)) ↔
    Run.Always (step cfg) (some (init : Manager Picture)) (Allowed cfg) calls := by
  have start : Ordered (some (init : Manager Picture)) := ⟨init, rfl, init_inv⟩
  rw [← Run.invariant_iff (step cfg) (some (init : Manager Picture)) (Allowed cfg) Ordered start
    fun m c ordered => (step_ordered cfg ordered c).1]
  constructor
  · rintro sound past rest rfl
    have each : ∀ calls : List (Call Picture), (∀ past rest, calls = past ++ rest →
        Sound (Run.run (step cfg) (some (init : Manager Picture)) past)) →
        Ordered (Run.run (step cfg) (some (init : Manager Picture)) calls) := by
      intro calls sound
      induction calls using List.reverseRecOn with
      | nil => exact start
      | append_singleton calls c ih =>
        have before := ih fun past rest split => sound past (rest ++ [c]) (by simp [split])
        have after := sound (calls ++ [c]) [] (by simp)
        rw [Run.run_snoc] at after ⊢
        exact (step_ordered cfg before c).1.mpr ((step_ordered cfg before c).2.mp after)
    exact each past fun before later split => sound before (later ++ rest) (by simp [split])
  · rintro ordered past rest split
    obtain ⟨manager, run, inv⟩ := ordered past rest split
    rw [run]
    exact inv.sound

def sampleServer : ServerConfig := ⟨4, 4, .cpu, true, none⟩

/-- Stream 1 is known, and one copy of it gets its decoder, and a thread if one is made. -/
def sampleStart (create : Bool) : List (Call Unit) :=
  [.handle (State.init.onStream 1 (StreamContext.setInfo .zero)),
    .start 1 1 .cpu ⟨true, fun _ _ => ⟨.cpu, true, true, true⟩, fun _ => true, fun _ => true,
      fun _ => create, 100⟩]

/-- A second start waits for the lock it holds, a report after the test reads ids that are gone, and
a thread that was not made is joined. -/
theorem stress_test_fails :
    ¬ Sound (Run.run (step sampleServer) (some init) (sampleStart true ++ sampleStart true)) ∧
      ¬ Sound (Run.run (step sampleServer) (some init)
        (sampleStart true ++ [.stop 110, .report true])) ∧
      ¬ Sound (Run.run (step sampleServer) (some init) (sampleStart false ++ [.stop 110])) := by
  refine ⟨?_, ?_, ?_⟩
  all_goals
    rintro ⟨_, run, -⟩
    cases run

end StreamRelay.Server.Stress
