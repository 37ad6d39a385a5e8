import StreamRelay.Recorder.Ownership

/-! The storage gate. The mount table is read for availability at startup and at a
packet's storage check while the flag is down; between two readings only an error
takes the flag down. What a packet does to files therefore rests on the latest of
these findings, not on the table at that moment. -/
namespace StreamRelay.Recorder

variable (cfg : Config)

/-- After these calls the recorder no longer takes its storage to be mounted. -/
def Call.LowersGate : Call → Prop
  | .readMounts found => found = false
  | .recheckMounts _ => True
  | _ => False

/-- The latest reading of the mount table, if need be that at startup, found the
directory mounted, and no error came after it. -/
def FoundMounted (mounts : List MntEnt) (calls : List Call) : Prop :=
  (pathHasNfsMount cfg.recordDir mounts = true ∧ ∀ call ∈ calls, ¬ call.LowersGate) ∨
    ∃ before after, calls = before ++ .readMounts true :: after ∧ ∀ call ∈ after, ¬ call.LowersGate

theorem gateAfter_lowers {call : Call} (lowers : call.LowersGate) (mounted : Bool) :
    gateAfter mounted call = false := by
  cases call <;> first | exact lowers | rfl | exact lowers.elim

theorem gateAfter_keeps {call : Call} (keeps : ¬ call.LowersGate)
    (other : call ≠ .readMounts true) (mounted : Bool) : gateAfter mounted call = mounted := by
  cases call with
  | readMounts found =>
    cases found
    · exact (keeps rfl).elim
    · exact (other rfl).elim
  | recheckMounts => exact (keeps trivial).elim
  | _ => rfl

/-- The flag is up exactly if it was found up and not taken down since. -/
theorem foldl_gateAfter (mounts : List MntEnt) (calls : List Call) :
    calls.foldl gateAfter (pathHasNfsMount cfg.recordDir mounts) = true ↔
      FoundMounted cfg mounts calls := by
  induction calls using List.reverseRecOn with
  | nil => simp [FoundMounted]
  | append_singleton calls call ih =>
    rw [List.foldl_append, List.foldl_cons, List.foldl_nil]
    by_cases read : call = .readMounts true
    · subst read
      exact iff_of_true rfl (.inr ⟨calls, [], rfl, by simp⟩)
    by_cases lowers : call.LowersGate
    · rw [gateAfter_lowers lowers]
      refine iff_of_false (by decide) ?_
      rintro (⟨-, each⟩ | ⟨before, after, same, each⟩)
      · exact each call (by simp) lowers
      · rcases List.eq_nil_or_concat after with rfl | ⟨after, last, rfl⟩
        · exact read (List.append_inj' same rfl |>.2 |> List.cons.inj).1
        · have split : calls ++ [call] = (before ++ .readMounts true :: after) ++ [last] := by
            simpa using same
          obtain rfl := (List.cons.inj (List.append_inj' split rfl).2).1
          exact each call (by simp) lowers
    · rw [gateAfter_keeps lowers read, ih]
      constructor
      · rintro (⟨startup, each⟩ | ⟨before, after, rfl, each⟩)
        · refine .inl ⟨startup, fun later member => ?_⟩
          rcases List.mem_append.mp member with old | new
          · exact each later old
          · exact List.mem_singleton.mp new ▸ lowers
        · refine .inr ⟨before, after ++ [call], by simp, fun later member => ?_⟩
          rcases List.mem_append.mp member with old | new
          · exact each later old
          · exact List.mem_singleton.mp new ▸ lowers
      · rintro (⟨startup, each⟩ | ⟨before, after, same, each⟩)
        · exact .inl ⟨startup, fun later member => each later (by simp [member])⟩
        · rcases List.eq_nil_or_concat after with rfl | ⟨after, last, rfl⟩
          · exact (read (List.append_inj' same rfl |>.2 |> List.cons.inj).1).elim
          · have split : calls ++ [call] = (before ++ .readMounts true :: after) ++ [last] := by
              simpa using same
            exact .inr ⟨before, after, (List.append_inj' split rfl).1,
              fun later member => each later (by simp [member])⟩

/-- What an event may do to files, by the state it meets. -/
def Gated (r : CompressedRecorder) (input : Input) (call : Call) : Prop :=
  call.IsSoft ∨ input.event.type ≠ .video ∧ call.IsClosing ∨
    input.event.type = .video ∧
      storageUnavailable cfg r input.answers.mounts input.event.monoNs = false

theorem gated_other {r : CompressedRecorder} {input : Input} (other : input.event.type ≠ .video) :
    AdmitsOther (Gated cfg r input) where
  soft := fun _ soft => .inl soft
  closing := fun _ closing => .inr (.inl ⟨other, closing⟩)

theorem gated_available {r : CompressedRecorder} {input : Input} (video : input.event.type = .video)
    (available : storageUnavailable cfg r input.answers.mounts input.event.monoNs = false)
    (call : Call) : Gated cfg r input call :=
  .inr (.inr ⟨video, available⟩)

theorem processVideo_unavailable (ev : RecorderEvent) (answers : Answers) (c : Ctx)
    (unavailable : storageUnavailable cfg c.r answers.mounts ev.monoNs = true) :
    Emitting Call.IsSoft c (processVideo cfg ev answers c) := by
  have refused : (recorderStorageAvailable cfg answers.mounts ev.monoNs
      (c.analyze ev answers)).2 = false := by
    rw [storageAvailable_eq]
    simpa [Ctx.analyze] using unavailable
  have analyzed : Emitting Call.IsSoft c (c.analyze ev answers) := .stream _ _
  have allowed (call : Call) (soft : call.IsSoft) : call.IsSoft := soft
  rcases processVideo_cases cfg ev answers c with ⟨-, same⟩ | ⟨-, -, d, before, after⟩ |
    ⟨-, -, soft⟩ | ⟨-, available, -, -, -, -, -, -⟩ | ⟨-, available, -, -, -, -, -, -⟩ |
    ⟨-, available, -, -, -, -⟩
  · rw [same]
    exact .refl c
  · have skip : Emitting Call.IsSoft d d.awaitKeyframe := .stream _ _
    exact ((analyzed.trans (before.emitting allowed)).trans skip).trans (after.emitting allowed)
  · exact analyzed.trans (soft.emitting allowed)
  all_goals
    rw [refused] at available
    cases available

/-- Every call an event makes is permitted by the state it meets. -/
theorem step_gated {m : Machine} (ledger : Ledger cfg m) (input : Input) :
    ∃ calls : List Call, (step cfg m input).w.log = m.w.log ++ calls.map (Entry.mk m.w.event) ∧
      (∀ call ∈ calls, Gated cfg m.r input call) ∧
      (step cfg m input).r.nfsMounted = calls.foldl gateAfter m.r.nfsMounted := by
  unfold step
  split
  · next valid =>
    suffices Emitting (Gated cfg m.r input) (m.ctx input.event.streamId)
        (processEvent cfg input.event input.answers (m.ctx input.event.streamId)) by
      obtain ⟨calls, emits, each, -⟩ := this
      exact ⟨calls, emits.log, each, emits.gate⟩
    unfold processEvent
    cases type : input.event.type with
    | streamStart => exact processStreamStart_emitting cfg (gated_other cfg (by simp [type])) _
    | streamStop => exact processStreamStop_emitting cfg (gated_other cfg (by simp [type])) _
    | video =>
      cases unavailable : storageUnavailable cfg m.r input.answers.mounts input.event.monoNs
      · have free := gated_available cfg type unavailable
        exact processVideo_emitting cfg
          ⟨⟨fun call _ => free call, fun call _ => free call⟩, fun call _ => free call,
            fun _ _ _ _ => free _, fun _ _ _ _ _ => free _⟩
          (ledger.taken cfg _ _) (valid_le cfg _ valid) type (fun _ _ => free _) (free _)
      · obtain ⟨calls, emits, each, counts⟩ := processVideo_unavailable cfg input.event input.answers
          (m.ctx input.event.streamId) unavailable
        exact ⟨calls, emits, fun call member => .inl (each call member), counts⟩
  · exact ⟨[], by simp, by simp, rfl⟩

variable (mounts : List MntEnt) (nowNs : UInt64)

/-- In a run the flag follows the findings logged. -/
theorem flag_run (require : cfg.requireNfsMount = true) (inputs : List Input) :
    (run cfg mounts nowNs inputs).r.nfsMounted =
      ((run cfg mounts nowNs inputs).w.log.map Entry.call).foldl gateAfter
        (pathHasNfsMount cfg.recordDir mounts) := by
  refine Run.history (step cfg) (start cfg mounts nowNs) (fun _ m => m.r.nfsMounted =
    (m.w.log.map Entry.call).foldl gateAfter (pathHasNfsMount cfg.recordDir mounts)) ?_ ?_ inputs
  · simp [start, World.start, require]
  · intro past input flag
    obtain ⟨calls, log, -, gate⟩ := step_gated cfg (ledger_run cfg mounts nowNs past) input
    rw [run] at log gate
    have made (event : Nat) : (calls.map (Entry.mk event)).map Entry.call = calls := by
      simp [Function.comp_def]
    rw [gate, log, List.map_append, List.foldl_append, made, ← flag]

/-- Every call of a run is permitted by the state its event met. -/
theorem run_gated (inputs : List Input) :
    ∀ entry ∈ (run cfg mounts nowNs inputs).w.log, ∃ input, inputs[entry.event]? = some input ∧
      Gated cfg (run cfg mounts nowNs (inputs.take entry.event)).r input entry.call := by
  refine Run.history (step cfg) (start cfg mounts nowNs) (fun past m => ∀ entry ∈ m.w.log,
    ∃ input, past[entry.event]? = some input ∧
      Gated cfg (run cfg mounts nowNs (past.take entry.event)).r input entry.call) ?_ ?_ inputs
  · intro entry member
    cases member
  · intro past input gated entry member
    have event : (Run.run (step cfg) (start cfg mounts nowNs) past).w.event = past.length :=
      run_event cfg mounts nowNs past
    obtain ⟨calls, log, each, -⟩ := step_gated cfg (ledger_run cfg mounts nowNs past) input
    rw [run] at log
    rw [log, event] at member
    rcases List.mem_append.mp member with before | new
    · obtain ⟨found, place, permitted⟩ := gated entry before
      have inside := (List.getElem?_eq_some_iff.mp place).1
      refine ⟨found, by rw [List.getElem?_append_left inside, place], ?_⟩
      rw [List.take_append_of_le_length (Nat.le_of_lt inside)]
      exact permitted
    · obtain ⟨call, listed, rfl⟩ := List.mem_map.mp new
      exact ⟨input, by simp, by simpa using each call listed⟩

/-- The recorder had its storage for mounted when it checked it for the entry's
event: by what it had found before, or by the reading this check made. -/
def CheckedMounted (inputs : List Input) (event : Nat) (input : Input) : Prop :=
  let before := run cfg mounts nowNs (inputs.take event)
  FoundMounted cfg mounts (before.w.log.map Entry.call) ∨
    mountCheckDue before.r input.event.monoNs = true ∧
      pathHasNfsMount cfg.recordDir input.answers.mounts = true

theorem checkedMounted_of_available (require : cfg.requireNfsMount = true) (inputs : List Input)
    (event : Nat) (input : Input)
    (available : storageUnavailable cfg (run cfg mounts nowNs (inputs.take event)).r
      input.answers.mounts input.event.monoNs = false) :
    CheckedMounted cfg mounts nowNs inputs event input := by
  simp only [storageUnavailable, require, Bool.true_and, Bool.and_eq_false_iff, Bool.not_eq_false',
    Bool.and_eq_true] at available
  rcases available with flag | read
  · rw [flag_run cfg mounts nowNs require] at flag
    exact .inl ((foldl_gateAfter cfg mounts _).mp flag)
  · exact .inr read

/-- An entry made for a packet when the storage was found mounted, or one made for
another event, or for none, that only closes what is open. -/
def WorksMounted (inputs : List Input) (entry : Entry) : Prop :=
  (∃ input, inputs[entry.event]? = some input ∧ input.event.type = .video ∧
      CheckedMounted cfg mounts nowNs inputs entry.event input) ∨
    entry.call.IsClosing ∧ ∀ input, inputs[entry.event]? = some input → input.event.type ≠ .video

theorem run_worksMounted (require : cfg.requireNfsMount = true) (inputs : List Input) (entry : Entry)
    (member : entry ∈ (run cfg mounts nowNs inputs).w.log) (hard : ¬ entry.call.IsSoft) :
    WorksMounted cfg mounts nowNs inputs entry := by
  obtain ⟨input, place, gated⟩ := run_gated cfg mounts nowNs inputs entry member
  rcases gated with soft | ⟨other, closing⟩ | ⟨video, available⟩
  · exact (hard soft).elim
  · refine .inr ⟨closing, fun found same => ?_⟩
    rw [place] at same
    exact Option.some.inj same ▸ other
  · exact .inl ⟨input, place, video,
      checkedMounted_of_available cfg mounts nowNs require inputs entry.event input available⟩

/-- Apart from reading the mount table and requesting key frames, a recorder that
requires NFS works for packets only when it has found its storage mounted, and for
other events only to close what is open. -/
theorem works_when_mounted (require : cfg.requireNfsMount = true) (inputs : List Input)
    (m : Machine) (reached : Reached cfg mounts nowNs inputs m) :
    ∀ entry ∈ m.w.log, ¬ entry.call.IsSoft → WorksMounted cfg mounts nowNs inputs entry := by
  intro entry member hard
  rcases reached with rfl | ⟨answers, rfl⟩
  · exact run_worksMounted cfg mounts nowNs require inputs entry member hard
  · obtain ⟨calls, log, each⟩ := shutdown_log cfg answers (run cfg mounts nowNs inputs)
    rw [log] at member
    rcases List.mem_append.mp member with before | last
    · exact run_worksMounted cfg mounts nowNs require inputs entry before hard
    · obtain ⟨call, listed, rfl⟩ := List.mem_map.mp last
      rcases each call listed with soft | closing
      · exact (hard soft).elim
      · refine .inr ⟨closing, fun input place => ?_⟩
        rw [run_event, List.getElem?_eq_none (Nat.le_refl _)] at place
        cases place

def unmounted : Answers :=
  {goodAnswers with
    mounts := []
    finish := {goodClose with mounts := []}
    open_ := {goodAnswers.open_ with mounts := []}
    write := {goodAnswers.write with mounts := []}
    discard := {goodClose with mounts := []}}

/-- A key frame that arrives when the directory is mounted no longer. -/
def unmountingInputs : List Input :=
  [startAt 1 1000, {videoAt 1 1100 keyPacket with answers := unmounted}]

set_option maxRecDepth 10000 in
/-- The flag from startup lets the packet make directories, open a file and write. -/
theorem works_unmounted :
    let log := (run (sampleConfig true) sampleMounts 1 unmountingInputs).w.log
    pathHasNfsMount (sampleConfig true).recordDir [] = false ∧
      ⟨1, .mkdir "/rec/raw/s01".toList true⟩ ∈ log ∧
      ⟨1, .fopen "/rec/raw/s01/20240101_000001.h264.tmp".toList (some 0)⟩ ∈ log ∧
      ⟨1, .fwrite 0 .payload keyPacket .clean⟩ ∈ log := by
  decide

set_option maxRecDepth 10000 in
theorem works_when_mounted_unmounting :
    FoundMounted (sampleConfig true) sampleMounts
      ((run (sampleConfig true) sampleMounts 1 (unmountingInputs.take 1)).w.log.map Entry.call) := by
  rcases works_when_mounted (sampleConfig true) sampleMounts 1 rfl unmountingInputs _ (.inl rfl)
    ⟨1, .fwrite 0 .payload keyPacket .clean⟩ (by decide) id with
    ⟨input, place, -, found | ⟨-, read⟩⟩ | ⟨closing, -⟩
  · exact found
  · obtain rfl := Option.some.inj place
    cases read
  · exact closing.elim

end StreamRelay.Recorder
