import Mathlib.Logic.Function.Basic
import StreamRelay.Run

/-! The claim directory of one batch name, and the transcode runs of all hosts that want it. Each
operation on the file system is a step, and any other may come between. -/
namespace StreamRelay.Transcode

abbrev Text := List Char

structure Process where
  host : Text
  pid : Nat
  deriving DecidableEq, Repr

/-- STREAM_TRANSCODE_CLAIM_MAX_AGE_SEC, or 0 when that is no number. -/
structure ClaimConfig where
  claimMaxAgeSec : Nat

/-- `owner` is the file of that name: host and pid of the run that wrote it. -/
structure Dir where
  maker : Process
  madeAt : Nat
  mtime : Nat
  owner : Option Process
  deriving DecidableEq, Repr

/-- Where a run is with the claim, by its next operation: mkdir, the test for the directory, the
reads of host and pid, kill -0, stat, date, rm and mkdir of a stale claim, the owner file, and in
release_claim the test and rm. A check remembers how many directories had been made when it began,
and a claim when its directory was made; the code has neither. -/
inductive Stage where
  | idle
  | refused
  | checking (seen : Nat)
  | hostRead (seen : Nat) (host : Option Text)
  | pidRead (seen : Nat) (host : Option Text) (pid : Option Nat)
  | aging (seen : Nat)
  | dated (seen : Nat) (mtime : Option Nat)
  | stale (seen : Nat)
  | removed
  | made (time : Nat)
  | holding (time : Nat)
  | releasing (time : Nat)
  deriving DecidableEq, Repr

structure Run where
  alive : Bool
  stage : Stage
  deriving DecidableEq, Repr

/-- The directory that was made last, whether it is still there, and how many were made so far. -/
structure State where
  now : Nat
  dir : Dir
  present : Bool
  made : Nat
  runs : Process → Run

def State.start (now : Nat) : State :=
  ⟨now, ⟨⟨[], 0⟩, now, now, none⟩, false, 0, fun _ => ⟨false, .idle⟩⟩

/-- The process of a run may die at any time, and its pid be given to another. -/
inductive Input where
  | start (p : Process)
  | crash (p : Process)
  | tick (gone : Nat)
  | go (p : Process)
  deriving DecidableEq, Repr

namespace State

def setRun (p : Process) (run : Run) (s : State) : State :=
  {s with runs := Function.update s.runs p run}

def setStage (p : Process) (stage : Stage) (s : State) : State := s.setRun p ⟨true, stage⟩

def mkdir (p : Process) (s : State) : State :=
  {s with dir := ⟨p, s.now, s.now, none⟩, present := true, made := s.made + 1}

def rm (s : State) : State := {s with present := false}

/-- Without the directory the file cannot be written, which nobody notices. -/
def writeOwner (p : Process) (s : State) : State :=
  if s.present then {s with dir := {s.dir with mtime := s.now, owner := some p}} else s

def owner (s : State) : Option Process := if s.present then s.dir.owner else none

/-- The next operation of claim_batch, or of release_claim when the claim is held. A run that is
refused goes on to other batches, and may come back. -/
def go (cfg : ClaimConfig) (p : Process) (s : State) : State :=
  match (s.runs p).stage with
  | .idle => if s.present then s.setStage p .refused else (s.mkdir p).setStage p (.made s.now)
  | .refused => if s.present then s.setStage p (.checking s.made) else s.setStage p .idle
  | .checking seen => s.setStage p (.hostRead seen (s.owner.map Process.host))
  | .hostRead seen host => s.setStage p (.pidRead seen host (s.owner.map Process.pid))
  | .pidRead seen host pid =>
    match pid with
    | some pid =>
      if host = some p.host ∧ (s.runs ⟨p.host, pid⟩).alive = false then s.setStage p (.stale seen)
      else s.setStage p (.aging seen)
    | none => s.setStage p (.aging seen)
  | .aging seen =>
    if 0 < cfg.claimMaxAgeSec then
      s.setStage p (.dated seen (if s.present then some s.dir.mtime else none))
    else s.setStage p .idle
  | .dated seen mtime =>
    if s.now - mtime.getD 0 > cfg.claimMaxAgeSec then s.setStage p (.stale seen)
    else s.setStage p .idle
  | .stale _ => s.rm.setStage p .removed
  | .removed => if s.present then s.setStage p .idle else (s.mkdir p).setStage p (.made s.now)
  | .made time => (s.writeOwner p).setStage p (.holding time)
  | .holding time => if s.present then s.setStage p (.releasing time) else s.setStage p .idle
  | .releasing _ => s.rm.setStage p .idle

end State

def step (cfg : ClaimConfig) (s : State) : Input → State
  | .start p => if (s.runs p).alive then s else s.setStage p .idle
  | .crash p => s.setRun p ⟨false, (s.runs p).stage⟩
  | .tick gone => {s with now := s.now + gone}
  | .go p => if (s.runs p).alive then s.go cfg p else s

def run (cfg : ClaimConfig) (now : Nat) (inputs : List Input) : State :=
  Run.run (step cfg) (.start now) inputs

/-- Since when a run has made the directory and not yet released it. -/
def Stage.claimed : Stage → Option Nat
  | .made time | .holding time | .releasing time => some time
  | _ => none

/-- A live run for which claim_batch has returned success, and release_claim is not yet done. -/
def State.Holds (p : Process) (s : State) : Prop :=
  (s.runs p).alive = true ∧ ∃ time, (s.runs p).stage = .holding time ∨ (s.runs p).stage = .releasing time

/-- A live run that has made the directory, or holds the claim. -/
def State.Has (p : Process) (time : Nat) (s : State) : Prop :=
  (s.runs p).alive = true ∧ (s.runs p).stage.claimed = some time

/-- A live run releases its claim before it is too old, from when it made the directory. -/
def Prompt (cfg : ClaimConfig) (s : State) : Input → Prop
  | .tick gone => 0 < cfg.claimMaxAgeSec → ∀ p time, s.Has p time →
      s.now + gone ≤ time + cfg.claimMaxAgeSec
  | _ => True

/-- How many directories had been made when the check of a claim began that is to be removed. -/
def Stage.removes : Stage → Option Nat
  | .stale seen => some seen
  | _ => none

/-- No directory has been made since the check of the claim that is being removed began. -/
def Unchanged (s : State) : Input → Prop
  | .go p => (s.runs p).alive = true → (s.runs p).stage.removes.all fun seen => s.made = seen
  | _ => True

instance (s : State) (input : Input) : Decidable (Unchanged s input) :=
  match input with
  | .go p => inferInstanceAs (Decidable ((s.runs p).alive = true → _))
  | .start _ | .crash _ | .tick _ => isTrue trivial

def Orderly (cfg : ClaimConfig) (s : State) (input : Input) : Prop :=
  Prompt cfg s input ∧ Unchanged s input

/-- What a run has found out in its check is true of the directory, if none was made since. -/
def Evidence (cfg : ClaimConfig) (s : State) : Stage → Prop
  | .checking seen | .aging seen => seen ≤ s.made
  | .hostRead seen host => seen ≤ s.made ∧
      (s.made = seen → ∀ found, host = some found → s.dir.maker.host = found)
  | .pidRead seen host pid => seen ≤ s.made ∧
      (s.made = seen → ∀ found number, host = some found → pid = some number →
        s.dir.maker = ⟨found, number⟩)
  | .dated seen mtime => seen ≤ s.made ∧ 0 < cfg.claimMaxAgeSec ∧
      (s.made = seen → match mtime with
        | some mtime => s.dir.madeAt ≤ mtime
        | none => s.present = false)
  | .stale seen => seen ≤ s.made ∧ (s.made = seen → ∀ q time, ¬ s.Has q time)
  | _ => True

/-- Whoever has the claim is the one who made the directory that is there. -/
structure Owned (cfg : ClaimConfig) (s : State) : Prop where
  owner : ∀ p time, s.Has p time → s.present = true ∧ s.dir.maker = p ∧ s.dir.madeAt = time
  written : ∀ p, s.dir.owner = some p → p = s.dir.maker
  dates : s.dir.madeAt ≤ s.dir.mtime ∧ s.dir.madeAt ≤ s.now
  young : 0 < cfg.claimMaxAgeSec → ∀ p time, s.Has p time → s.now ≤ time + cfg.claimMaxAgeSec
  evidence : ∀ p, (s.runs p).alive = true → Evidence cfg s (s.runs p).stage

variable {cfg : ClaimConfig} {s next : State} {p q : Process}

theorem State.Holds.has (holds : s.Holds p) : ∃ time, s.Has p time := by
  obtain ⟨alive, time, stage | stage⟩ := holds
  · exact ⟨time, alive, by rw [stage]; rfl⟩
  · exact ⟨time, alive, by rw [stage]; rfl⟩

theorem setStage_self (p : Process) (stage : Stage) (s : State) :
    (s.setStage p stage).runs p = ⟨true, stage⟩ := Function.update_self ..

theorem setStage_other (apart : q ≠ p) (stage : Stage) (s : State) :
    (s.setStage p stage).runs q = s.runs q := Function.update_of_ne apart ..

/-- Whoever has the claim afterwards had it before, or is the run whose stage was set. -/
theorem has_setStage {time : Nat} {stage : Stage} (has : (s.setStage p stage).Has q time) :
    (q = p ∧ stage.claimed = some time) ∨ (q ≠ p ∧ s.Has q time) := by
  by_cases same : q = p
  · subst same
    have claimed := has.2
    rw [setStage_self] at claimed
    exact Or.inl ⟨rfl, claimed⟩
  · rw [State.Has, setStage_other same] at has
    exact Or.inr ⟨same, has⟩

theorem Evidence.mono {stage : Stage} (evidence : Evidence cfg s stage) (made : next.made = s.made)
    (dir : next.dir.maker = s.dir.maker ∧ next.dir.madeAt = s.dir.madeAt)
    (present : s.present = false → next.present = false)
    (has : ∀ q time, next.Has q time → s.Has q time) : Evidence cfg next stage := by
  cases stage with
  | hostRead seen host =>
    simp only [Evidence, made, dir.1] at evidence ⊢
    exact evidence
  | pidRead seen host pid =>
    simp only [Evidence, made, dir.1] at evidence ⊢
    exact evidence
  | dated seen mtime =>
    obtain ⟨before, positive, known⟩ := evidence
    refine ⟨made ▸ before, positive, fun same => ?_⟩
    have known := known (made ▸ same)
    cases mtime with
    | none => exact present known
    | some mtime =>
      rw [dir.2]
      exact known
  | stale seen =>
    obtain ⟨before, nobody⟩ := evidence
    exact ⟨made ▸ before, fun same q time holds => nobody (made ▸ same) q time (has q time holds)⟩
  | checking seen =>
    simp only [Evidence, made] at evidence ⊢
    exact evidence
  | aging seen =>
    simp only [Evidence, made] at evidence ⊢
    exact evidence
  | _ => trivial

/-- When another directory has been made since, a check knows nothing. -/
theorem Evidence.outdated {stage : Stage} (evidence : Evidence cfg s stage)
    (made : next.made = s.made + 1) : Evidence cfg next stage := by
  cases stage with
  | checking seen =>
    simp only [Evidence, made] at evidence ⊢
    omega
  | aging seen =>
    simp only [Evidence, made] at evidence ⊢
    omega
  | hostRead seen host =>
    have before := evidence.1
    exact ⟨by omega, fun same => by omega⟩
  | pidRead seen host pid =>
    have before := evidence.1
    exact ⟨by omega, fun same => by omega⟩
  | dated seen mtime =>
    have before := evidence.1
    exact ⟨by omega, evidence.2.1, fun same => by omega⟩
  | stale seen =>
    have before := evidence.1
    exact ⟨by omega, fun same => by omega⟩
  | _ => trivial

/-- A run turns to its next operation without a claim that it had not. -/
theorem Owned.turn (owned : Owned cfg s) (p : Process) {stage : Stage}
    (claimed : ∀ time, stage.claimed = some time → s.Has p time)
    (evidence : Evidence cfg s stage) : Owned cfg (s.setStage p stage) := by
  have has : ∀ q time, (s.setStage p stage).Has q time → s.Has q time := by
    intro q time has
    rcases has_setStage has with ⟨rfl, same⟩ | ⟨-, before⟩
    · exact claimed time same
    · exact before
  refine ⟨fun q time holds => owned.owner q time (has q time holds), owned.written, owned.dates,
    fun positive q time holds => owned.young positive q time (has q time holds), fun q alive => ?_⟩
  by_cases same : q = p
  · subst same
    rw [setStage_self]
    exact evidence.mono rfl ⟨rfl, rfl⟩ id has
  · rw [setStage_other same] at alive ⊢
    exact (owned.evidence q alive).mono rfl ⟨rfl, rfl⟩ id has

/-- Without a claim on the way there is nothing more to show. -/
theorem Owned.idle (owned : Owned cfg s) (p : Process) : Owned cfg (s.setStage p .idle) :=
  owned.turn p (fun time claimed => by cases claimed) trivial

theorem Owned.crash (owned : Owned cfg s) (p : Process) :
    Owned cfg (s.setRun p ⟨false, (s.runs p).stage⟩) := by
  have apart : ∀ q, ((s.setRun p ⟨false, (s.runs p).stage⟩).runs q).alive = true →
      (s.setRun p ⟨false, (s.runs p).stage⟩).runs q = s.runs q := by
    intro q alive
    by_cases same : q = p
    · subst same
      simp only [State.setRun, Function.update_self] at alive
      cases alive
    · exact Function.update_of_ne same ..
  have has : ∀ q time, (s.setRun p ⟨false, (s.runs p).stage⟩).Has q time → s.Has q time := by
    intro q time has
    rw [State.Has, apart q has.1] at has
    exact has
  refine ⟨fun q time holds => owned.owner q time (has q time holds), owned.written, owned.dates,
    fun positive q time holds => owned.young positive q time (has q time holds), fun q alive => ?_⟩
  have same := apart q alive
  rw [same] at alive ⊢
  exact (owned.evidence q alive).mono rfl ⟨rfl, rfl⟩ id has

theorem Owned.tick (owned : Owned cfg s) (gone : Nat) (prompt : Prompt cfg s (.tick gone)) :
    Owned cfg {s with now := s.now + gone} := by
  refine ⟨owned.owner, owned.written, ⟨owned.dates.1, ?_⟩, prompt, fun q alive => ?_⟩
  · exact Nat.le_trans owned.dates.2 (Nat.le_add_right ..)
  · exact (owned.evidence q alive).mono rfl ⟨rfl, rfl⟩ id fun _ _ has => has

/-- The directory is made where there is none, so nobody has the claim. -/
theorem Owned.mkdir (owned : Owned cfg s) (absent : s.present = false) (p : Process) :
    Owned cfg ((s.mkdir p).setStage p (.made s.now)) := by
  have has : ∀ q time, ((s.mkdir p).setStage p (.made s.now)).Has q time → q = p ∧ time = s.now := by
    intro q time has
    rcases has_setStage has with ⟨rfl, same⟩ | ⟨-, before⟩
    · exact ⟨rfl, (Option.some.inj same).symm⟩
    · have present := (owned.owner q time before).1
      rw [absent] at present
      cases present
  refine ⟨fun q time holds => ?_, fun q written => ?_, ⟨Nat.le_refl _, Nat.le_refl _⟩,
    fun _ q time holds => ?_, fun q alive => ?_⟩
  · obtain ⟨rfl, rfl⟩ := has q time holds
    exact ⟨rfl, rfl, rfl⟩
  · cases written
  · obtain ⟨-, rfl⟩ := has q time holds
    exact Nat.le_add_right ..
  · by_cases same : q = p
    · subst same
      rw [setStage_self]
      trivial
    · rw [setStage_other same] at alive ⊢
      exact (owned.evidence q alive).outdated rfl

/-- Nobody else is affected when a run removes the directory, for it had the claim itself or nobody
had. -/
theorem Owned.rm (owned : Owned cfg s) (p : Process) {stage : Stage} (unclaimed : stage.claimed = none)
    (evidence : Evidence cfg s.rm stage) (mine : ∀ q time, s.Has q time → q = p) :
    Owned cfg (s.rm.setStage p stage) := by
  have nobody : ∀ q time, ¬ (s.rm.setStage p stage).Has q time := by
    intro q time has
    rcases has_setStage has with ⟨-, same⟩ | ⟨apart, before⟩
    · rw [unclaimed] at same
      cases same
    · exact apart (mine q time before)
  refine ⟨fun q time has => absurd has (nobody q time), owned.written, owned.dates,
    fun _ q time has => absurd has (nobody q time), fun q alive => ?_⟩
  by_cases same : q = p
  · subst same
    rw [setStage_self]
    exact evidence.mono rfl ⟨rfl, rfl⟩ id fun q time has => absurd has (nobody q time)
  · rw [setStage_other same] at alive ⊢
    exact (owned.evidence q alive).mono rfl ⟨rfl, rfl⟩ (fun _ => rfl)
      fun q time has => absurd has (nobody q time)

theorem Owned.writeOwner (owned : Owned cfg s) {time : Nat} (has : s.Has p time) :
    Owned cfg ((s.writeOwner p).setStage p (.holding time)) := by
  obtain ⟨present, maker, madeAt⟩ := owned.owner p time has
  have written : s.writeOwner p = {s with dir := {s.dir with mtime := s.now, owner := some p}} :=
    if_pos present
  have before : Owned cfg (s.writeOwner p) := by
    rw [written]
    refine ⟨owned.owner, fun q same => ?_, ⟨owned.dates.2, owned.dates.2⟩, owned.young,
      fun q alive => ?_⟩
    · exact (Option.some.inj same).symm.trans maker.symm
    · exact (owned.evidence q alive).mono rfl ⟨rfl, rfl⟩ id fun _ _ has => has
  refine before.turn p (fun at' claimed => ?_) trivial
  rw [written]
  exact Option.some.inj claimed ▸ has

theorem Owned.owner_maker (owned : Owned cfg s) {o : Process} (found : s.owner = some o) :
    o = s.dir.maker := by
  rw [State.owner] at found
  split at found
  · exact owned.written o found
  · cases found

theorem Owned.go (owned : Owned cfg s) (alive : (s.runs p).alive = true)
    (unchanged : Unchanged s (.go p)) : Owned cfg (s.go cfg p) := by
  have evidence := owned.evidence p alive
  have unclaimed : ∀ {stage : Stage}, stage.claimed = none →
      ∀ time, stage.claimed = some time → s.Has p time := by
    intro stage none time some
    rw [none] at some
    cases some
  rw [State.go]
  cases stage : (s.runs p).stage with
  | idle =>
    dsimp only
    split
    · exact owned.turn p (unclaimed rfl) trivial
    · rename_i absent
      exact owned.mkdir (Bool.eq_false_iff.mpr absent) p
  | refused =>
    dsimp only
    split
    · exact owned.turn p (unclaimed rfl) (Nat.le_refl _)
    · exact owned.idle p
  | checking seen =>
    rw [stage] at evidence
    refine owned.turn p (unclaimed rfl) ⟨evidence, fun _ host found => ?_⟩
    obtain ⟨o, writer, rfl⟩ := Option.map_eq_some_iff.mp found
    rw [owned.owner_maker writer]
  | hostRead seen host =>
    rw [stage] at evidence
    refine owned.turn p (unclaimed rfl) ⟨evidence.1, fun same host' pid found read => ?_⟩
    obtain ⟨o, writer, rfl⟩ := Option.map_eq_some_iff.mp read
    rw [← evidence.2 same host' found, owned.owner_maker writer]
  | pidRead seen host pid =>
    rw [stage] at evidence
    have aging : Owned cfg (s.setStage p (.aging seen)) := owned.turn p (unclaimed rfl) evidence.1
    cases pid with
    | none => exact aging
    | some pid =>
      dsimp only
      split
      · rename_i dead
        refine owned.turn p (unclaimed rfl) ⟨evidence.1, fun same q time has => ?_⟩
        -- The maker is dead, and only the maker could have the claim.
        have maker := evidence.2 same p.host pid dead.1 rfl
        have lives := has.1
        rw [← (owned.owner q time has).2.1, maker, dead.2] at lives
        cases lives
      · exact aging
  | aging seen =>
    rw [stage] at evidence
    dsimp only
    split
    · rename_i positive
      refine owned.turn p (unclaimed rfl) ⟨evidence, positive, fun _ => ?_⟩
      by_cases present : s.present = true
      · rw [if_pos present]
        exact owned.dates.1
      · rw [if_neg present]
        exact Bool.eq_false_iff.mpr present
    · exact owned.idle p
  | dated seen mtime =>
    rw [stage] at evidence
    obtain ⟨before, positive, known⟩ := evidence
    dsimp only
    split
    · rename_i old
      refine owned.turn p (unclaimed rfl) ⟨before, fun same q time has => ?_⟩
      have known := known same
      obtain ⟨present, -, madeAt⟩ := owned.owner q time has
      cases mtime with
      | none =>
        rw [known] at present
        cases present
      | some mtime =>
        have young := owned.young positive q time has
        simp only [Option.getD_some] at old known
        omega
    · exact owned.idle p
  | stale seen =>
    rw [stage] at evidence
    have same := unchanged alive
    rw [stage] at same
    have nobody := evidence.2 (of_decide_eq_true same)
    exact owned.rm p rfl trivial fun q time has => absurd has (nobody q time)
  | removed =>
    dsimp only
    split
    · exact owned.idle p
    · rename_i absent
      exact owned.mkdir (Bool.eq_false_iff.mpr absent) p
  | made time => exact owned.writeOwner ⟨alive, by rw [stage]; rfl⟩
  | holding time =>
    dsimp only
    split
    · refine owned.turn p (fun at' claimed => ?_) trivial
      exact ⟨alive, by rw [stage]; exact claimed⟩
    · exact owned.idle p
  | releasing time =>
    have mine : s.Has p time := ⟨alive, by rw [stage]; rfl⟩
    refine owned.rm p rfl trivial fun q time' has => ?_
    exact (owned.owner q time' has).2.1.symm.trans (owned.owner p time mine).2.1

theorem Owned.step (owned : Owned cfg s) {input : Input} (orderly : Orderly cfg s input) :
    Owned cfg (step cfg s input) := by
  cases input with
  | start p =>
    simp only [Transcode.step]
    split
    · exact owned
    · exact owned.idle p
  | crash p => exact owned.crash p
  | tick gone => exact owned.tick gone orderly.1
  | go p =>
    simp only [Transcode.step]
    split
    · rename_i alive
      exact owned.go alive orderly.2
    · exact owned

theorem Owned.start (cfg : ClaimConfig) (now : Nat) : Owned cfg (.start now) := by
  refine ⟨fun p time has => ?_, fun p written => ?_, ⟨Nat.le_refl _, Nat.le_refl _⟩,
    fun _ p time has => ?_, fun p alive => ?_⟩
  · cases has.1
  · cases written
  · cases has.1
  · cases alive

/-- In an orderly run no two live runs ever hold the claim at once. -/
theorem claims_exclusive (cfg : ClaimConfig) (now : Nat) (inputs : List Input)
    (orderly : Run.Always (step cfg) (.start now) (Orderly cfg) inputs) (p q : Process)
    (holds : (run cfg now inputs).Holds p) (also : (run cfg now inputs).Holds q) : p = q := by
  have owned : Owned cfg (run cfg now inputs) :=
    Run.history_while (step cfg) (.start now) (Orderly cfg) (fun _ s => Owned cfg s)
      (.start cfg now) (fun _ _ owned orderly => owned.step orderly) inputs orderly
  obtain ⟨time, has⟩ := holds.has
  obtain ⟨later, too⟩ := also.has
  exact (owned.owner p time has).2.1.symm.trans (owned.owner q later too).2.1

theorem prompt_without_tick (cfg : ClaimConfig) (start : State) (inputs : List Input)
    (each : inputs.all fun | .tick _ => false | _ => true) :
    Run.Always (step cfg) start (Prompt cfg) inputs := by
  rintro past input rest rfl
  have here := List.all_eq_true.mp each input (by simp)
  cases input with
  | tick gone => cases here
  | _ => trivial

/-- A run takes the claim and dies, and the claim grows too old. -/
def left : List Input :=
  [.start ⟨['a'], 1⟩, .go ⟨['a'], 1⟩, .go ⟨['a'], 1⟩, .crash ⟨['a'], 1⟩, .tick 1801]

/-- Up to its next operation, a run finds that the claim is stale. -/
def finds (p : Process) : List Input := .start p :: List.replicate 7 (.go p)

/-- It removes the claim, and takes it. -/
def takes (p : Process) : List Input := List.replicate 3 (.go p)

theorem prompt_left (later : List Input)
    (each : later.all fun | .tick _ => false | _ => true) :
    Run.Always (step ⟨1800⟩) (.start 0) (Prompt ⟨1800⟩) (left ++ later) := by
  rw [Run.always_append]
  refine ⟨?_, prompt_without_tick _ _ later each⟩
  simp only [left, Run.always_cons, Run.always_nil, and_true]
  refine ⟨trivial, trivial, trivial, trivial, fun _ p time has => ?_⟩
  have alive := has.1
  by_cases same : p = ⟨['a'], 1⟩
  · subst same
    cases alive
  · change ((Function.update (Function.update (Function.update (Function.update
      (fun _ => (⟨false, .idle⟩ : Run)) _ _) _ _) _ _) _ _ : Process → Run) p).alive = true at alive
    rw [Function.update_of_ne same, Function.update_of_ne same, Function.update_of_ne same,
      Function.update_of_ne same] at alive
    cases alive

def nextRun : Process := ⟨['b'], 2⟩

/-- The next run removes the claim and takes it, before another run finds it. -/
def inOrder : List Input := left ++ (finds nextRun ++ takes nextRun ++ finds ⟨['c'], 3⟩)

theorem inOrder_exclusive :
    (run ⟨1800⟩ 0 inOrder).Holds nextRun ∧ ∀ q, (run ⟨1800⟩ 0 inOrder).Holds q → nextRun = q := by
  have orderly : Run.Always (step ⟨1800⟩) (.start 0) (Orderly ⟨1800⟩) inOrder := by
    have prompt := prompt_left (finds nextRun ++ takes nextRun ++ finds ⟨['c'], 3⟩) (by decide)
    have unchanged : Run.Always (step ⟨1800⟩) (.start 0) Unchanged inOrder := by decide
    exact fun past input rest split => ⟨prompt past input rest split, unchanged past input rest split⟩
  have holds : (run ⟨1800⟩ 0 inOrder).Holds nextRun := ⟨by decide, 1801, Or.inl (by decide)⟩
  exact ⟨holds, fun q also => claims_exclusive ⟨1800⟩ 0 inOrder orderly nextRun q holds also⟩

/-- Two runs find the claim stale, and the second removes the one that the first has taken. -/
def twoFind : List Input :=
  left ++ (finds nextRun ++ finds ⟨['c'], 3⟩ ++ takes nextRun ++ takes ⟨['c'], 3⟩)

theorem both_hold :
    Run.Always (step ⟨1800⟩) (.start 0) (Prompt ⟨1800⟩) twoFind ∧
      (run ⟨1800⟩ 0 twoFind).Holds nextRun ∧ (run ⟨1800⟩ 0 twoFind).Holds ⟨['c'], 3⟩ := by
  refine ⟨prompt_left _ (by decide), ?_, ?_⟩
  · exact ⟨by decide, 1801, Or.inl (by decide)⟩
  · exact ⟨by decide, 1801, Or.inl (by decide)⟩

end StreamRelay.Transcode
