import Mathlib.Logic.Function.Basic
import StreamRelay.Run
import StreamRelay.Transcode.Batches

/-! Transcode runs on several hosts over one stream directory, with DELETE_SOURCE. Each of their
operations on the shared files is a step. No claim is stale, and no run dies. -/
namespace StreamRelay.Transcode.Jobs

/-- The BATCH_SIZE and PARALLEL of a run. -/
structure RunConfig where
  batchSize : Nat
  parallel : Nat

/-- Where transcode_batch is by its next operation: the test for the output, the files that cat has
still to open and whether it found all before, mv, the files still to mark, the file to delete. -/
inductive Stage where
  | claimed
  | reading (left : List File) (whole : Bool)
  | encoded
  | marking (left : List File)
  | deleting (f : File) (left : List File)
  | releasing
  | released
  deriving DecidableEq, Repr

structure Job where
  run : Nat
  batch : List File
  stage : Stage
  deriving DecidableEq, Repr

/-- One pass of process_stream_dir: what is left of the listing, and whether the batch is full, so that
the claim is next. -/
structure Pass where
  listing : List File
  loop : Loop
  full : Bool
  deriving DecidableEq, Repr

/-- The raw files in the order of their names, those with a marker, the claim directories, and each
finished output with the files that it was made of. -/
structure State where
  files : List File
  markers : List File
  claims : List (List Char)
  outputs : List Char → Option (List File)
  passes : Nat → Pass
  jobs : List Job

def State.start (files : List File) : State :=
  ⟨files, [], [], fun _ => none, fun _ => ⟨[], .start, false⟩, []⟩

/-- `go` takes the next operation of a job, with the status of ffmpeg or of mv. -/
inductive Input where
  | scan (run : Nat) (eligible : File → Bool)
  | test (run : Nat)
  | claim (run : Nat)
  | go (job : Nat) (ok : Bool)

def Job.active (job : Job) : Bool := job.stage ≠ .released

namespace State

def setPass (p : Nat) (pass : Pass) (s : State) : State :=
  {s with passes := Function.update s.passes p pass}

def setStage (j : Nat) (job : Job) (stage : Stage) (s : State) : State :=
  {s with jobs := s.jobs.set j {job with stage := stage}}

def activeJobs (p : Nat) (s : State) : Nat := s.jobs.countP fun job => job.run = p && job.active

/-- A run lists the directory when it is done with the last pass. -/
def scan (p : Nat) (eligible : File → Bool) (s : State) : State :=
  let pass := s.passes p
  if pass.listing = [] ∧ pass.full = false ∧ s.activeJobs p = 0 then
    s.setPass p ⟨s.files.filter eligible, .start, false⟩
  else s

/-- With PARALLEL 1 the pass goes on when the job is over. -/
def test (cfg : RunConfig) (p : Nat) (s : State) : State :=
  let pass := s.passes p
  if pass.full ∨ (cfg.parallel ≤ 1 ∧ 0 < s.activeJobs p) then s
  else
    match pass.listing with
    | [] => s
    | f :: listing =>
      match pass.loop.read cfg.batchSize (f ∈ s.markers) f with
      | .goesOn loop => s.setPass p ⟨listing, loop, false⟩
      | .full loop => s.setPass p ⟨listing, loop, true⟩

def waits (cfg : RunConfig) (p : Nat) (s : State) : Bool :=
  !(s.passes p).full || decide (cfg.parallel ≤ s.activeJobs p)

/-- The claim of the batch is there to be taken. -/
def grants (cfg : RunConfig) (p : Nat) (s : State) : Bool :=
  !s.waits cfg p && !s.claims.contains (outName (s.passes p).loop.batch)

def claim (cfg : RunConfig) (p : Nat) (s : State) : State :=
  let pass := s.passes p
  let s' := s.setPass p {pass with loop := pass.loop.clear, full := false}
  if s.waits cfg p then s
  else if s.claims.contains (outName pass.loop.batch) then s'
  else
    {s' with
      claims := outName pass.loop.batch :: s.claims
      jobs := s.jobs ++ [⟨p, pass.loop.batch, .claimed⟩]}

def rename (batch : List File) (s : State) : State :=
  {s with outputs := Function.update s.outputs (outName batch) (some batch)}

def touch (f : File) (s : State) : State := {s with markers := f :: s.markers}

def rm (f : File) (s : State) : State := {s with files := s.files.filter (· ≠ f)}

def release (name : List Char) (s : State) : State := {s with claims := s.claims.filter (· ≠ name)}

/-- What mv returns is not looked at. -/
def go (j : Nat) (job : Job) (ok : Bool) (s : State) : State :=
  match job.stage with
  | .claimed =>
    if (s.outputs (outName job.batch)).isSome then s.setStage j job (.marking job.batch)
    else s.setStage j job (.reading job.batch true)
  | .reading (f :: left) whole => s.setStage j job (.reading left (whole && f ∈ s.files))
  | .reading [] whole => s.setStage j job (if whole && ok then .encoded else .releasing)
  | .encoded => (if ok then s.rename job.batch else s).setStage j job (.marking job.batch)
  | .marking (f :: left) => (s.touch f).setStage j job (.deleting f left)
  | .marking [] => s.setStage j job .releasing
  | .deleting f left => (s.rm f).setStage j job (.marking left)
  | .releasing => (s.release (outName job.batch)).setStage j job .released
  | .released => s

end State

def step (cfg : Nat → RunConfig) (s : State) : Input → State
  | .scan p eligible => s.scan p eligible
  | .test p => s.test (cfg p) p
  | .claim p => s.claim (cfg p) p
  | .go j ok =>
    match s.jobs[j]? with
    | some job => s.go j job ok
    | none => s

def run (cfg : Nat → RunConfig) (files : List File) (inputs : List Input) : State :=
  Run.run (step cfg) (.start files) inputs

/-- No file is in two finished outputs, and what has been deleted is in one. -/
def Kept (files : List File) (s : State) : Prop :=
  (∀ one other a b, s.outputs one = some a → s.outputs other = some b → one ≠ other → a.Disjoint b) ∧
    ∀ f ∈ files, f ∉ s.files → ∃ name batch, s.outputs name = some batch ∧ f ∈ batch

/-- A batch that is claimed shares no file with the batch of a job in progress, an output that a job
finds was made of the files of its batch, and mv works. -/
def Separate (cfg : Nat → RunConfig) (s : State) : Input → Prop
  | .claim p => s.grants (cfg p) p = true →
      ∀ job ∈ s.jobs, job.active = true → ∀ f ∈ (s.passes p).loop.batch, f ∉ job.batch
  | .go j ok => s.jobs[j]?.all fun job =>
      match job.stage with
      | .claimed => (s.outputs (outName job.batch)).all fun batch => job.batch.all (· ∈ batch)
      | .encoded => ok
      | _ => true
  | _ => True

instance (cfg : Nat → RunConfig) (s : State) (input : Input) : Decidable (Separate cfg s input) :=
  match input with
  | .claim p => inferInstanceAs (Decidable (s.grants (cfg p) p = true → _))
  | .go _ _ => inferInstanceAs (Decidable (_ = true))
  | .scan _ _ | .test _ => isTrue trivial

/-- The files that a job has still to delete. -/
def Stage.pending : Stage → List File
  | .marking left => left
  | .deleting f left => f :: left
  | _ => []

def State.Output (f : File) (s : State) : Prop :=
  ∃ name batch, s.outputs name = some batch ∧ f ∈ batch

/-- While a job reads there is no output of its name, and none with a file that it has found. -/
def Fits (s : State) (job : Job) : Prop :=
  match job.stage with
  | .reading left whole => s.outputs (outName job.batch) = none ∧
      (whole = true → ∀ f ∈ job.batch, f ∈ left ∨ ¬ s.Output f)
  | .encoded => s.outputs (outName job.batch) = none ∧ ∀ f ∈ job.batch, ¬ s.Output f
  | .marking left => ∀ f ∈ left, f ∈ job.batch ∧ s.Output f
  | .deleting g left => ∀ f ∈ g :: left, f ∈ job.batch ∧ s.Output f
  | _ => True

structure Sound (raw : List File) (s : State) : Prop where
  apart : ∀ (i j : Nat) (a b : Job), s.jobs[i]? = some a → s.jobs[j]? = some b → i ≠ j →
    a.active = true → b.active = true →
    outName a.batch ≠ outName b.batch ∧ ∀ f ∈ a.batch, f ∉ b.batch
  claimed : ∀ (i : Nat) (job : Job), s.jobs[i]? = some job → job.active = true → outName job.batch ∈ s.claims
  fits : ∀ (i : Nat) (job : Job), s.jobs[i]? = some job → Fits s job
  /-- A file that is in an output has been deleted, or is about to be. -/
  taken : ∀ f, s.Output f → f ∉ s.files ∨
    ∃ (i : Nat) (job : Job), s.jobs[i]? = some job ∧ f ∈ job.stage.pending
  kept : Kept raw s

variable {raw : List File} {s base : State} {i j : Nat} {job : Job} {stage : Stage} {f : File}

theorem job_setStage (same : base.jobs = s.jobs) {other : Job}
    (at_ : (base.setStage j job stage).jobs[i]? = some other) :
    (i = j ∧ other = {job with stage := stage}) ∨ (i ≠ j ∧ s.jobs[i]? = some other) := by
  rw [State.setStage, same, List.getElem?_set] at at_
  split at at_
  · rename_i here
    split at at_
    · exact Or.inl ⟨here.symm, (Option.some.inj at_).symm⟩
    · cases at_
  · rename_i apart
    exact Or.inr ⟨Ne.symm apart, at_⟩

theorem job_setStage_self (same : base.jobs = s.jobs) (here : s.jobs[j]? = some job) :
    (base.setStage j job stage).jobs[j]? = some {job with stage := stage} := by
  have inside : j < s.jobs.length := (List.getElem?_eq_some_iff.mp here).1
  rw [State.setStage, same, List.getElem?_set_self inside]

theorem job_setStage_other (same : base.jobs = s.jobs) (apart : i ≠ j) :
    (base.setStage j job stage).jobs[i]? = s.jobs[i]? := by
  rw [State.setStage, same, List.getElem?_set_ne (Ne.symm apart)]

theorem active_of_pending (pending : f ∈ job.stage.pending) : job.active = true := by
  rw [Job.active]
  cases stage : job.stage with
  | released =>
    rw [stage] at pending
    cases pending
  | _ => rfl

theorem Fits.of_pending (fits : Fits s job) (pending : f ∈ job.stage.pending) :
    f ∈ job.batch ∧ s.Output f := by
  cases stage : job.stage with
  | marking left =>
    rw [stage] at pending
    simp only [Fits, stage] at fits
    exact fits f pending
  | deleting g left =>
    rw [stage] at pending
    simp only [Fits, stage] at fits
    exact fits f pending
  | _ =>
    rw [stage] at pending
    cases pending

/-- Another job has to delete a file when this one has none to delete. -/
theorem pending_elsewhere {other : Job} (here : s.jobs[j]? = some job) (none : job.stage.pending = [])
    (one : s.jobs[i]? = some other) (pending : f ∈ other.stage.pending) : i ≠ j := by
  rintro rfl
  obtain rfl := Option.some.inj (here.symm.trans one)
  rw [none] at pending
  cases pending

/-- A job goes on to its next stage after an operation on the files. -/
theorem Sound.setStage (sound : Sound raw s) (base : State) (same : base.jobs = s.jobs)
    (here : s.jobs[j]? = some job) (active : job.active = true)
    (claimed : ∀ i (other : Job), i ≠ j → s.jobs[i]? = some other → other.active = true →
      outName other.batch ∈ base.claims)
    (mine : stage ≠ .released → outName job.batch ∈ base.claims)
    (others : ∀ i (other : Job), i ≠ j → s.jobs[i]? = some other → Fits base other)
    (fits : Fits base {job with stage := stage})
    (taken : ∀ f, base.Output f → f ∉ base.files ∨ f ∈ stage.pending ∨
      ∃ (i : Nat) (other : Job), i ≠ j ∧ s.jobs[i]? = some other ∧ f ∈ other.stage.pending)
    (kept : Kept raw base) : Sound raw (base.setStage j job stage) := by
  refine ⟨fun i k a b one other differ lives too => ?_, fun i a one lives => ?_, fun i a one => ?_,
    fun f output => ?_, kept⟩
  · rcases job_setStage same one with ⟨rfl, rfl⟩ | ⟨-, first⟩ <;>
      rcases job_setStage same other with ⟨rfl, rfl⟩ | ⟨-, second⟩
    · exact absurd rfl differ
    · exact sound.apart _ _ job b here second differ active too
    · exact sound.apart _ _ a job first here differ lives active
    · exact sound.apart _ _ a b first second differ lives too
  · rcases job_setStage same one with ⟨rfl, rfl⟩ | ⟨differ, one⟩
    · exact mine (of_decide_eq_true lives)
    · exact claimed i a differ one lives
  · rcases job_setStage same one with ⟨rfl, rfl⟩ | ⟨differ, one⟩
    · exact fits
    · exact others i a differ one
  · rcases taken f output with gone | mine | ⟨i, other, differ, one, pending⟩
    · exact Or.inl gone
    · exact Or.inr ⟨j, _, job_setStage_self same here, mine⟩
    · exact Or.inr ⟨i, other, (job_setStage_other same differ).trans one, pending⟩

/-- The files are as they were. -/
theorem Sound.turn (sound : Sound raw s) (here : s.jobs[j]? = some job) (active : job.active = true)
    (fits : Fits s {job with stage := stage})
    (pending : ∀ f ∈ job.stage.pending, f ∈ stage.pending) : Sound raw (s.setStage j job stage) := by
  apply sound.setStage s rfl here active
  · exact fun i other _ one lives => sound.claimed i other one lives
  · exact fun _ => sound.claimed j job here active
  · exact fun i other _ one => sound.fits i other one
  · exact fits
  · intro f output
    rcases sound.taken f output with gone | ⟨i, other, one, left⟩
    · exact Or.inl gone
    · by_cases same : i = j
      · subst same
        obtain rfl := Option.some.inj (here.symm.trans one)
        exact Or.inr (Or.inl (pending f left))
      · exact Or.inr (Or.inr ⟨i, other, same, one, left⟩)
  · exact sound.kept

theorem rename_self (batch : List File) (s : State) :
    (s.rename batch).outputs (outName batch) = some batch := Function.update_self ..

theorem rename_other {batch : List File} {name : List Char} (differ : name ≠ outName batch) (s : State) :
    (s.rename batch).outputs name = s.outputs name := Function.update_of_ne differ ..

theorem output_rename (batch : List File) (absent : s.outputs (outName batch) = none) :
    (s.rename batch).Output f ↔ s.Output f ∨ f ∈ batch := by
  constructor
  · rintro ⟨name, files, output, member⟩
    by_cases same : name = outName batch
    · subst same
      rw [rename_self] at output
      exact Or.inr (Option.some.inj output ▸ member)
    · rw [rename_other same] at output
      exact Or.inl ⟨name, files, output, member⟩
  · rintro (⟨name, files, output, member⟩ | member)
    · have differ : name ≠ outName batch := by
        rintro rfl
        rw [absent] at output
        cases output
      exact ⟨name, files, (rename_other differ s).trans output, member⟩
    · exact ⟨outName batch, batch, rename_self batch s, member⟩

/-- An output of another name and of other files makes no difference to a job in progress. -/
theorem Fits.rename {batch : List File} (fits : Fits s job)
    (absent : s.outputs (outName batch) = none)
    (apart : job.active = true → outName job.batch ≠ outName batch ∧ ∀ f ∈ job.batch, f ∉ batch) :
    Fits (s.rename batch) job := by
  have active : job.stage ≠ .released → job.active = true := fun going => decide_eq_true going
  cases stage : job.stage with
  | reading left whole =>
    obtain ⟨name, files⟩ := apart (active (by rw [stage]; exact Stage.noConfusion))
    simp only [Fits, stage] at fits ⊢
    refine ⟨(rename_other name s).trans fits.1, fun good f member => ?_⟩
    refine (fits.2 good f member).imp_right fun no output => ?_
    rcases (output_rename batch absent).mp output with before | mine
    · exact no before
    · exact files f member mine
  | encoded =>
    obtain ⟨name, files⟩ := apart (active (by rw [stage]; exact Stage.noConfusion))
    simp only [Fits, stage] at fits ⊢
    refine ⟨(rename_other name s).trans fits.1, fun f member output => ?_⟩
    rcases (output_rename batch absent).mp output with before | mine
    · exact fits.2 f member before
    · exact files f member mine
  | marking left =>
    simp only [Fits, stage] at fits ⊢
    exact fun f member => (fits f member).imp_right fun output =>
      (output_rename batch absent).mpr (Or.inl output)
  | deleting g left =>
    simp only [Fits, stage] at fits ⊢
    exact fun f member => (fits f member).imp_right fun output =>
      (output_rename batch absent).mpr (Or.inl output)
  | _ => simp only [Fits, stage]

/-- What cat finds is in no output, for nobody else in progress has the file. -/
theorem Sound.found (sound : Sound raw s) (here : s.jobs[j]? = some job) (active : job.active = true)
    (none : job.stage.pending = []) (mine : f ∈ job.batch) (found : f ∈ s.files) : ¬ s.Output f := by
  intro output
  rcases sound.taken f output with gone | ⟨i, other, one, pending⟩
  · exact gone found
  · have differ := pending_elsewhere here none one pending
    have apart := (sound.apart i j other job one here differ (active_of_pending pending) active).2
    exact apart f ((sound.fits i other one).of_pending pending).1 mine

theorem Sound.rename (sound : Sound raw s) (here : s.jobs[j]? = some job)
    (encoded : job.stage = .encoded) :
    Sound raw ((s.rename job.batch).setStage j job (.marking job.batch)) := by
  have active : job.active = true := by rw [Job.active, encoded]; rfl
  have fits := sound.fits j job here
  simp only [Fits, encoded] at fits
  obtain ⟨absent, fresh⟩ := fits
  apply sound.setStage (s.rename job.batch) rfl here active
  · exact fun i other _ one lives => sound.claimed i other one lives
  · exact fun _ => sound.claimed j job here active
  · intro i other differ one
    apply (sound.fits i other one).rename absent
    exact fun lives => sound.apart i j other job one here differ lives active
  · exact fun f member => ⟨member, (output_rename job.batch absent).mpr (Or.inr member)⟩
  · intro f output
    rcases (output_rename job.batch absent).mp output with before | mine
    · rcases sound.taken f before with gone | ⟨i, other, one, pending⟩
      · exact Or.inl gone
      · have differ := pending_elsewhere here (by rw [encoded]; rfl) one pending
        exact Or.inr (Or.inr ⟨i, other, differ, one, pending⟩)
    · exact Or.inr (Or.inl mine)
  · refine ⟨fun one other a b first second differ f inside also => ?_, fun f member gone => ?_⟩
    · by_cases mine : one = outName job.batch
      · subst mine
        rw [rename_self] at first
        rw [rename_other (Ne.symm differ)] at second
        exact fresh f (Option.some.inj first ▸ inside) ⟨other, b, second, also⟩
      · rw [rename_other mine] at first
        by_cases too : other = outName job.batch
        · subst too
          rw [rename_self] at second
          exact fresh f (Option.some.inj second ▸ also) ⟨one, a, first, inside⟩
        · rw [rename_other too] at second
          exact sound.kept.1 one other a b first second differ inside also
    · exact (output_rename job.batch absent).mpr (Or.inl (sound.kept.2 f member gone))

theorem Sound.rm (sound : Sound raw s) (here : s.jobs[j]? = some job) {f : File} {left : List File}
    (deleting : job.stage = .deleting f left) :
    Sound raw ((s.rm f).setStage j job (.marking left)) := by
  have active : job.active = true := by rw [Job.active, deleting]; rfl
  have fits := sound.fits j job here
  simp only [Fits, deleting] at fits
  have remains : ∀ g, g ∈ (s.rm f).files ↔ g ∈ s.files ∧ g ≠ f := fun g => by simp [State.rm]
  apply sound.setStage (s.rm f) rfl here active
  · exact fun i other _ one lives => sound.claimed i other one lives
  · exact fun _ => sound.claimed j job here active
  · exact fun i other _ one => sound.fits i other one
  · exact fun g member => fits g (List.mem_cons_of_mem f member)
  · intro g output
    rcases sound.taken g output with gone | ⟨i, other, one, pending⟩
    · exact Or.inl fun still => gone ((remains g).mp still).1
    · by_cases same : i = j
      · subst same
        obtain rfl := Option.some.inj (here.symm.trans one)
        rw [deleting] at pending
        rcases List.mem_cons.mp pending with rfl | later
        · exact Or.inl fun still => ((remains g).mp still).2 rfl
        · exact Or.inr (Or.inl later)
      · exact Or.inr (Or.inr ⟨i, other, same, one, pending⟩)
  · refine ⟨sound.kept.1, fun g member gone => ?_⟩
    by_cases same : g = f
    · subst same
      exact (fits g List.mem_cons_self).2
    · exact sound.kept.2 g member fun still => gone ((remains g).mpr ⟨still, same⟩)

theorem Sound.release (sound : Sound raw s) (here : s.jobs[j]? = some job)
    (releasing : job.stage = .releasing) :
    Sound raw ((s.release (outName job.batch)).setStage j job .released) := by
  have active : job.active = true := by rw [Job.active, releasing]; rfl
  apply sound.setStage (s.release (outName job.batch)) rfl here active
  · intro i other differ one lives
    have name := (sound.apart i j other job one here differ lives active).1
    exact List.mem_filter.mpr ⟨sound.claimed i other one lives, decide_eq_true name⟩
  · exact fun going => absurd rfl going
  · exact fun i other _ one => sound.fits i other one
  · exact trivial
  · intro f output
    rcases sound.taken f output with gone | ⟨i, other, one, pending⟩
    · exact Or.inl gone
    · have differ := pending_elsewhere here (by rw [releasing]; rfl) one pending
      exact Or.inr (Or.inr ⟨i, other, differ, one, pending⟩)
  · exact sound.kept

theorem Sound.go {cfg : Nat → RunConfig} {ok : Bool} (sound : Sound raw s)
    (here : s.jobs[j]? = some job) (separate : Separate cfg s (.go j ok)) :
    Sound raw (s.go j job ok) := by
  have fits := sound.fits j job here
  simp only [Separate, here, Option.all_some] at separate
  rw [State.go]
  cases stage : job.stage with
  | released => exact sound
  | claimed =>
    have active : job.active = true := by rw [Job.active, stage]; rfl
    have idle : ∀ {next : Stage}, ∀ f ∈ job.stage.pending, f ∈ next.pending := by
      intro next f pending
      rw [stage] at pending
      cases pending
    simp only [stage] at separate ⊢
    cases output : s.outputs (outName job.batch) with
    | none =>
      rw [if_neg (by simp)]
      exact sound.turn here active ⟨output, fun _ f member => Or.inl member⟩ idle
    | some batch =>
      rw [output, Option.all_some] at separate
      rw [if_pos (by simp)]
      refine sound.turn here active (fun f member => ⟨member, _, batch, output, ?_⟩) idle
      exact of_decide_eq_true (List.all_eq_true.mp separate f member)
  | reading left whole =>
    have active : job.active = true := by rw [Job.active, stage]; rfl
    have none : job.stage.pending = [] := by rw [stage]; rfl
    have idle : ∀ {next : Stage}, ∀ f ∈ job.stage.pending, f ∈ next.pending := by
      intro next f pending
      rw [none] at pending
      cases pending
    simp only [Fits, stage] at fits
    cases left with
    | nil =>
      dsimp only
      split
      · rename_i good
        obtain ⟨good, -⟩ := Bool.and_eq_true_iff.mp good
        refine sound.turn here active ⟨fits.1, fun f member => ?_⟩ idle
        exact (fits.2 good f member).resolve_left List.not_mem_nil
      · exact sound.turn here active trivial idle
    | cons f left =>
      refine sound.turn here active ⟨fits.1, fun good g member => ?_⟩ idle
      obtain ⟨good, found⟩ := Bool.and_eq_true_iff.mp good
      rcases fits.2 good g member with later | fresh
      · rcases List.mem_cons.mp later with rfl | later
        · exact Or.inr (sound.found here active none member (of_decide_eq_true found))
        · exact Or.inl later
      · exact Or.inr fresh
  | encoded =>
    simp only [stage] at separate
    subst separate
    exact sound.rename here stage
  | marking left =>
    have active : job.active = true := by rw [Job.active, stage]; rfl
    simp only [Fits, stage] at fits
    cases left with
    | nil =>
      refine sound.turn here active trivial fun f pending => ?_
      rw [stage] at pending
      cases pending
    | cons f left =>
      have touched : Sound raw (s.touch f) :=
        ⟨sound.apart, sound.claimed, sound.fits, sound.taken, sound.kept⟩
      refine touched.turn here active fits fun g pending => ?_
      rw [stage] at pending
      exact pending
  | deleting f left => exact sound.rm here stage
  | releasing => exact sound.release here stage

theorem Sound.setPass (sound : Sound raw s) (p : Nat) (pass : Pass) : Sound raw (s.setPass p pass) :=
  ⟨sound.apart, sound.claimed, sound.fits, sound.taken, sound.kept⟩

/-- A new job has its claim for itself, and its files. -/
theorem Sound.claim {cfg : Nat → RunConfig} {p : Nat} (sound : Sound raw s)
    (separate : Separate cfg s (.claim p)) : Sound raw (s.claim (cfg p) p) := by
  rw [State.claim]
  have passed := sound.setPass p {s.passes p with loop := (s.passes p).loop.clear, full := false}
  by_cases waits : s.waits (cfg p) p = true
  · rw [if_pos waits]
    exact sound
  · rw [if_neg waits]
    by_cases refused : s.claims.contains (outName (s.passes p).loop.batch) = true
    · rw [if_pos refused]
      exact passed
    · rw [if_neg refused]
      rw [List.contains_iff_mem] at refused
      have separate := separate (by simp [State.grants, waits, refused])
      have new : ∀ {i : Nat} {a : Job},
          (s.jobs ++ [⟨p, (s.passes p).loop.batch, .claimed⟩])[i]? = some a →
            s.jobs[i]? = some a ∨ (i = s.jobs.length ∧ a = ⟨p, (s.passes p).loop.batch, .claimed⟩) := by
        intro i a at_
        rw [List.getElem?_append] at at_
        split at at_
        · exact Or.inl at_
        · rename_i later
          obtain ⟨place, rfl⟩ := List.getElem?_eq_some_iff.mp at_
          rw [List.length_singleton] at place
          exact Or.inr ⟨by omega, by simp⟩
      have other : ∀ {i : Nat} {a : Job}, s.jobs[i]? = some a → a.active = true →
          outName a.batch ≠ outName (s.passes p).loop.batch ∧ ∀ f ∈ a.batch, f ∉ (s.passes p).loop.batch := by
        intro i a old lives
        refine ⟨fun same => refused (same ▸ sound.claimed i a old lives), fun f mine its => ?_⟩
        exact separate a (List.mem_of_getElem? old) lives f its mine
      refine ⟨fun i k a b one two differ lives too => ?_, fun i a one lives => ?_, fun i a one => ?_,
        fun f output => ?_, sound.kept⟩
      · rcases new one with first | ⟨rfl, rfl⟩ <;> rcases new two with second | ⟨rfl, rfl⟩
        · exact sound.apart i k a b first second differ lives too
        · exact other first lives
        · obtain ⟨name, files⟩ := other second too
          exact ⟨Ne.symm name, fun f mine its => files f its mine⟩
        · exact absurd rfl differ
      · rcases new one with old | ⟨-, rfl⟩
        · exact List.mem_cons_of_mem _ (sound.claimed i a old lives)
        · exact List.mem_cons_self
      · rcases new one with old | ⟨-, rfl⟩
        · exact sound.fits i a old
        · exact trivial
      · rcases sound.taken f output with gone | ⟨i, a, old, pending⟩
        · exact Or.inl gone
        · refine Or.inr ⟨i, a, ?_, pending⟩
          exact (List.getElem?_append_left (List.getElem?_eq_some_iff.mp old).1).trans old

theorem Sound.step {cfg : Nat → RunConfig} {input : Input} (sound : Sound raw s)
    (separate : Separate cfg s input) : Sound raw (step cfg s input) := by
  cases input with
  | scan p eligible =>
    rw [Jobs.step, State.scan]
    split
    · exact sound.setPass p _
    · exact sound
  | test p =>
    rw [Jobs.step, State.test]
    split
    · exact sound
    · split
      · exact sound
      · split
        · exact sound.setPass p _
        · exact sound.setPass p _
  | claim p => exact sound.claim separate
  | go j ok =>
    rw [Jobs.step]
    cases here : s.jobs[j]? with
    | none => exact sound
    | some job => exact sound.go here separate

theorem Sound.start (files : List File) : Sound files (.start files) := by
  refine ⟨fun i j a b one => ?_, fun i job one => ?_, fun i job one => ?_, fun f output => ?_, ?_, ?_⟩
  · cases one
  · cases one
  · cases one
  · obtain ⟨name, batch, none, -⟩ := output
    cases none
  · intro one other a b none
    cases none
  · exact fun f member gone => absurd member gone

/-- In a run whose jobs in progress share no files, each file is in one output at most, and is deleted
when it is in one. -/
theorem kept_once (cfg : Nat → RunConfig) (files : List File) (inputs : List Input)
    (separate : Run.Always (step cfg) (.start files) (Separate cfg) inputs) :
    Kept files (run cfg files inputs) := by
  have sound : Sound files (run cfg files inputs) :=
    Run.history_while (step cfg) (.start files) (Separate cfg) (fun _ s => Sound files s)
      (.start files) (fun _ _ sound separate => sound.step separate) inputs separate
  exact sound.kept

def recorded (name : Char) : File := ⟨[name], .h264⟩

def fourFiles : List File := ['1', '2', '3', '4'].map recorded

/-- Both runs take two files at a time. -/
def twoHosts : Nat → RunConfig := fun _ => ⟨2, 1⟩

/-- A run scans, tests some of the files, and claims the batch that is full then. -/
def forms (p tests : Nat) : List Input :=
  .scan p (fun _ => true) :: List.replicate tests (.test p) ++ [.claim p]

def goes (j operations : Nat) : List Input := List.replicate operations (.go j true)

/-- The second run scans when the first has marked one of its two files. -/
def midway : List Input := forms 0 2 ++ goes 0 6 ++ forms 1 3 ++ goes 1 5

theorem midway_twice : ¬ Kept fourFiles (run twoHosts fourFiles midway) := by
  rintro ⟨once, -⟩
  have first : (run twoHosts fourFiles midway).outputs ['1', '_', '_', '2'] =
      some [recorded '1', recorded '2'] := by decide
  have second : (run twoHosts fourFiles midway).outputs ['2', '_', '_', '3'] =
      some [recorded '2', recorded '3'] := by decide
  have member : recorded '2' ∈ [recorded '1', recorded '2'] := by decide
  exact once _ _ _ _ first second (by decide) member List.mem_cons_self

/-- The second run scans when the first has marked both. -/
def afterwards : List Input := forms 0 2 ++ goes 0 8 ++ forms 1 3 ++ goes 1 10

theorem afterwards_once :
    (run twoHosts fourFiles afterwards).files = [recorded '2'] ∧
      Kept fourFiles (run twoHosts fourFiles afterwards) := by
  have separate : Run.Always (step twoHosts) (.start fourFiles) (Separate twoHosts) afterwards := by
    decide
  exact ⟨by decide, kept_once twoHosts fourFiles afterwards separate⟩

end StreamRelay.Transcode.Jobs
