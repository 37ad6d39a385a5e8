import Mathlib.Data.Nat.Find
import StreamRelay.Run
import StreamRelay.Transcode.Batches

/-! One transcode run over all stream directories, and the helper that repeats it with MAX_BATCHES 1. -/
namespace StreamRelay.Transcode

structure TranscodeConfig where
  batchSize : Nat
  maxBatches : Nat
  deleteSource : Bool
  dryRun : Bool

/-- A stream directory with its raw files in the order of their names, those that have a marker, and
the names of the finished outputs of the stream. -/
structure Stream where
  name : List Char
  files : List File
  transcoded : List File
  outputs : List (List Char)
  deriving DecidableEq, Repr

/-- What a run meets: the files that are old enough, the answer of claim_batch, and whether ffmpeg
works. -/
structure Round where
  eligible : List Char → File → Bool
  granted : List Char → List File → Bool
  works : List Char → List File → Bool

namespace Stream

def markBatchDone (cfg : TranscodeConfig) (files : List File) (s : Stream) : Stream :=
  {s with
    transcoded := s.transcoded ++ files
    files := if cfg.deleteSource then s.files.filter (· ∉ files) else s.files}

/-- With the exit status. -/
def transcodeBatch (cfg : TranscodeConfig) (works : List File → Bool) (files : List File) (s : Stream) :
    Stream × Bool :=
  if files = [] then (s, true)
  else if outName files ∈ s.outputs then (s.markBatchDone cfg files, true)
  else if cfg.dryRun then (s, true)
  else if works files then
    ({s with outputs := s.outputs ++ [outName files]}.markBatchDone cfg files, true)
  else (s, false)

/-- With the count of failed batches. -/
def transcodeAll (cfg : TranscodeConfig) (works : List File → Bool) :
    List (List File) → Nat → Stream → Stream × Nat
  | [], failed, s => (s, failed)
  | files :: later, failed, s =>
    let done := s.transcodeBatch cfg works files
    done.1.transcodeAll cfg works later (if done.2 then failed else failed + 1)

def found (round : Round) (s : Stream) : List File := s.files.filter (round.eligible s.name)

/-- What process_stream_dir launches. No file is met again after it has been marked. -/
def form (cfg : TranscodeConfig) (round : Round) (processed : Nat) (s : Stream) : Processed :=
  processStreamDir cfg.batchSize cfg.maxBatches (· ∈ s.transcoded) (round.granted s.name) processed
    .start (s.found round)

/-- The batches of a stream that could be claimed and launched. -/
def batches (cfg : TranscodeConfig) (round : Round) (s : Stream) : List (List File) :=
  launched cfg.batchSize (· ∈ s.transcoded) .start (s.found round)

end Stream

/-- The directories after a run, and the counts that it prints. -/
structure Tally where
  streams : List Stream
  processed : Nat
  failed : Nat
  deriving DecidableEq, Repr

def main (cfg : TranscodeConfig) (round : Round) : Nat → Nat → List Stream → Tally
  | processed, failed, [] => ⟨[], processed, failed⟩
  | processed, failed, s :: streams =>
    let formed := s.form cfg round processed
    let (s, failed) := s.transcodeAll cfg (round.works s.name) formed.launched failed
    if 0 < cfg.maxBatches ∧ cfg.maxBatches ≤ formed.processed then
      ⟨s :: streams, formed.processed, failed⟩
    else
      let later := main cfg round formed.processed failed streams
      {later with streams := s :: later.streams}

/-- The helper's loop; it has `ended` when it breaks. -/
structure Helper where
  streams : List Stream
  processedTotal : Nat
  ended : Bool
  deriving DecidableEq, Repr

namespace Helper

def round (cfg : TranscodeConfig) (requested : Nat) (h : Helper) (round : Round) : Helper :=
  if h.ended then h
  else
    let tally := main {cfg with maxBatches := 1} round 0 0 h.streams
    let total := h.processedTotal + tally.processed
    ⟨tally.streams, total, tally.processed = 0 ∨ 0 < requested ∧ requested ≤ total⟩

/-- With max_batches 0, before the n-th round. -/
def after (cfg : TranscodeConfig) (rounds : Nat → Round) (streams : List Stream) (n : Nat) : Helper :=
  Run.run (Helper.round cfg 0) ⟨streams, 0, false⟩ ((List.range n).map rounds)

/-- The batch that a run with MAX_BATCHES 1 launches. -/
def next (cfg : TranscodeConfig) (round : Round) (streams : List Stream) :
    Option (Stream × List File) :=
  streams.findSome? fun s =>
    (s.form {cfg with maxBatches := 1} round 0).launched.head?.map fun files => (s, files)

/-- The batch of this round is not transcoded yet, and ffmpeg fails on it or is not run. -/
def Stuck (cfg : TranscodeConfig) (round : Round) (streams : List Stream) : Prop :=
  ∃ s files, next cfg round streams = some (s, files) ∧ outName files ∉ s.outputs ∧
    (cfg.dryRun = true ∨ round.works s.name files = false)

/-- The helper comes to its end, in a round in which every batch that is left is refused its claim. -/
def Ends (cfg : TranscodeConfig) (rounds : Nat → Round) (streams : List Stream) : Prop :=
  ∃ n, (after cfg rounds streams n).ended = false ∧ (after cfg rounds streams (n + 1)).ended = true ∧
    ∀ s ∈ (after cfg rounds streams n).streams, ∀ files ∈ s.batches cfg (rounds n),
      (rounds n).granted s.name files = false

end Helper

namespace Stream

/-- How many raw files have no marker. -/
def unmarked (s : Stream) : Nat := s.files.countP (· ∉ s.transcoded)

end Stream

def Helper.unmarked (streams : List Stream) : Nat :=
  streams.foldr (fun s others => s.unmarked + others) 0

variable {cfg : TranscodeConfig} {round : Round} {s : Stream}

/-- With MAX_BATCHES 1 the first batch that is granted its claim is launched, and nothing else. -/
theorem processStreamDir_one (size : Nat) (marked : File → Bool) (granted : List File → Bool)
    (files : List File) (loop : Loop) :
    let formed := processStreamDir size 1 marked granted 0 loop files
    (formed.launched = [] ∧ formed.processed = 0 ∧
        ∀ batch ∈ launched size marked loop files, granted batch = false) ∨
      ∃ batch ∈ launched size marked loop files, formed.launched = [batch] ∧ formed.processed = 1 := by
  induction files generalizing loop with
  | nil => exact Or.inl ⟨rfl, rfl, fun batch member => absurd member List.not_mem_nil⟩
  | cons f files ih =>
    rw [processStreamDir]
    cases read : loop.read size (marked f) f with
    | goesOn loop =>
      rw [launched_goesOn files read]
      exact ih loop
    | full loop =>
      rw [launched_full files read]
      cases claim : granted loop.batch with
      | true => exact Or.inr ⟨loop.batch, List.mem_cons_self, by simp [claim], by simp [claim]⟩
      | false =>
        obtain ⟨none, count, refused⟩ | ⟨batch, member, one⟩ := ih loop.clear
        · refine Or.inl ⟨by simp [claim, none], by simp [claim, count], fun batch member => ?_⟩
          rcases List.mem_cons.mp member with rfl | later
          · exact claim
          · exact refused batch later
        · exact Or.inr ⟨batch, List.mem_cons_of_mem _ member, by simpa [claim] using one⟩

namespace Stream

/-- A batch that is marked was not before, so less is left. -/
theorem unmarked_markBatchDone {files : List File} (some : files ≠ [])
    (here : ∀ f ∈ files, f ∈ s.files ∧ f ∉ s.transcoded) :
    (s.markBatchDone cfg files).unmarked < s.unmarked := by
  have left : (s.markBatchDone cfg files).unmarked =
      (s.files.filter (· ∉ files)).countP (· ∉ s.transcoded) := by
    rw [unmarked, markBatchDone, List.countP_filter]
    split
    · rw [List.countP_filter]
      exact List.countP_congr fun f _ => by simp
    · exact List.countP_congr fun f _ => by simp
  have taken : 0 < (s.files.filter fun f => !decide (f ∉ files)).countP (· ∉ s.transcoded) := by
    obtain ⟨f, member⟩ := List.exists_mem_of_ne_nil files some
    apply List.countP_pos_iff.mpr
    exact ⟨f, by simp [here f member, member], by simp [here f member]⟩
  have split := List.countP_eq_countP_filter_add s.files (· ∉ s.transcoded) (· ∉ files)
  rw [left]
  rw [← unmarked] at split
  omega

theorem transcodeBatch_less (cfg : TranscodeConfig) (works : List File → Bool) {files : List File}
    (some : files ≠ []) (here : ∀ f ∈ files, f ∈ s.files ∧ f ∉ s.transcoded) :
    (s.transcodeBatch cfg works files).1.unmarked < s.unmarked ∨
      (outName files ∉ s.outputs ∧ (cfg.dryRun = true ∨ works files = false)) := by
  rw [transcodeBatch, if_neg some]
  by_cases already : outName files ∈ s.outputs
  · rw [if_pos already]
    exact Or.inl (unmarked_markBatchDone some here)
  · rw [if_neg already]
    cases dry : cfg.dryRun with
    | true => exact Or.inr ⟨already, Or.inl rfl⟩
    | false =>
      rw [if_neg Bool.false_ne_true]
      cases result : works files with
      | true =>
        left
        rw [if_pos rfl]
        have named : {s with outputs := s.outputs ++ [outName files]}.unmarked = s.unmarked := rfl
        rw [← named]
        exact unmarked_markBatchDone some here
      | false => exact Or.inr ⟨already, Or.inr rfl⟩

/-- The batches are of raw files that have no marker. -/
theorem of_mem_batches (positive : 1 ≤ cfg.batchSize) {files : List File}
    (member : files ∈ s.batches cfg round) :
    files ≠ [] ∧ ∀ f ∈ files, f ∈ s.files ∧ f ∉ s.transcoded := by
  have collecting : Loop.start.Collecting cfg.batchSize :=
    ⟨positive, fun _ member => absurd member List.not_mem_nil⟩
  obtain ⟨full, fresh, -⟩ := launched_proper positive (s.found round) .start collecting
    (fun _ member => absurd member List.not_mem_nil) files member
  refine ⟨fun empty => ?_, fun f here => ⟨?_, of_decide_eq_false (fresh f here)⟩⟩
  · rw [empty, List.length_nil] at full
    omega
  · have taken := (launched_sublist positive (s.found round) .start collecting).subset
      (List.mem_flatten_of_mem member here)
    exact List.mem_of_mem_filter taken

end Stream

namespace Helper

/-- A run with MAX_BATCHES 1 finds nothing that it may claim, or it launches a batch that fails, or
less is left to do. -/
theorem main_one (positive : 1 ≤ cfg.batchSize) (round : Round) (failed : Nat) (streams : List Stream) :
    let tally := main {cfg with maxBatches := 1} round 0 failed streams
    (tally.processed = 0 ∧
        ∀ s ∈ streams, ∀ files ∈ s.batches cfg round, round.granted s.name files = false) ∨
      (tally.processed = 1 ∧ (Stuck cfg round streams ∨ unmarked tally.streams < unmarked streams)) := by
  induction streams generalizing failed with
  | nil => exact Or.inl ⟨rfl, fun s member => absurd member List.not_mem_nil⟩
  | cons s streams ih =>
    obtain ⟨none, count, refused⟩ | ⟨files, member, one, count⟩ :=
      processStreamDir_one cfg.batchSize (· ∈ s.transcoded) (round.granted s.name) (s.found round) .start
    · have none : (s.form {cfg with maxBatches := 1} round 0).launched = [] := none
      have count : (s.form {cfg with maxBatches := 1} round 0).processed = 0 := count
      have tally : main {cfg with maxBatches := 1} round 0 failed (s :: streams) =
          {main {cfg with maxBatches := 1} round 0 failed streams with
            streams := s :: (main {cfg with maxBatches := 1} round 0 failed streams).streams} := by
        rw [main, none, count]
        rfl
      have skip : next cfg round (s :: streams) = next cfg round streams := by
        rw [next, List.findSome?_cons, none]
        rfl
      rw [tally]
      obtain ⟨zero, others⟩ | ⟨count, progress⟩ := ih failed
      · refine Or.inl ⟨zero, fun other member => ?_⟩
        rcases List.mem_cons.mp member with rfl | later
        · exact refused
        · exact others other later
      · refine Or.inr ⟨count, ?_⟩
        rw [Stuck, skip]
        refine progress.imp_right fun less => ?_
        simp only [unmarked, List.foldr_cons] at less ⊢
        omega
    · have one : (s.form {cfg with maxBatches := 1} round 0).launched = [files] := one
      have count : (s.form {cfg with maxBatches := 1} round 0).processed = 1 := count
      obtain ⟨some, here⟩ := Stream.of_mem_batches positive member
      have tally : (main {cfg with maxBatches := 1} round 0 failed (s :: streams)).processed = 1 ∧
          (main {cfg with maxBatches := 1} round 0 failed (s :: streams)).streams =
            (s.transcodeBatch {cfg with maxBatches := 1} (round.works s.name) files).1 :: streams := by
        rw [main, one, count]
        exact ⟨rfl, rfl⟩
      refine Or.inr ⟨tally.1, ?_⟩
      rw [tally.2]
      obtain less | ⟨absent, fails⟩ :=
        Stream.transcodeBatch_less {cfg with maxBatches := 1} (round.works s.name) some here
      · right
        simp only [unmarked, List.foldr_cons]
        omega
      · left
        refine ⟨s, files, ?_, absent, fails⟩
        rw [next, List.findSome?_cons, one]
        rfl

/-- A round in which nothing is launched is the last one. -/
theorem round_running (positive : 1 ≤ cfg.batchSize) (round : Round) {h : Helper}
    (running : h.ended = false) :
    ((h.round cfg 0 round).ended = true ∧
        ∀ s ∈ h.streams, ∀ files ∈ s.batches cfg round, round.granted s.name files = false) ∨
      ((h.round cfg 0 round).ended = false ∧
        (Stuck cfg round h.streams ∨ unmarked (h.round cfg 0 round).streams < unmarked h.streams)) := by
  rw [Helper.round, if_neg (by simp [running])]
  obtain ⟨zero, refused⟩ | ⟨one, progress⟩ := main_one positive round 0 h.streams
  · exact Or.inl ⟨by simp [zero], refused⟩
  · exact Or.inr ⟨by simp [one], progress⟩

theorem after_succ (cfg : TranscodeConfig) (rounds : Nat → Round) (streams : List Stream) (n : Nat) :
    after cfg rounds streams (n + 1) = (after cfg rounds streams n).round cfg 0 (rounds n) := by
  rw [after, List.range_succ, List.map_append, List.map_singleton, Run.run_snoc]
  rfl

theorem after_ended {rounds : Nat → Round} {streams : List Stream} {n later : Nat}
    (ended : (after cfg rounds streams n).ended = true) (order : n ≤ later) :
    (after cfg rounds streams later).ended = true := by
  induction order with
  | refl => exact ended
  | step _ ih =>
    rw [after_succ, Helper.round, if_pos ih]
    exact ih

/-- Once no batch is stuck any more, each round marks some of the files that are left. -/
theorem ended_later (positive : 1 ≤ cfg.batchSize) {rounds : Nat → Round} {streams : List Stream}
    {since : Nat}
    (moving : ∀ n, since ≤ n → (after cfg rounds streams n).ended = false →
      ¬ Stuck cfg (rounds n) (after cfg rounds streams n).streams)
    (left n : Nat) (order : since ≤ n) (few : unmarked (after cfg rounds streams n).streams < left) :
    ∃ last, (after cfg rounds streams last).ended = true := by
  induction left generalizing n with
  | zero => exact absurd few (Nat.not_lt_zero _)
  | succ left ih =>
    cases running : (after cfg rounds streams n).ended with
    | true => exact ⟨n, running⟩
    | false =>
      obtain ⟨ended, -⟩ | ⟨-, stuck | less⟩ := round_running positive (rounds n) running
      · exact ⟨n + 1, by rw [after_succ, ended]⟩
      · exact absurd stuck (moving n order running)
      · apply ih (n + 1) (Nat.le_succ_of_le order)
        rw [after_succ]
        omega

/-- The helper ends exactly if only finitely many of its rounds are spent on a batch that stays as it
is. -/
theorem helper_ends_iff (positive : 1 ≤ cfg.batchSize) (rounds : Nat → Round) (streams : List Stream) :
    Ends cfg rounds streams ↔
      ∃ since, ∀ n, since ≤ n → (after cfg rounds streams n).ended = false →
        ¬ Stuck cfg (rounds n) (after cfg rounds streams n).streams := by
  constructor
  · rintro ⟨last, -, ended, -⟩
    refine ⟨last + 1, fun n order running => ?_⟩
    rw [after_ended ended order] at running
    cases running
  · rintro ⟨since, moving⟩
    have some := ended_later positive moving _ since (Nat.le_refl _) (Nat.lt_succ_self _)
    have ended := Nat.find_spec some
    cases first : Nat.find some with
    | zero =>
      rw [first] at ended
      cases ended
    | succ last =>
      rw [first] at ended
      have running : (after cfg rounds streams last).ended = false :=
        Bool.eq_false_iff.mpr (Nat.find_min some (first ▸ Nat.lt_succ_self last))
      obtain ⟨-, refused⟩ | ⟨goes, -⟩ := round_running positive (rounds last) running
      · exact ⟨last, running, ended, refused⟩
      · rw [after_succ, goes] at ended
        cases ended

end Helper

/-- Two streams with a batch each. -/
def twoStreams : List Stream :=
  [⟨['a'], [⟨['1'], .h264⟩, ⟨['2'], .h264⟩], [], []⟩, ⟨['b'], [⟨['1'], .h264⟩, ⟨['2'], .h264⟩], [], []⟩]

def pairs : TranscodeConfig := ⟨2, 0, true, false⟩

/-- A batch that always fails is launched in every round, and the other stream has no turn. -/
theorem failing_never_ends :
    let rounds : Nat → Round := fun _ => ⟨fun _ _ => true, fun _ _ => true, fun name _ => name = ['b']⟩
    ¬ Helper.Ends pairs rounds twoStreams ∧
      ∀ n, Helper.after pairs rounds twoStreams n = ⟨twoStreams, n, false⟩ := by
  intro rounds
  have same : ∀ n, Helper.after pairs rounds twoStreams n = ⟨twoStreams, n, false⟩ := by
    intro n
    induction n with
    | zero => rfl
    | succ n ih =>
      rw [Helper.after_succ, ih]
      rfl
  refine ⟨?_, same⟩
  rintro ⟨n, -, ended, -⟩
  rw [same] at ended
  cases ended

/-- When it works the second time, the helper ends. -/
theorem retried_ends :
    Helper.Ends pairs (fun n => ⟨fun _ _ => true, fun _ _ => true, fun name _ => name = ['b'] ∨ 0 < n⟩)
      twoStreams := by
  refine (Helper.helper_ends_iff (by decide) _ twoStreams).mpr ⟨1, fun n order _ => ?_⟩
  rintro ⟨s, files, -, -, dry | fails⟩
  · cases dry
  · exact absurd (Or.inr order) (of_decide_eq_false fails)

end StreamRelay.Transcode
