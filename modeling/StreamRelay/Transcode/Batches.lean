import Mathlib.Data.List.Nodup
import Mathlib.Data.Nat.Basic

/-! The batches that a run forms of the files of one stream directory. -/
namespace StreamRelay.Transcode

inductive Ext where
  | h264
  | hevc
  deriving DecidableEq, Repr

/-- The name of a raw file, without and with what follows its last dot. -/
structure File where
  stem : List Char
  ext : Ext
  deriving DecidableEq, Repr

/-- The name of a batch's output, without its last dot and what follows. -/
def outName (files : List File) : List Char :=
  files.head?.elim [] File.stem ++ ['_', '_'] ++ files.getLast?.elim [] File.stem

/-- The variables batch and first_ext. -/
structure Loop where
  batch : List File
  firstExt : Ext
  deriving DecidableEq, Repr

inductive Reading where
  | goesOn (loop : Loop)
  | full (loop : Loop)
  deriving DecidableEq, Repr

namespace Loop

/-- The next file, which may be marked as transcoded, is skipped or added. -/
def read (size : Nat) (marked : Bool) (f : File) (loop : Loop) : Reading :=
  if marked then .goesOn loop
  else if loop.batch ≠ [] ∧ f.ext ≠ loop.firstExt then .goesOn loop
  else
    let firstExt := if loop.batch = [] then f.ext else loop.firstExt
    let batch := loop.batch ++ [f]
    if batch.length = size then .full ⟨batch, firstExt⟩ else .goesOn ⟨batch, firstExt⟩

/-- batch=() leaves first_ext. -/
def clear (loop : Loop) : Loop := {loop with batch := []}

end Loop

/-- The batches that were launched, the count of processed batches, and what is waiting at the end of
the files. -/
structure Processed where
  launched : List (List File)
  processed : Nat
  waiting : List File
  deriving DecidableEq, Repr

/-- A batch that is not granted its claim is skipped. With max_batches 0 there is no limit. -/
def processStreamDir (size maxBatches : Nat) (marked : File → Bool) (granted : List File → Bool) :
    Nat → Loop → List File → Processed
  | processed, loop, [] => ⟨[], processed, loop.batch⟩
  | processed, loop, f :: files =>
    match loop.read size (marked f) f with
    | .goesOn loop => processStreamDir size maxBatches marked granted processed loop files
    | .full loop =>
      if granted loop.batch then
        if 0 < maxBatches ∧ maxBatches ≤ processed + 1 then ⟨[loop.batch], processed + 1, []⟩
        else
          let later := processStreamDir size maxBatches marked granted (processed + 1) loop.clear files
          {later with launched := loop.batch :: later.launched}
      else processStreamDir size maxBatches marked granted processed loop.clear files

/-- No limit, and every claim is granted. -/
def launched (size : Nat) (marked : File → Bool) (loop : Loop) (files : List File) :
    List (List File) :=
  (processStreamDir size 0 marked (fun _ => true) 0 loop files).launched

/-- The loop's variables at its start; first_ext is not set. -/
def Loop.start : Loop := ⟨[], .h264⟩

/-- How many unmarked files there are with an extension. -/
def backlog (marked : File → Bool) (files : List File) (ext : Ext) : Nat :=
  files.countP fun f => !marked f && f.ext = ext

/-- The files collected so far are of one extension, and too few. -/
structure Loop.Collecting (size : Nat) (loop : Loop) : Prop where
  few : loop.batch.length < size
  same : ∀ f ∈ loop.batch, f.ext = loop.firstExt

variable {size : Nat} {marked : File → Bool} {loop : Loop}

theorem Loop.read_cases (collecting : loop.Collecting size) (marked : Bool) (f : File) :
    (loop.read size marked f = .goesOn loop ∧
        (marked = true ∨ loop.batch ≠ [] ∧ f.ext ≠ loop.firstExt)) ∨
      (marked = false ∧ ∃ ext, (∀ other ∈ loop.batch ++ [f], other.ext = ext) ∧
        (loop.batch ≠ [] → ext = loop.firstExt) ∧
        (((loop.batch ++ [f]).length = size ∧ loop.read size marked f = .full ⟨loop.batch ++ [f], ext⟩) ∨
          ((loop.batch ++ [f]).length < size ∧
            loop.read size marked f = .goesOn ⟨loop.batch ++ [f], ext⟩))) := by
  rw [Loop.read]
  cases marked with
  | true => exact Or.inl ⟨rfl, Or.inl rfl⟩
  | false =>
    by_cases other : loop.batch ≠ [] ∧ f.ext ≠ loop.firstExt
    · exact Or.inl ⟨by rw [if_neg Bool.false_ne_true, if_pos other], Or.inr other⟩
    · right
      refine ⟨rfl, if loop.batch = [] then f.ext else loop.firstExt, ?_, ?_, ?_⟩
      · intro g member
        split
        · rename_i empty
          rw [empty, List.nil_append, List.mem_singleton] at member
          rw [member]
        · rename_i some
          rcases List.mem_append.mp member with old | new
          · exact collecting.same g old
          · rw [List.mem_singleton.mp new]
            by_contra differs
            exact other ⟨some, differs⟩
      · exact fun some => if_neg some
      · have few := collecting.few
        rw [if_neg Bool.false_ne_true, if_neg other]
        by_cases full : (loop.batch ++ [f]).length = size
        · exact Or.inl ⟨full, if_pos full⟩
        · refine Or.inr ⟨?_, if_neg full⟩
          rw [List.length_append, List.length_singleton] at full ⊢
          omega

theorem Loop.Collecting.clear (positive : 1 ≤ size) (loop : Loop) : loop.clear.Collecting size :=
  ⟨positive, fun _ member => absurd member List.not_mem_nil⟩

/-- Without a limit the count makes no difference to what is launched. -/
theorem launched_any (size processed : Nat) (marked : File → Bool) (loop : Loop) (files : List File) :
    (processStreamDir size 0 marked (fun _ => true) processed loop files).launched =
      launched size marked loop files := by
  induction files generalizing processed loop with
  | nil => rfl
  | cons f files ih =>
    rw [launched, processStreamDir, processStreamDir]
    cases loop.read size (marked f) f with
    | goesOn loop => rw [ih]; rfl
    | full loop =>
      simp only [if_true, Nat.lt_irrefl, false_and, if_false]
      rw [ih, ih (0 + 1)]

theorem launched_goesOn {f : File} {next : Loop} (files : List File)
    (read : loop.read size (marked f) f = .goesOn next) :
    launched size marked loop (f :: files) = launched size marked next files := by
  rw [launched, processStreamDir, read]
  rfl

theorem launched_full {f : File} {next : Loop} (files : List File)
    (read : loop.read size (marked f) f = .full next) :
    launched size marked loop (f :: files) =
      next.batch :: launched size marked next.clear files := by
  rw [launched, processStreamDir, read]
  simp only [if_true, Nat.lt_irrefl, false_and, if_false]
  rw [launched_any]

/-- Each batch is full, unmarked and of one extension. -/
def Proper (size : Nat) (marked : File → Bool) (batch : List File) : Prop :=
  batch.length = size ∧ (∀ f ∈ batch, marked f = false) ∧ ∃ ext, ∀ f ∈ batch, f.ext = ext

theorem launched_proper (positive : 1 ≤ size) (files : List File) (loop : Loop)
    (collecting : loop.Collecting size) (unmarked : ∀ f ∈ loop.batch, marked f = false) :
    ∀ batch ∈ launched size marked loop files, Proper size marked batch := by
  induction files generalizing loop with
  | nil => exact fun batch member => absurd member List.not_mem_nil
  | cons f files ih =>
    obtain ⟨read, -⟩ | ⟨fresh, ext, same, -, read⟩ := loop.read_cases collecting (marked f) f
    · rw [launched_goesOn files read]
      exact ih loop collecting unmarked
    · have both : ∀ g ∈ loop.batch ++ [f], marked g = false := by
        intro g member
        rcases List.mem_append.mp member with old | new
        · exact unmarked g old
        · rw [List.mem_singleton.mp new]
          exact fresh
      obtain ⟨full, read⟩ | ⟨few, read⟩ := read
      · rw [launched_full files read]
        intro batch member
        rcases List.mem_cons.mp member with rfl | later
        · exact ⟨full, both, ext, same⟩
        · exact ih _ (.clear positive _) (fun g none => absurd none List.not_mem_nil) batch later
      · rw [launched_goesOn files read]
        exact ih _ ⟨few, same⟩ both

/-- One after the other the batches are taken from the files, in their order. -/
theorem launched_sublist (positive : 1 ≤ size) (files : List File) (loop : Loop)
    (collecting : loop.Collecting size) :
    (launched size marked loop files).flatten.Sublist (loop.batch ++ files) := by
  induction files generalizing loop with
  | nil => exact List.nil_sublist _
  | cons f files ih =>
    obtain ⟨read, -⟩ | ⟨-, ext, same, -, ⟨-, read⟩ | ⟨few, read⟩⟩ :=
      loop.read_cases collecting (marked f) f
    · rw [launched_goesOn files read]
      exact (ih loop collecting).trans ((List.sublist_cons_self f files).append_left loop.batch)
    · rw [launched_full files read, List.flatten_cons, List.append_cons loop.batch f files]
      exact (ih _ (.clear positive _)).append_left _
    · rw [launched_goesOn files read, List.append_cons loop.batch f files]
      exact ih _ ⟨few, same⟩

theorem backlog_cons (marked : File → Bool) (f : File) (files : List File) (ext : Ext) :
    backlog marked (f :: files) ext =
      backlog marked files ext + if marked f = false ∧ f.ext = ext then 1 else 0 := by
  rw [backlog, List.countP_cons, backlog]
  congr 1
  cases marked f <;> simp

/-- A batch that has been begun is launched exactly if enough files of its extension follow. -/
theorem launched_some_iff (files : List File) (loop : Loop) (collecting : loop.Collecting size)
    (begun : loop.batch ≠ []) :
    launched size marked loop files ≠ [] ↔
      size ≤ loop.batch.length + backlog marked files loop.firstExt := by
  induction files generalizing loop with
  | nil =>
    have few := collecting.few
    constructor
    · exact fun some => absurd rfl some
    · intro enough
      simp only [backlog, List.countP_nil] at enough
      omega
  | cons f files ih =>
    rw [backlog_cons]
    obtain ⟨read, skipped⟩ | ⟨fresh, ext, same, first, read⟩ :=
      loop.read_cases collecting (marked f) f
    · have not_counted : ¬ (marked f = false ∧ f.ext = loop.firstExt) := by
        rintro ⟨fresh, here⟩
        rcases skipped with was | ⟨-, other⟩
        · rw [fresh] at was
          cases was
        · exact other here
      rw [launched_goesOn files read, if_neg not_counted, Nat.add_zero]
      exact ih loop collecting begun
    · obtain rfl := first begun
      have counted : marked f = false ∧ f.ext = loop.firstExt :=
        ⟨fresh, same f (List.mem_append_right _ (List.mem_singleton_self f))⟩
      rw [if_pos counted]
      obtain ⟨full, read⟩ | ⟨few, read⟩ := read
      · rw [launched_full files read]
        rw [List.length_append, List.length_singleton] at full
        exact ⟨fun _ => by omega, fun _ => List.cons_ne_nil _ _⟩
      · rw [launched_goesOn files read, ih _ ⟨few, same⟩ (by simp)]
        simp only [List.length_append, List.length_singleton]
        omega

/-- A first batch is launched exactly if the backlog of the first unmarked file is long enough. -/
theorem launched_iff (positive : 1 ≤ size) (files : List File) (loop : Loop)
    (empty : loop.batch = []) :
    launched size marked loop files ≠ [] ↔
      ∃ f, files.find? (fun f => !marked f) = some f ∧ size ≤ backlog marked files f.ext := by
  have collecting : loop.Collecting size := by
    refine ⟨by rw [empty]; exact positive, fun f member => ?_⟩
    rw [empty] at member
    cases member
  induction files with
  | nil => simp [launched, processStreamDir]
  | cons f files ih =>
    obtain ⟨read, skipped⟩ | ⟨fresh, ext, same, -, read⟩ := loop.read_cases collecting (marked f) f
    · have skipped : marked f = true := skipped.resolve_right fun other => other.1 empty
      rw [launched_goesOn files read, List.find?_cons_of_neg (by simp [skipped])]
      simp only [backlog_cons, skipped, Bool.true_eq_false, false_and, if_false, Nat.add_zero]
      exact ih
    · rw [empty, List.nil_append] at same read
      have here : f.ext = ext := same f (List.mem_singleton_self f)
      rw [List.find?_cons_of_pos (by simp [fresh])]
      have count : backlog marked (f :: files) f.ext = backlog marked files f.ext + 1 := by
        rw [backlog_cons, if_pos ⟨fresh, rfl⟩]
      simp only [Option.some.injEq, exists_eq_left', count]
      obtain ⟨full, read⟩ | ⟨few, read⟩ := read
      · rw [launched_full files read]
        rw [List.length_singleton] at full
        exact ⟨fun _ => by omega, fun _ => List.cons_ne_nil _ _⟩
      · rw [launched_goesOn files read, launched_some_iff files _ ⟨few, same⟩ (by simp), here]
        simp only [List.length_singleton]
        omega

/-- The batches of one pass over the sorted files: disjoint, proper and in order, and one at least
when an extension has enough unmarked files. -/
def Formed (before : File → File → Prop) (size : Nat) (marked : File → Bool) (files : List File)
    (batches : List (List File)) : Prop :=
  batches.Pairwise List.Disjoint ∧
    (∀ batch ∈ batches, Proper size marked batch ∧ batch.Pairwise before ∧ ∀ f ∈ batch, f ∈ files) ∧
      ((∃ ext, size ≤ backlog marked files ext) → batches ≠ [])

/-- This is so exactly if the first unmarked file's extension has enough, or none has. -/
theorem formed_iff (before : File → File → Prop) (strict : ∀ f, ¬ before f f) (positive : 1 ≤ size)
    (marked : File → Bool) (files : List File) (sorted : files.Pairwise before) :
    Formed before size marked files (launched size marked .start files) ↔
      ((∃ ext, size ≤ backlog marked files ext) →
        ∃ f, files.find? (fun f => !marked f) = some f ∧ size ≤ backlog marked files f.ext) := by
  have collecting : Loop.start.Collecting size :=
    ⟨positive, fun _ member => absurd member List.not_mem_nil⟩
  have taken : (launched size marked .start files).flatten.Sublist files :=
    launched_sublist positive files .start collecting
  have proper : ∀ batch ∈ launched size marked .start files, Proper size marked batch :=
    launched_proper positive files .start collecting fun _ member => absurd member List.not_mem_nil
  have progress : launched size marked .start files ≠ [] ↔ _ :=
    launched_iff positive files .start rfl
  constructor
  · rintro ⟨-, -, some⟩ enough
    exact progress.mp (some enough)
  · intro first
    have ordered := sorted.sublist taken
    refine ⟨?_, fun batch member => ⟨proper batch member, ?_, fun f here => ?_⟩,
      fun enough => progress.mpr (first enough)⟩
    · have distinct : (launched size marked .start files).flatten.Nodup :=
        ordered.imp fun {a b} (less : before a b) (same : a = b) => strict b (same ▸ less)
      exact (List.nodup_flatten.mp distinct).2
    · exact (List.pairwise_flatten.mp ordered).1 batch member
    · exact taken.subset (List.mem_flatten_of_mem member here)

/-- One left-over file of the old codec, and the files of the new one. -/
def switched : List File := [⟨['1'], .h264⟩, ⟨['2'], .hevc⟩, ⟨['3'], .hevc⟩]

theorem switched_not_formed :
    ¬ Formed (fun a b => a.stem < b.stem) 2 (fun _ => false) switched
      (launched 2 (fun _ => false) .start switched) := by
  rintro ⟨-, -, some⟩
  exact some ⟨.hevc, by decide⟩ (by decide)

/-- When the left-over file has been marked a batch is formed. -/
theorem switched_formed :
    launched 2 (fun f => f.ext = .h264) .start switched = [[⟨['2'], .hevc⟩, ⟨['3'], .hevc⟩]] ∧
      Formed (fun a b => a.stem < b.stem) 2 (fun f => f.ext = .h264) switched
        (launched 2 (fun f => f.ext = .h264) .start switched) := by
  have strict : ∀ f : File, ¬ f.stem < f.stem := fun f => List.lt_irrefl f.stem
  have sorted : switched.Pairwise fun a b => a.stem < b.stem := by decide
  have first : ∃ f, switched.find? (fun f => !decide (f.ext = .h264)) = some f ∧
      2 ≤ backlog (fun f => f.ext = .h264) switched f.ext := ⟨⟨['2'], .hevc⟩, by decide, by decide⟩
  exact ⟨by decide, (formed_iff _ strict (by decide) _ switched sorted).mpr fun _ => first⟩

end StreamRelay.Transcode
