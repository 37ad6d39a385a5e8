import StreamRelay.Narrowing
import StreamRelay.Relief
import Mathlib.Data.List.Sort

/-! The capacity pruning of the recording store. The directories lie apart, as they do by default,
and nothing else touches the files during a run. What the commands outside say, the time and the
bytes in use, comes with the run. -/
namespace StreamRelay.Prune
open Relief

abbrev Name := List Char

inductive Tree
  | transcoded
  | raw
  | logs
  deriving DecidableEq

structure Path where
  tree : Tree
  dirs : List Name
  name : Name
  deriving DecidableEq

/-- A file; its time is in nanoseconds. -/
structure StoredFile where
  path : Path
  mtime : Int
  size : Nat
  deriving DecidableEq

/-- The files of the store. No two have the same path. -/
structure Store where
  files : List StoredFile
  distinct : (files.map StoredFile.path).Nodup

/-- The thresholds, which is_uint lets through, as bash reads them. -/
structure Config where
  codedTriggerGb : Nat
  codedRetentionDays : Nat
  rawTriggerGb : Nat
  rawTargetGb : Nat
  tmpMaxAgeMin : Nat
  dryRun : Bool
  deriving DecidableEq

/-- What date and the calls of df say, one call after another. -/
structure World where
  now : Int
  todayStart : Int
  df : Nat → Nat
  fits : ∀ call, df call < 2 ^ 63

inductive Reason
  | staleTmp
  | matchingLog
  | oldCoded
  | nonTodayCoded
  | emergencyRaw
  deriving DecidableEq

/-- The variables of a run, the files as they are, and the deletions it has printed. -/
structure Session where
  files : List StoredFile
  usedBytes : Int
  dfCalls : Nat
  tmpDeleted : Int
  codedDeletedCount : Int
  codedDeletedBytes : Int
  todayCodedDeletedCount : Int
  todayCodedDeletedBytes : Int
  rawDeletedCount : Int
  rawDeletedBytes : Int
  printed : List (Reason × Path)
  deriving DecidableEq

/-- The arithmetic of bash, in 64 bits. -/
def arith (x : Int) : Int := Narrowing.wrap 9223372036854775808 x

def gbToBytes (gb : Nat) : Int := arith (gb * 1024 * 1024 * 1024)

/-- `raw_target_bytes` after the thresholds are set up. -/
def Config.rawTargetBytes (c : Config) : Int :=
  if gbToBytes c.rawTriggerGb ≤ gbToBytes c.rawTargetGb then
    arith (gbToBytes c.rawTriggerGb - 50 * 1024 * 1024 * 1024)
  else gbToBytes c.rawTargetGb

/-- `-name '*suffix'` -/
def StoredFile.ends (file : StoredFile) (suffix : Name) : Bool := suffix.isSuffixOf file.path.name

/-- `-mmin +minutes` -/
def StoredFile.olderThan (file : StoredFile) (w : World) (minutes : Int) : Bool :=
  file.mtime < w.now - minutes * 60 * 1000000000

/-- `sort -z -n`. Which of two files of one age comes first is left to the order of the store. -/
def oldestFirst (files : List StoredFile) : List StoredFile :=
  files.insertionSort fun a b => a.mtime ≤ b.mtime

def isFile (files : List StoredFile) (path : Path) : Bool := files.any fun file => file.path = path

def remove (path : Path) (files : List StoredFile) : List StoredFile :=
  files.filter fun file => file.path ≠ path

/-- `rm -f` -/
def Session.rm (s : Session) (path : Path) : Session := {s with files := remove path s.files}

variable (c : Config) (w : World)

def refreshUsedBytes (s : Session) : Session :=
  {s with usedBytes := w.df s.dfCalls, dfCalls := s.dfCalls + 1}

def deletePath (path : Path) (reason : Reason) (s : Session) : Session :=
  let s := if c.dryRun then s else s.rm path
  {s with printed := s.printed ++ [(reason, path)]}

/-- The log that delete_matching_log looks for. -/
def matchingLog (mp4 : Path) : Path :=
  let stream := mp4.dirs.getLast?.getD "transcoded".toList
  let stem := if ".mp4".toList.isSuffixOf mp4.name then mp4.name.take (mp4.name.length - 4)
    else mp4.name
  let base := if stem = [] then stream else stem
  ⟨.logs, [], stream ++ "_".toList ++ base ++ ".log".toList⟩

def deleteMatchingLog (mp4 : Path) (s : Session) : Session :=
  if isFile s.files (matchingLog mp4) then deletePath c (matchingLog mp4) .matchingLog s else s

def deleteStaleTmp (s : Session) : Session :=
  let found := s.files.filter fun file =>
    file.path.tree = .transcoded && file.ends ".tmp".toList && file.olderThan w c.tmpMaxAgeMin
  found.foldl (fun s file =>
    let s := deletePath c file.path .staleTmp s
    {s with tmpDeleted := arith (s.tmpDeleted + 1)}) s

def deleteOldCoded (s : Session) : Session :=
  let oldMmin := arith (c.codedRetentionDays * 24 * 60)
  let found := s.files.filter fun file =>
    file.path.tree = .transcoded && file.ends ".mp4".toList && file.olderThan w oldMmin
  (oldestFirst found).foldl (fun s file =>
    if isFile s.files file.path then
      let s := deleteMatchingLog c file.path (deletePath c file.path .oldCoded s)
      {s with
        codedDeletedCount := arith (s.codedDeletedCount + 1)
        codedDeletedBytes := arith (s.codedDeletedBytes + file.size)}
    else s) s

def deleteNonTodayCoded (s : Session) : Session :=
  let found := s.files.filter fun file =>
    file.path.tree = .transcoded && file.ends ".mp4".toList && file.mtime ≤ w.todayStart
  (oldestFirst found).foldl (fun s file =>
    if isFile s.files file.path then
      let s := deleteMatchingLog c file.path (deletePath c file.path .nonTodayCoded s)
      {s with
        todayCodedDeletedCount := arith (s.todayCodedDeletedCount + 1)
        todayCodedDeletedBytes := arith (s.todayCodedDeletedBytes + file.size)}
    else s) s

/-- The recordings that delete_raw_until_target finds, in its order. -/
def recordings (files : List StoredFile) : List StoredFile :=
  oldestFirst (files.filter fun file =>
    file.path.tree = .raw && (file.ends ".h264".toList || file.ends ".hevc".toList))

def Path.marker (path : Path) (suffix : Name) : Path := {path with name := path.name ++ suffix}

/-- What the loop does with one recording, up to its last test. -/
def discard (file : StoredFile) (s : Session) : Session :=
  let s := deletePath c file.path .emergencyRaw s
  let s := (s.rm (file.path.marker ".synced".toList)).rm (file.path.marker ".transcoded".toList)
  {s with
    rawDeletedCount := arith (s.rawDeletedCount + 1)
    rawDeletedBytes := arith (s.rawDeletedBytes + file.size)
    usedBytes := if file.size < s.usedBytes then arith (s.usedBytes - file.size) else 0}

/-- The loop of delete_raw_until_target. -/
def rawLoop : List StoredFile → Session → Session
  | [], s => s
  | file :: rest, s =>
    if isFile s.files file.path then
      let s := discard c file s
      if s.usedBytes ≤ c.rawTargetBytes then s else rawLoop rest s
    else rawLoop rest s

def deleteRawUntilTarget (s : Session) : Session := rawLoop c (recordings s.files) s

def start (files : List StoredFile) : Session := ⟨files, 0, 0, 0, 0, 0, 0, 0, 0, 0, []⟩

/-- The main sequence up to its last test. -/
def pruneCoded (files : List StoredFile) : Session :=
  let s := refreshUsedBytes w (deleteStaleTmp c w (start files))
  let s := if gbToBytes c.codedTriggerGb < s.usedBytes then
    refreshUsedBytes w (deleteOldCoded c w s) else s
  if gbToBytes c.rawTriggerGb < s.usedBytes then
    refreshUsedBytes w (deleteNonTodayCoded c w s) else s

def prune (files : List StoredFile) : Session :=
  let s := pruneCoded c w files
  if gbToBytes c.rawTriggerGb < s.usedBytes then deleteRawUntilTarget c s else s

/-- The recordings given up, in order. -/
def Session.emergency (s : Session) : List Path :=
  (s.printed.filter fun line => line.1 = .emergencyRaw).map Prod.snd

/-- The trigger as it is meant, in bytes. -/
def Config.rawTrigger (c : Config) : Int := c.rawTriggerGb * 2 ^ 30

/-- The target as it is set, in bytes. -/
def Config.rawTarget (c : Config) : Int := c.rawTargetGb * 2 ^ 30

/-- The target is one to stop at. -/
def Bounded (c : Config) : Prop :=
  0 ≤ c.rawTargetBytes ∧ (0 < c.rawTrigger → c.rawTargetBytes < c.rawTrigger)

/-- A run gives up recordings, oldest first, only above the trigger, only until the target is
reached, and leaves what is still being written. -/
structure Sparing (c : Config) (w : World) (store : Store) : Prop where
  oldest : (recordings store.files).Pairwise fun a b => a.mtime ≤ b.mtime
  shortest : ∃ gone used, (pruneCoded c w store.files).usedBytes = (used : Nat) ∧
    (prune c w store.files).emergency = gone.map StoredFile.path ∧
    (if c.rawTrigger < used then
      Shortest StoredFile.size c.rawTargetBytes used (recordings store.files) gone
      else gone = []) ∧
    ∀ file ∈ recordings store.files,
      file ∈ (prune c w store.files).files ↔ c.dryRun = true ∨ file ∉ gone
  written : ∀ file, file.path.tree = .raw → file.ends ".tmp".toList = true →
    (file ∈ (prune c w store.files).files ↔ file ∈ store.files)

/-- Not all recordings are given up where a part of them brings the usage down to the trigger, and to
the target where that is set below it. -/
def Spared (c : Config) (w : World) (store : Store) : Prop :=
  ∀ used : Nat, (pruneCoded c w store.files).usedBytes = used →
    ∀ part, part <+: recordings store.files → part ≠ recordings store.files →
      left StoredFile.size used part ≤ min c.rawTrigger c.rawTarget →
      (prune c w store.files).emergency ≠ (recordings store.files).map StoredFile.path

theorem arith_inside {x : Int} (above : -9223372036854775808 ≤ x) (below : x < 9223372036854775808) :
    arith x = x := Narrowing.wrap_inside 9223372036854775808 above below

theorem gbToBytes_inside {gb : Nat} (inside : gb < 2 ^ 33) : gbToBytes gb = gb * 2 ^ 30 := by
  rw [gbToBytes, arith_inside (by omega) (by omega)]
  omega

theorem gbToBytes_lt (gb : Nat) : gbToBytes gb < 9223372036854775807 := by
  rw [gbToBytes, arith, Narrowing.wrap_eq]
  split <;> omega

/-- What comes before the last test leaves the raw recordings as they are. -/
structure RawKept (s s' : Session) : Prop where
  files : (s'.files.filter fun file => file.path.tree = .raw) =
    s.files.filter fun file => file.path.tree = .raw
  emergency : s'.emergency = s.emergency

namespace RawKept

theorem refl (s : Session) : RawKept s s := ⟨rfl, rfl⟩

theorem trans {s s' s'' : Session} (first : RawKept s s') (second : RawKept s' s'') :
    RawKept s s'' :=
  ⟨second.files.trans first.files, second.emergency.trans first.emergency⟩

theorem foldl {step : Session → StoredFile → Session} (found : List StoredFile)
    (each : ∀ file ∈ found, ∀ s, RawKept s (step s file)) (s : Session) :
    RawKept s (found.foldl step s) := by
  induction found generalizing s with
  | nil => exact refl s
  | cons file found ih =>
    apply (each file (by simp) s).trans
    exact ih (fun other member => each other (List.mem_cons_of_mem _ member)) _

end RawKept

theorem remove_raw {path : Path} (apart : path.tree ≠ .raw) (files : List StoredFile) :
    ((remove path files).filter fun file => file.path.tree = .raw) =
      files.filter fun file => file.path.tree = .raw := by
  rw [remove, List.filter_filter]
  apply List.filter_congr
  intro file _
  by_cases raw : file.path.tree = .raw
  · have other : file.path ≠ path := by
      rintro rfl
      exact apart raw
    simp [raw, other]
  · simp [raw]

theorem emergency_append (s : Session) (lines : List (Reason × Path)) :
    Session.emergency {s with printed := s.printed ++ lines} =
      s.emergency ++ (lines.filter fun line => line.1 = .emergencyRaw).map Prod.snd := by
  simp [Session.emergency]

theorem deletePath_kept {path : Path} (apart : path.tree ≠ .raw) {reason : Reason}
    (earlier : reason ≠ .emergencyRaw) (s : Session) :
    RawKept s (deletePath c path reason s) := by
  constructor
  · unfold deletePath
    split
    · rfl
    · exact remove_raw apart s.files
  · have added := emergency_append (if c.dryRun then s else s.rm path) [(reason, path)]
    rw [deletePath, added]
    split <;> simp [earlier, Session.emergency, Session.rm]

theorem matchingLog_apart (mp4 : Path) : (matchingLog mp4).tree ≠ .raw := by
  have tree : (matchingLog mp4).tree = .logs := rfl
  rw [tree]
  decide

theorem deleteMatchingLog_kept (mp4 : Path) (s : Session) :
    RawKept s (deleteMatchingLog c mp4 s) := by
  unfold deleteMatchingLog
  split
  · exact deletePath_kept c (matchingLog_apart mp4) (by simp) s
  · exact .refl s

theorem deleteStaleTmp_kept (s : Session) : RawKept s (deleteStaleTmp c w s) := by
  apply RawKept.foldl
  intro file member s
  have apart : file.path.tree = .transcoded := by
    simp only [List.mem_filter, Bool.and_eq_true, decide_eq_true_eq] at member
    exact member.2.1.1
  have other : file.path.tree ≠ .raw := by simp [apart]
  have earlier : Reason.staleTmp ≠ .emergencyRaw := by simp
  have kept := deletePath_kept c other earlier s
  exact ⟨kept.files, kept.emergency⟩

theorem coded_kept {reason : Reason} (earlier : reason ≠ .emergencyRaw) {file : StoredFile}
    (apart : file.path.tree = .transcoded) (s : Session) :
    RawKept s (deleteMatchingLog c file.path (deletePath c file.path reason s)) :=
  (deletePath_kept c (by simp [apart]) earlier s).trans (deleteMatchingLog_kept c _ _)

theorem transcoded_of_mem {files : List StoredFile} {file : StoredFile}
    {test : StoredFile → Bool}
    (member : file ∈ oldestFirst (files.filter fun file => file.path.tree = .transcoded && test file)) :
    file.path.tree = .transcoded := by
  rw [oldestFirst, List.mem_insertionSort, List.mem_filter, Bool.and_eq_true] at member
  exact of_decide_eq_true member.2.1

theorem deleteOldCoded_kept (s : Session) : RawKept s (deleteOldCoded c w s) := by
  apply RawKept.foldl
  intro file member s
  simp only [Bool.and_assoc] at member
  split
  · have earlier : Reason.oldCoded ≠ .emergencyRaw := by simp
    have kept := coded_kept c earlier (transcoded_of_mem member) s
    exact ⟨kept.files, kept.emergency⟩
  · exact .refl s

theorem deleteNonTodayCoded_kept (s : Session) : RawKept s (deleteNonTodayCoded c w s) := by
  apply RawKept.foldl
  intro file member s
  simp only [Bool.and_assoc] at member
  split
  · have earlier : Reason.nonTodayCoded ≠ .emergencyRaw := by simp
    have kept := coded_kept c earlier (transcoded_of_mem member) s
    exact ⟨kept.files, kept.emergency⟩
  · exact .refl s

theorem refreshUsedBytes_kept (s : Session) : RawKept s (refreshUsedBytes w s) := ⟨rfl, rfl⟩

/-- The bytes in use are what df said last. -/
def Read (s : Session) : Prop := ∃ call, s.usedBytes = w.df call

theorem refreshUsedBytes_read (s : Session) : Read w (refreshUsedBytes w s) := ⟨s.dfCalls, rfl⟩

theorem pruneCoded_spec (files : List StoredFile) :
    RawKept (start files) (pruneCoded c w files) ∧ Read w (pruneCoded c w files) := by
  have first : RawKept (start files) (refreshUsedBytes w (deleteStaleTmp c w (start files))) :=
    (deleteStaleTmp_kept c w _).trans (refreshUsedBytes_kept w _)
  have read := refreshUsedBytes_read w (deleteStaleTmp c w (start files))
  unfold pruneCoded
  generalize refreshUsedBytes w (deleteStaleTmp c w (start files)) = s at first read
  have second : RawKept (start files) (if gbToBytes c.codedTriggerGb < s.usedBytes then
      refreshUsedBytes w (deleteOldCoded c w s) else s) ∧
      Read w (if gbToBytes c.codedTriggerGb < s.usedBytes then
        refreshUsedBytes w (deleteOldCoded c w s) else s) := by
    split
    · exact ⟨first.trans ((deleteOldCoded_kept c w s).trans (refreshUsedBytes_kept w _)),
        refreshUsedBytes_read w _⟩
    · exact ⟨first, read⟩
  simp only
  generalize (if gbToBytes c.codedTriggerGb < s.usedBytes then
    refreshUsedBytes w (deleteOldCoded c w s) else s) = s at second
  split
  · exact ⟨second.1.trans ((deleteNonTodayCoded_kept c w s).trans (refreshUsedBytes_kept w _)),
      refreshUsedBytes_read w _⟩
  · exact second

def IsRecording (file : StoredFile) : Prop :=
  file.path.tree = .raw ∧ (file.ends ".h264".toList = true ∨ file.ends ".hevc".toList = true)

theorem mem_recordings {files : List StoredFile} {file : StoredFile} :
    file ∈ recordings files ↔ file ∈ files ∧ IsRecording file := by
  rw [recordings, oldestFirst, List.mem_insertionSort, List.mem_filter, IsRecording]
  simp only [Bool.and_eq_true, Bool.or_eq_true, decide_eq_true_eq]

theorem recordings_kept {s s' : Session} (kept : RawKept s s') :
    recordings s'.files = recordings s.files := by
  have narrowed (files : List StoredFile) : recordings files =
      recordings (files.filter fun file => file.path.tree = .raw) := by
    rw [recordings, recordings, List.filter_filter]
    apply congrArg oldestFirst
    apply List.filter_congr
    intro file _
    cases decide (file.path.tree = Tree.raw) <;> simp
  rw [narrowed, kept.files, ← narrowed]

theorem ends_last {file : StoredFile} {suffix : Name} (nonempty : suffix ≠ [])
    (ends : file.ends suffix = true) : file.path.name.getLast? = suffix.getLast? := by
  obtain ⟨front, whole⟩ := List.isSuffixOf_iff_suffix.mp ends
  rw [← whole, List.getLast?_append_of_ne_nil _ nonempty]

theorem IsRecording.last {file : StoredFile} (recording : IsRecording file) :
    file.path.name.getLast? = some '4' ∨ file.path.name.getLast? = some 'c' :=
  recording.2.imp (ends_last (by decide)) (ends_last (by decide))

theorem marker_last (path : Path) {suffix : Name} (nonempty : suffix ≠ []) :
    (path.marker suffix).name.getLast? = suffix.getLast? :=
  List.getLast?_append_of_ne_nil _ nonempty

theorem mem_remove {path : Path} {files : List StoredFile} {file : StoredFile} :
    file ∈ remove path files ↔ file ∈ files ∧ file.path ≠ path := by
  simp [remove]

/-- No marker goes by the name of a file that does not end in the letter of the markers. -/
theorem not_marker {path other : Path} {suffix : Name} (last : suffix.getLast? = some 'd')
    (named : other.name.getLast? ≠ some 'd') : other ≠ path.marker suffix := by
  rintro rfl
  have nonempty : suffix ≠ [] := by
    rintro rfl
    cases last
  rw [marker_last path nonempty] at named
  exact named last

theorem mem_discard {file other : StoredFile} (named : other.path.name.getLast? ≠ some 'd')
    (s : Session) : other ∈ (discard c file s).files ↔
      other ∈ s.files ∧ (c.dryRun = true ∨ other.path ≠ file.path) := by
  have synced : other.path ≠ file.path.marker ".synced".toList := not_marker (by decide) named
  have transcoded : other.path ≠ file.path.marker ".transcoded".toList :=
    not_marker (by decide) named
  have files : (discard c file s).files = remove (file.path.marker ".transcoded".toList)
    (remove (file.path.marker ".synced".toList) (deletePath c file.path .emergencyRaw s).files) := rfl
  rw [files, mem_remove, mem_remove]
  simp only [synced, transcoded, ne_eq, not_false_eq_true, and_true]
  unfold deletePath
  cases c.dryRun with
  | true => simp
  | false => simp [Session.rm, mem_remove]

theorem mem_discards {other : StoredFile} (named : other.path.name.getLast? ≠ some 'd')
    (gone : List StoredFile) (s : Session) :
    other ∈ (gone.foldl (fun s file => discard c file s) s).files ↔
      other ∈ s.files ∧ (c.dryRun = true ∨ ∀ file ∈ gone, other.path ≠ file.path) := by
  induction gone generalizing s with
  | nil => simp
  | cons file gone ih =>
    rw [List.foldl_cons, ih, mem_discard c named]
    simp only [List.forall_mem_cons]
    tauto

theorem emergency_discards (gone : List StoredFile) (s : Session) :
    (gone.foldl (fun s file => discard c file s) s).emergency =
      s.emergency ++ gone.map StoredFile.path := by
  induction gone generalizing s with
  | nil => simp
  | cons file gone ih =>
    have one : (discard c file s).emergency = s.emergency ++ [file.path] := by
      have printed : (discard c file s).printed = s.printed ++ [(.emergencyRaw, file.path)] := by
        unfold discard deletePath
        cases c.dryRun <;> rfl
      simp [Session.emergency, printed]
    rw [List.foldl_cons, ih, one, List.map_cons, List.append_assoc, List.singleton_append]

theorem discard_used {used : Nat} (file : StoredFile) {s : Session} (reads : s.usedBytes = used)
    (fits : used < 2 ^ 63) : (discard c file s).usedBytes = (used - file.size : Nat) := by
  have same : (discard c file s).usedBytes =
      if (file.size : Int) < s.usedBytes then arith (s.usedBytes - file.size) else 0 := by
    unfold discard deletePath
    cases c.dryRun <;> rfl
  rw [same, reads]
  split
  · rw [arith_inside (by omega) (by omega)]
    omega
  · omega

/-- While every entry of the listing is there, the loop gives up the front that it needs. -/
theorem rawLoop_eq (listing : List StoredFile) (distinct : (listing.map StoredFile.path).Nodup)
    (recorded : ∀ file ∈ listing, IsRecording file) (s : Session)
    (present : ∀ file ∈ listing, file ∈ s.files) (used : Nat) (reads : s.usedBytes = used)
    (fits : used < 2 ^ 63) :
    rawLoop c listing s =
      (relieve StoredFile.size c.rawTargetBytes used listing).foldl
        (fun s file => discard c file s) s := by
  induction listing generalizing s used with
  | nil => rfl
  | cons file rest ih =>
    have here : isFile s.files file.path = true := by
      rw [isFile, List.any_eq_true]
      exact ⟨file, present file (by simp), by simp⟩
    have after := discard_used c file reads fits
    rw [List.map_cons, List.nodup_cons] at distinct
    rw [rawLoop, if_pos here, relieve, List.foldl_cons]
    simp only [after]
    split
    · rfl
    · apply ih distinct.2 (fun other member => recorded other (List.mem_cons_of_mem _ member)) _ _ _
        after (by omega)
      intro other member
      have own := recorded other (List.mem_cons_of_mem _ member)
      have named : other.path.name.getLast? ≠ some 'd' := by
        rcases own.last with last | last <;> simp [last]
      apply (mem_discard c named s).mpr
      refine ⟨present other (List.mem_cons_of_mem _ member), .inr fun same => distinct.1 ?_⟩
      rw [← same]
      exact List.mem_map_of_mem member

theorem RawKept.mem {s s' : Session} (kept : RawKept s s') {file : StoredFile}
    (raw : file.path.tree = .raw) : file ∈ s'.files ↔ file ∈ s.files := by
  have same : file ∈ (s'.files.filter fun file => file.path.tree = .raw) ↔
      file ∈ s.files.filter fun file => file.path.tree = .raw := by rw [kept.files]
  simpa [List.mem_filter, raw] using same

theorem recordings_distinct (store : Store) :
    ((recordings store.files).map StoredFile.path).Nodup := by
  have order := (List.perm_insertionSort (fun a b : StoredFile => a.mtime ≤ b.mtime)
    (store.files.filter fun file =>
      file.path.tree = .raw && (file.ends ".h264".toList || file.ends ".hevc".toList))).map
        StoredFile.path
  apply order.nodup_iff.mpr
  exact store.distinct.sublist (List.filter_sublist.map _)

theorem recordings_oldest (files : List StoredFile) :
    (recordings files).Pairwise fun a b => a.mtime ≤ b.mtime := by
  have : Std.Total fun a b : StoredFile => a.mtime ≤ b.mtime := ⟨fun a b => Int.le_total _ _⟩
  have : IsTrans StoredFile fun a b => a.mtime ≤ b.mtime := ⟨fun a b c => Int.le_trans⟩
  exact List.pairwise_insertionSort _ _

/-- Of two files of a store one path means one file. -/
theorem Store.same {store : Store} {a b : StoredFile} (left : a ∈ store.files)
    (right : b ∈ store.files) (path : a.path = b.path) : a = b :=
  List.inj_on_of_nodup_map store.distinct left right path

theorem rawTargetBytes_lt (inside : c.rawTriggerGb < 2 ^ 33) : c.rawTargetBytes < c.rawTrigger := by
  unfold Config.rawTargetBytes Config.rawTrigger
  rw [gbToBytes_inside inside]
  split
  · rw [arith_inside (by omega) (by omega)]
    omega
  · next below => exact not_le.mp below

/-- Above the trigger as it is computed, the recordings given up are those that are needed. -/
theorem prune_above (store : Store) {used : Nat}
    (reads : (pruneCoded c w store.files).usedBytes = used) (fits : used < 2 ^ 63)
    (above : gbToBytes c.rawTriggerGb < used) :
    prune c w store.files = (relieve StoredFile.size c.rawTargetBytes used
      (recordings store.files)).foldl (fun s file => discard c file s) (pruneCoded c w store.files) := by
  have recorded : recordings (pruneCoded c w store.files).files = recordings store.files :=
    recordings_kept (pruneCoded_spec c w store.files).1
  have present : ∀ file ∈ recordings store.files, file ∈ (pruneCoded c w store.files).files := by
    intro file member
    rw [← recorded] at member
    exact (mem_recordings.mp member).1
  rw [← reads] at above
  rw [prune, if_pos above, deleteRawUntilTarget, recorded]
  exact rawLoop_eq c _ (recordings_distinct store)
    (fun file member => (mem_recordings.mp member).2) _ present used reads fits

theorem sparing_inside (inside : c.rawTriggerGb < 2 ^ 33) (store : Store) : Sparing c w store := by
  obtain ⟨kept, call, reads⟩ := pruneCoded_spec c w store.files
  have fits := w.fits call
  generalize w.df call = used at reads fits
  have trigger : gbToBytes c.rawTriggerGb = c.rawTrigger := gbToBytes_inside inside
  have fresh : (pruneCoded c w store.files).emergency = [] := kept.emergency
  by_cases above : c.rawTrigger < used
  · have run := prune_above c w store reads fits (by rw [trigger]; exact above)
    have shortest := relieve_shortest StoredFile.size c.rawTargetBytes (recordings store.files)
      used ((rawTargetBytes_lt c inside).trans above)
    generalize relieve StoredFile.size c.rawTargetBytes used (recordings store.files) = gone
      at run shortest
    have owned (file : StoredFile) (member : file ∈ gone) : file ∈ recordings store.files :=
      shortest.front.mem member
    refine ⟨recordings_oldest _, ⟨gone, used, reads, ?_, ?_, ?_⟩, ?_⟩
    · rw [run, emergency_discards, fresh, List.nil_append]
    · rw [if_pos above]
      exact shortest
    · intro file member
      obtain ⟨own, recording⟩ := mem_recordings.mp member
      have named : file.path.name.getLast? ≠ some 'd' := by
        rcases recording.last with last | last <;> simp [last]
      rw [run, mem_discards c named, kept.mem recording.1]
      refine ⟨fun both => both.2.imp_right fun apart inside => apart file inside rfl, fun stays =>
        ⟨own, stays.imp_right fun out other member same => out ?_⟩⟩
      rwa [store.same own (mem_recordings.mp (owned other member)).1 same]
    · intro file raw written
      have last : file.path.name.getLast? = some 'p' := ends_last (by decide) written
      rw [run, mem_discards c (by simp [last]), kept.mem raw]
      refine and_iff_left (.inr fun other member same => ?_)
      rw [same] at last
      rcases (mem_recordings.mp (owned other member)).2.last with four | four <;>
        simp [last] at four
  · have run : prune c w store.files = pruneCoded c w store.files := by
      rw [prune, if_neg (by rw [trigger, reads]; exact above)]
    refine ⟨recordings_oldest _, ⟨[], used, reads, ?_, ?_, ?_⟩, ?_⟩
    · rw [run, fresh]
      rfl
    · rw [if_neg above]
    · intro file member
      rw [run, kept.mem (mem_recordings.mp member).2.1]
      simp [(mem_recordings.mp member).1, start]
    · intro file raw _
      rw [run, kept.mem raw]
      rfl

/-- A store of one recording on a full file system. -/
def oneRecording : Store := ⟨[⟨⟨.raw, ["cam".toList], "a.h264".toList⟩, 0, 1⟩], by decide⟩

def fullWorld : World := ⟨0, 0, fun _ => 9223372036854775807, fun _ => by decide⟩

/-- A trigger that does not fit in 64 bits wraps around, and the recording goes. -/
theorem not_sparing_outside (outside : 2 ^ 33 ≤ c.rawTriggerGb) :
    ¬ Sparing c fullWorld oneRecording := by
  rintro ⟨-, ⟨gone, used, reads, emergency, kept, -⟩, -⟩
  obtain ⟨before, call, said⟩ := pruneCoded_spec c fullWorld oneRecording.files
  obtain rfl : used = 9223372036854775807 := Int.ofNat.inj (reads.symm.trans said)
  have run := prune_above c fullWorld oneRecording reads (by decide) (gbToBytes_lt _)
  have listing : recordings oneRecording.files =
      [⟨⟨.raw, ["cam".toList], "a.h264".toList⟩, 0, 1⟩] := by decide
  rw [if_neg (by unfold Config.rawTrigger; omega)] at kept
  rw [run, emergency_discards, kept, listing, relieve] at emergency
  simp at emergency

theorem path_inj (store : Store) {gone : List StoredFile}
    (front : gone <+: recordings store.files)
    (all : gone.map StoredFile.path = (recordings store.files).map StoredFile.path) :
    gone = recordings store.files := by
  apply front.eq_of_length
  simpa using congrArg List.length all

/-- With a target below the trigger, what is given up is no more than the target asks for. -/
theorem spared_below (inside : c.rawTriggerGb < 2 ^ 33) (below : c.rawTargetGb < c.rawTriggerGb)
    (store : Store) : Spared c w store := by
  have target : c.rawTargetBytes = c.rawTarget := by
    unfold Config.rawTargetBytes Config.rawTarget
    rw [gbToBytes_inside inside, gbToBytes_inside (by omega), if_neg (by omega)]
  intro used reads part front proper reached all
  obtain ⟨-, ⟨gone, used', reads', emergency, kept, -⟩, -⟩ := sparing_inside c w inside store
  obtain rfl : used' = used := Int.ofNat.inj (reads'.symm.trans reads)
  rw [emergency] at all
  split at kept
  · apply kept.not_all StoredFile.size c.rawTargetBytes front proper
    · rw [target]
      exact reached.trans (min_le_right _ _)
    · exact path_inj store kept.front all
  · subst kept
    have none : recordings store.files = [] := List.map_eq_nil_iff.mp all.symm
    rw [none] at front proper
    exact proper (List.prefix_nil.mp front)

/-- A byte above the trigger, with two recordings of one byte. -/
def twoRecordings : Store :=
  ⟨[⟨⟨.raw, ["cam".toList], "a.h264".toList⟩, 0, 1⟩, ⟨⟨.raw, ["cam".toList], "b.h264".toList⟩, 1, 1⟩],
    by decide⟩

/-- With a target at or above the trigger, the second recording goes too. -/
theorem not_spared_above (inside : c.rawTriggerGb < 2 ^ 33) (above : c.rawTriggerGb ≤ c.rawTargetGb) :
    ∃ w, ¬ Spared c w twoRecordings := by
  have fits : c.rawTriggerGb * 2 ^ 30 + 1 < 2 ^ 63 := by omega
  refine ⟨⟨0, 0, fun _ => c.rawTriggerGb * 2 ^ 30 + 1, fun _ => fits⟩, fun spared => ?_⟩
  generalize same : (⟨0, 0, fun _ => c.rawTriggerGb * 2 ^ 30 + 1, fun _ => fits⟩ : World) = w at spared
  obtain ⟨kept, call, said⟩ := pruneCoded_spec c w twoRecordings.files
  have reads : (pruneCoded c w twoRecordings.files).usedBytes =
      (c.rawTriggerGb * 2 ^ 30 + 1 : Nat) := by
    rw [said, ← same]
  have trigger := gbToBytes_inside inside
  have target := rawTargetBytes_lt c inside
  have run := prune_above c w twoRecordings reads fits (by rw [trigger]; omega)
  have listing : recordings twoRecordings.files = twoRecordings.files := by decide
  have both : relieve StoredFile.size c.rawTargetBytes (c.rawTriggerGb * 2 ^ 30 + 1)
      twoRecordings.files = twoRecordings.files := by
    unfold Config.rawTrigger at target
    simp only [twoRecordings, relieve]
    rw [if_neg (by omega)]
    simp
  have fresh : (pruneCoded c w twoRecordings.files).emergency = [] := kept.emergency
  refine spared _ reads (twoRecordings.files.take 1) ?_ ?_ ?_ ?_
  · rw [listing]
    exact List.take_prefix _ _
  · rw [listing]
    decide
  · have down : left StoredFile.size (c.rawTriggerGb * 2 ^ 30 + 1) (twoRecordings.files.take 1) =
        c.rawTriggerGb * 2 ^ 30 := by
      simp [left, twoRecordings]
    rw [down, le_min_iff]
    unfold Config.rawTrigger Config.rawTarget
    omega
  · rw [run, emergency_discards, fresh, List.nil_append, listing, both]

/-- The shortest front is given up down to a target to stop at just when the trigger fits in 64 bits
and the target is below it, or the trigger leaves room for the distance that is taken instead. -/
theorem bounded_iff : (Bounded c ∧ ∀ w store, Sparing c w store) ↔
    c.rawTriggerGb < 2 ^ 33 ∧
      ((0 ≤ gbToBytes c.rawTargetGb ∧ gbToBytes c.rawTargetGb < gbToBytes c.rawTriggerGb) ∨
        (gbToBytes c.rawTriggerGb ≤ gbToBytes c.rawTargetGb ∧ 50 ≤ c.rawTriggerGb)) := by
  have target (inside : c.rawTriggerGb < 2 ^ 33) : 0 ≤ c.rawTargetBytes ↔
      (0 ≤ gbToBytes c.rawTargetGb ∧ gbToBytes c.rawTargetGb < gbToBytes c.rawTriggerGb) ∨
        (gbToBytes c.rawTriggerGb ≤ gbToBytes c.rawTargetGb ∧ 50 ≤ c.rawTriggerGb) := by
    unfold Config.rawTargetBytes
    rw [gbToBytes_inside inside]
    split
    · rw [arith_inside (by omega) (by omega)]
      omega
    · omega
  constructor
  · rintro ⟨bounded, sparing⟩
    have inside : c.rawTriggerGb < 2 ^ 33 := by
      by_contra outside
      exact not_sparing_outside c (not_lt.mp outside) (sparing fullWorld oneRecording)
    exact ⟨inside, (target inside).mp bounded.1⟩
  · rintro ⟨inside, bounded⟩
    exact ⟨⟨(target inside).mpr bounded, fun _ => rawTargetBytes_lt c inside⟩,
      fun w store => sparing_inside c w inside store⟩

/-- Recordings are given up as they should be, and no closeness of the thresholds takes all of them,
just when the trigger fits in 64 bits and the target is set below it. -/
theorem sparing_iff : (Bounded c ∧ ∀ w store, Sparing c w store ∧ Spared c w store) ↔
    c.rawTriggerGb < 2 ^ 33 ∧ c.rawTargetGb < c.rawTriggerGb := by
  constructor
  · rintro ⟨bounded, each⟩
    obtain ⟨inside, -⟩ := (bounded_iff c).mp ⟨bounded, fun w store => (each w store).1⟩
    refine ⟨inside, ?_⟩
    by_contra above
    obtain ⟨w, wiped⟩ := not_spared_above c inside (not_lt.mp above)
    exact wiped (each w twoRecordings).2
  · rintro ⟨inside, below⟩
    have room : 0 ≤ gbToBytes c.rawTargetGb ∧ gbToBytes c.rawTargetGb < gbToBytes c.rawTriggerGb := by
      rw [gbToBytes_inside inside, gbToBytes_inside (by omega)]
      omega
    obtain ⟨bounded, sparing⟩ := (bounded_iff c).mpr ⟨inside, .inl room⟩
    exact ⟨bounded, fun w store => ⟨sparing w store, spared_below c w inside below store⟩⟩

/-- Trigger and target at 40: three recordings of 1 GiB at 41 GiB in use all go, though the
first one alone would do. -/
def closeConfig : Config := ⟨30, 3, 40, 40, 360, false⟩

def closeStore : Store :=
  ⟨[⟨⟨.raw, ["cam".toList], "a.h264".toList⟩, 1, 1073741824⟩,
    ⟨⟨.raw, ["cam".toList], "b.h264".toList⟩, 2, 1073741824⟩,
    ⟨⟨.raw, ["cam".toList], "c.h264".toList⟩, 3, 1073741824⟩], by decide⟩

def closeWorld : World := ⟨4, 0, fun _ => 41 * 1073741824, fun _ => by decide⟩

theorem close_thresholds_wipe :
    (prune closeConfig closeWorld closeStore.files).files = [] ∧ ¬ Bounded closeConfig ∧
      ¬ Spared closeConfig closeWorld closeStore := by
  refine ⟨by decide +kernel, ?_, fun spared => ?_⟩
  · unfold Bounded
    decide +kernel
  · exact spared (41 * 1073741824) (by decide +kernel) (closeStore.files.take 1) (by decide +kernel)
      (by decide +kernel) (by decide +kernel) (by decide +kernel)

end StreamRelay.Prune
