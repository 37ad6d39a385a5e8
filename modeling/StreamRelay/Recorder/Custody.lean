import StreamRelay.Recorder.Effects

/-! Who is responsible for which file. The entries made for a file are those of an
open segment, held by one stream, or of a finished one; the only other case is a
file whose handle open_segment overwrote. An operation on one stream changes
nothing for the files of the others, nor the names they use. -/
namespace StreamRelay.Recorder

def entriesOf (log : List Entry) (file : Nat) : List Entry :=
  log.filter fun entry => entry.call.file = some file

def Entry.IsWrite (file : Nat) (entry : Entry) : Prop :=
  ∃ part data answer, entry.call = .fwrite file part data answer

/-- Every write reported success. -/
def Intact (entries : List Entry) : Prop :=
  ∀ entry ∈ entries, ∀ file part data answer, entry.call = .fwrite file part data answer →
    answer.ok = true

/-- No write held anything back. -/
def Passed (entries : List Entry) : Prop :=
  ∀ entry ∈ entries, ∀ file part data answer, entry.call = .fwrite file part data answer →
    answer.kept = 0

def Call.written : Call → Bytes
  | .fwrite _ _ data _ => data
  | _ => []

def written (entries : List Entry) : Bytes := entries.flatMap fun entry => entry.call.written

@[simp] theorem written_append (first second : List Entry) :
    written (first ++ second) = written first ++ written second := by
  simp [written]

/-- Opened under a name and written to since. -/
def Unclosed (file : Nat) (tmp : CString) (entries : List Entry) : Prop :=
  ∃ opened writes, entries = ⟨opened, .fopen tmp (some file)⟩ :: writes ∧
    ∀ entry ∈ writes, entry.IsWrite file

variable (cfg : Config)

/-- Opened, written to, closed once, and then renamed to its own final name or unlinked. -/
inductive Settled (file : Nat) (entries : List Entry) : Prop where
  | renamed (segment : Segment) (content : Option Bytes) (closed renamed : Bool) (event : Nat)
      (before : List Entry) (unclosed : Unclosed file segment.tmp before) (intact : Intact before)
      (shape : entries = before ++ [⟨event, .fclose file true closed⟩,
        ⟨event, .rename segment content renamed⟩])
      (own : segment.file = file) (tmp : segment.tmp = segment.final ++ tmpSuffix)
      (supported : codecSupported segment.codec = true)
      (final : segment.final =
        segmentName cfg segment.stream (codecExt segment.codec) segment.startWallMs)
      (whole : closed = true ∨ Passed before → content = some (written before))
  | unlinked (tmp : CString) (closed : Bool) (event : Nat)
      (before : List Entry) (unclosed : Unclosed file tmp before) (broken : ¬ Intact before)
      (shape : entries = before ++ [⟨event, .fclose file false closed⟩, ⟨event, .unlink file tmp⟩])

/-- Settled, or lost to an open_segment that was entered with the file still open. -/
def Done (log : List Entry) (file : Nat) : Prop :=
  Settled cfg file (entriesOf log file) ∨
    (∃ tmp, Unclosed file tmp (entriesOf log file)) ∧ Intact (entriesOf log file) ∧
      ∃ event stream, ⟨event, .openSegment stream (some file)⟩ ∈ log

/-- What a record and the store say of the file the record holds. -/
structure Held (stream : Nat) (c : Ctx) (file : Nat) : Prop where
  streamId : c.s.streamId = stream
  supported : codecSupported c.s.codec = true
  finalPath : c.s.finalPath =
    segmentName cfg stream (codecExt c.s.codec) c.s.segmentStartWallMs
  tmpPath : c.s.tmpPath = c.s.finalPath ++ tmpSuffix
  denoted : c.w.store.dir c.s.tmpPath = some file
  unclosed : Unclosed file c.s.tmpPath (entriesOf c.w.log file)
  contents : Intact (entriesOf c.w.log file) →
    (c.w.store.files file).contents = written (entriesOf c.w.log file)
  flushed : Intact (entriesOf c.w.log file) → Passed (entriesOf c.w.log file) →
    (c.w.store.files file).buffer = []

/-- The context `c` reached from `base` by work on one stream. -/
structure Custody (stream : Nat) (base c : Ctx) : Prop where
  next_le : base.w.store.next ≤ c.w.store.next
  event : c.w.event = base.w.event
  log : ∃ entries, c.w.log = base.w.log ++ entries
  entries_frame : ∀ file, file < base.w.store.next → base.s.fp ≠ some file →
    entriesOf c.w.log file = entriesOf base.w.log file
  files_frame : ∀ file, file < base.w.store.next → base.s.fp ≠ some file →
    c.w.store.files file = base.w.store.files file
  dir_frame : ∀ name, ¬ InDir cfg stream name → c.w.store.dir name = base.w.store.dir name
  fresh : ∀ file, c.w.store.next ≤ file → entriesOf c.w.log file = []
  own : ∀ file, c.s.fp = some file →
    file < c.w.store.next ∧ (base.s.fp = some file ∨ base.w.store.next ≤ file)
  held : ∀ file, c.s.fp = some file → Held cfg stream c file
  done : ∀ file, file < c.w.store.next → (base.s.fp = some file ∨ base.w.store.next ≤ file) →
    c.s.fp ≠ some file → Done cfg c.w.log file

/-- The writes to the held file all succeeded so far. -/
def Sound (c : Ctx) : Prop := ∀ file, c.s.fp = some file → Intact (entriesOf c.w.log file)

section Entries

@[simp] theorem entriesOf_append (first second : List Entry) (file : Nat) :
    entriesOf (first ++ second) file = entriesOf first file ++ entriesOf second file := by
  simp [entriesOf]

theorem intact_append (first second : List Entry) :
    Intact (first ++ second) ↔ Intact first ∧ Intact second := by
  simp only [Intact, List.mem_append, or_imp, forall_and]

theorem passed_append (first second : List Entry) :
    Passed (first ++ second) ↔ Passed first ∧ Passed second := by
  simp only [Passed, List.mem_append, or_imp, forall_and]

/-- Calls on no file leave the entries of every file. -/
theorem entriesOf_quiet (event : Nat) (calls : List Call) (file : Nat)
    (quiet : ∀ call ∈ calls, call.file = none) :
    entriesOf (calls.map (Entry.mk event)) file = [] := by
  simp only [entriesOf, List.filter_eq_nil_iff, List.mem_map, forall_exists_index, and_imp,
    forall_apply_eq_imp_iff₂]
  intro call member
  simp [quiet call member]

theorem Call.IsQuiet.file {call : Call} (quiet : call.IsQuiet) : call.file = none := by
  cases call <;> first | exact quiet | exact quiet.elim

theorem Emits.entries {c c' : Ctx} {calls : List Call} (emits : Emits c calls c') (file : Nat) :
    entriesOf c'.w.log file =
      entriesOf c.w.log file ++ entriesOf (calls.map (Entry.mk c.w.event)) file := by
  rw [emits.log, entriesOf_append]

theorem Soft.entries {c c' : Ctx} (soft : Soft c c') (file : Nat) :
    entriesOf c'.w.log file = entriesOf c.w.log file := by
  obtain ⟨calls, emits, quiet⟩ := soft.calls
  rw [emits.entries, entriesOf_quiet _ _ _ fun call member => (quiet call member).quiet.file,
    List.append_nil]

theorem Soft.log {c c' : Ctx} (soft : Soft c c') : ∃ entries, c'.w.log = c.w.log ++ entries := by
  obtain ⟨calls, emits, _⟩ := soft.calls
  exact ⟨_, emits.log⟩

theorem Soft.event {c c' : Ctx} (soft : Soft c c') : c'.w.event = c.w.event := by
  obtain ⟨_, emits, _⟩ := soft.calls
  exact emits.event

theorem Unclosed.snoc {file : Nat} {tmp : CString} {entries writes : List Entry}
    (unclosed : Unclosed file tmp entries) (more : ∀ entry ∈ writes, entry.IsWrite file) :
    Unclosed file tmp (entries ++ writes) := by
  obtain ⟨opened, before, rfl, sound⟩ := unclosed
  refine ⟨opened, before ++ writes, by simp, ?_⟩
  intro entry member
  rcases List.mem_append.mp member with left | right
  · exact sound entry left
  · exact more entry right

end Entries

theorem Held.congr {stream : Nat} {c c' : Ctx} {file : Nat} (held : Held cfg stream c file)
    (streamId : c'.s.streamId = c.s.streamId) (codec : c'.s.codec = c.s.codec)
    (segment : SameSegment c.s c'.s) (entries : entriesOf c'.w.log file = entriesOf c.w.log file)
    (files : c'.w.store.files file = c.w.store.files file)
    (dir : c'.w.store.dir c.s.tmpPath = c.w.store.dir c.s.tmpPath) : Held cfg stream c' file where
  streamId := streamId.trans held.streamId
  supported := by rw [codec]; exact held.supported
  finalPath := by rw [segment.finalPath, codec, segment.segmentStartWallMs]; exact held.finalPath
  tmpPath := by rw [segment.tmpPath, segment.finalPath]; exact held.tmpPath
  denoted := by rw [segment.tmpPath, dir]; exact held.denoted
  unclosed := by rw [entries, segment.tmpPath]; exact held.unclosed
  contents := by rw [entries, files]; exact held.contents
  flushed := by rw [entries, files]; exact held.flushed

/-- Done files stay done as long as nothing is done to them. -/
theorem Done.later {log log' : List Entry} {file : Nat} (done : Done cfg log file)
    (more : ∃ entries, log' = log ++ entries)
    (same : entriesOf log' file = entriesOf log file) : Done cfg log' file := by
  rcases done with settled | ⟨unclosed, intact, event, stream, member⟩
  · exact .inl (same ▸ settled)
  · obtain ⟨entries, rfl⟩ := more
    exact .inr ⟨same ▸ unclosed, same ▸ intact, event, stream, List.mem_append_left _ member⟩

section Operations

variable {stream : Nat} {base c c' : Ctx}

/-- Operations that touch no file and keep the segment fields. -/
theorem Custody.quiet (custody : Custody cfg stream base c) (store : c'.w.store = c.w.store)
    (event : c'.w.event = c.w.event) (log : ∃ entries, c'.w.log = c.w.log ++ entries)
    (entries : ∀ file, entriesOf c'.w.log file = entriesOf c.w.log file)
    (streamId : c'.s.streamId = c.s.streamId) (codec : c'.s.codec = c.s.codec)
    (segment : SameSegment c.s c'.s) : Custody cfg stream base c' where
  next_le := by rw [store]; exact custody.next_le
  event := event.trans custody.event
  log := by
    obtain ⟨first, same⟩ := custody.log
    obtain ⟨second, more⟩ := log
    exact ⟨first ++ second, by rw [more, same, List.append_assoc]⟩
  entries_frame := fun file old unheld => (entries file).trans (custody.entries_frame file old unheld)
  files_frame := by rw [store]; exact custody.files_frame
  dir_frame := by rw [store]; exact custody.dir_frame
  fresh := by
    intro file new
    rw [store] at new
    exact (entries file).trans (custody.fresh file new)
  own := by rw [segment.fp, store]; exact custody.own
  held := by
    intro file holds
    rw [segment.fp] at holds
    exact (custody.held file holds).congr cfg streamId codec segment (entries file) (by rw [store])
      (by rw [store])
  done := by
    intro file bound touched unheld
    rw [store] at bound
    rw [segment.fp] at unheld
    exact (custody.done file bound touched unheld).later cfg log (entries file)

theorem Custody.soft (custody : Custody cfg stream base c) (soft : Soft c c') :
    Custody cfg stream base c' :=
  custody.quiet cfg soft.store soft.event soft.log soft.entries soft.stream.streamId
    soft.stream.codec soft.segment

/-- Operations on fields that no file depends on. -/
theorem Custody.fields (custody : Custody cfg stream base c) (world : c'.w = c.w)
    (streamId : c'.s.streamId = c.s.streamId) (codec : c'.s.codec = c.s.codec)
    (segment : SameSegment c.s c'.s) : Custody cfg stream base c' :=
  custody.quiet cfg (by rw [world]) (by rw [world]) ⟨[], by rw [world, List.append_nil]⟩
    (fun _ => by rw [world]) streamId codec segment

/-- The files an operation on the held one cannot be about. -/
theorem Custody.apart (custody : Custody cfg stream base c) {file other : Nat}
    (holds : c.s.fp = some file) (old : other < base.w.store.next) (unheld : base.s.fp ≠ some other) :
    other ≠ file := by
  rintro rfl
  rcases (custody.own other holds).2 with before | new
  · exact unheld before
  · omega

theorem entriesOf_single (event : Nat) (call : Call) (file other : Nat)
    (about : call.file = some file) :
    entriesOf [⟨event, call⟩] other = if other = file then [⟨event, call⟩] else [] := by
  by_cases same : other = file
  · simp [entriesOf, about, same]
  · simp [entriesOf, about, same, Ne.symm same]

theorem Custody.fwrite (custody : Custody cfg stream base c) (file : Nat)
    (holds : c.s.fp = some file) (write : Write) :
    Custody cfg stream base (c.fwrite file write) := by
  have entries (other : Nat) : entriesOf (c.fwrite file write).w.log other =
      entriesOf c.w.log other ++ if other = file then
        [⟨c.w.event, .fwrite file write.part write.data write.answer⟩] else [] := by
    rw [← entriesOf_single c.w.event _ file other rfl, ← entriesOf_append]
    rfl
  have elsewhere (other : Nat) (apart : other ≠ file) :
      entriesOf (c.fwrite file write).w.log other = entriesOf c.w.log other := by
    rw [entries, if_neg apart, List.append_nil]
  have more : ∃ entries, (c.fwrite file write).w.log = c.w.log ++ entries := ⟨_, rfl⟩
  have was := custody.held file holds
  refine ⟨custody.next_le, custody.event, ?_, ?_, ?_, custody.dir_frame, ?_, custody.own, ?_, ?_⟩
  · obtain ⟨before, same⟩ := custody.log
    exact ⟨before ++ [⟨c.w.event, .fwrite file write.part write.data write.answer⟩], by
      rw [← List.append_assoc, ← same]; rfl⟩
  · intro other old unheld
    rw [elsewhere other (custody.apart cfg holds old unheld)]
    exact custody.entries_frame other old unheld
  · intro other old unheld
    refine Eq.trans ?_ (custody.files_frame other old unheld)
    exact Stdio.Store.write_file_other _ _ _ _ _ (custody.apart cfg holds old unheld)
  · intro other new
    have bound := (custody.own file holds).1
    rw [elsewhere other (by rintro rfl; exact Nat.not_le.mpr bound new)]
    exact custody.fresh other new
  · intro other held
    obtain rfl : other = file := Option.some.inj (held.symm.trans holds)
    have own := entries other
    rw [if_pos rfl] at own
    have after : (c.fwrite other write).w.store.files other =
        (c.w.store.files other).write write.data write.answer := Stdio.Store.write_file_self ..
    refine ⟨was.streamId, was.supported, was.finalPath, was.tmpPath, was.denoted, ?_, ?_, ?_⟩
    · rw [own]
      exact was.unclosed.snoc (by simp [Entry.IsWrite])
    · rw [own, intact_append]
      rintro ⟨before, last⟩
      have ok : write.answer.ok = true := last _ (List.mem_singleton_self _) _ _ _ _ rfl
      rw [after, Stdio.File.contents_write _ _ _ ok, was.contents before]
      simp [written, Call.written]
    · rw [own, intact_append, passed_append]
      rintro ⟨before, last⟩ ⟨-, passed⟩
      have ok : write.answer.ok = true := last _ (List.mem_singleton_self _) _ _ _ _ rfl
      have kept : write.answer.kept = 0 := passed _ (List.mem_singleton_self _) _ _ _ _ rfl
      rw [after]
      exact Stdio.File.write_flushed _ _ _ (fun _ => kept) ok
  · intro other bound touched unheld
    have apart : other ≠ file := by
      rintro rfl
      exact unheld holds
    exact (custody.done other bound touched unheld).later cfg more (elsewhere other apart)

theorem Custody.fwrites (custody : Custody cfg stream base c) (file : Nat)
    (holds : c.s.fp = some file) (writes : List Write) :
    Custody cfg stream base (c.fwrites file writes) := by
  induction writes generalizing c with
  | nil => exact custody
  | cons write writes ih => exact ih (custody.fwrite cfg file holds write) holds

theorem Sound.fwrites (sound : Sound c) (file : Nat) (holds : c.s.fp = some file)
    (writes : List Write) (allOk : ∀ w ∈ writes, w.answer.ok = true) :
    Sound (c.fwrites file writes) := by
  intro other held
  have frame := fwrites_frame file c writes
  rw [frame.2.1, holds] at held
  obtain rfl := Option.some.inj held
  rw [(fwrites_emits file c writes).entries, intact_append]
  refine ⟨sound file holds, ?_⟩
  rintro entry member target part data answer same
  have inside : entry ∈ (writes.map fun w => Call.fwrite file w.part w.data w.answer).map
      (Entry.mk c.w.event) := List.mem_of_mem_filter member
  simp only [List.map_map, List.mem_map, Function.comp] at inside
  obtain ⟨w, listed, rfl⟩ := inside
  obtain ⟨rfl, rfl, rfl, rfl⟩ := Call.fwrite.inj same
  exact allOk w listed

/-- A failed write is what a discarded segment has on record. -/
theorem fwrites_broken (file : Nat) (writes : List Write) (fails : FailsLast writes) :
    ¬ Intact (entriesOf (c.fwrites file writes).w.log file) := by
  obtain ⟨before, last, rfl, -, bad⟩ := fails
  intro intact
  have member : ⟨c.w.event, .fwrite file last.part last.data last.answer⟩ ∈
      entriesOf (c.fwrites file (before ++ [last])).w.log file := by
    refine List.mem_filter.mpr ⟨?_, by simp [Call.file]⟩
    rw [(fwrites_emits file c (before ++ [last])).log]
    simp
  have ok := intact _ member _ _ _ _ rfl
  rw [bad] at ok
  cases ok

theorem Sound.soft (sound : Sound c) (soft : Soft c c') : Sound c' := by
  intro file holds
  rw [soft.segment.fp] at holds
  rw [soft.entries]
  exact sound file holds

theorem Sound.of_none (idle : c'.s.fp = none) : Sound c' := by
  intro file holds
  rw [idle] at holds
  cases holds

/-- Giving up what is held, which is done from then on. -/
theorem Custody.release (custody : Custody cfg stream base c) (idle : c'.s.fp = none)
    (next : c'.w.store.next = c.w.store.next) (event : c'.w.event = c.w.event)
    (log : ∃ entries, c'.w.log = c.w.log ++ entries)
    (entries : ∀ other, c.s.fp ≠ some other → entriesOf c'.w.log other = entriesOf c.w.log other)
    (files : ∀ other, c.s.fp ≠ some other → c'.w.store.files other = c.w.store.files other)
    (dir : ∀ name, ¬ InDir cfg stream name → c'.w.store.dir name = c.w.store.dir name)
    (done : ∀ file, c.s.fp = some file → Done cfg c'.w.log file) :
    Custody cfg stream base c' := by
  have untouched (other : Nat) (old : other < base.w.store.next) (unheld : base.s.fp ≠ some other) :
      c.s.fp ≠ some other := fun holds => custody.apart cfg holds old unheld rfl
  refine ⟨by rw [next]; exact custody.next_le, event.trans custody.event, ?_, ?_, ?_, ?_, ?_, ?_, ?_, ?_⟩
  · obtain ⟨first, same⟩ := custody.log
    obtain ⟨second, more⟩ := log
    exact ⟨first ++ second, by rw [more, same, List.append_assoc]⟩
  · intro other old unheld
    rw [entries other (untouched other old unheld)]
    exact custody.entries_frame other old unheld
  · intro other old unheld
    rw [files other (untouched other old unheld)]
    exact custody.files_frame other old unheld
  · intro name outside
    rw [dir name outside]
    exact custody.dir_frame name outside
  · intro other new
    rw [next] at new
    rw [entries other fun holds => by have := (custody.own other holds).1; omega]
    exact custody.fresh other new
  · intro other held
    rw [idle] at held
    cases held
  · intro other held
    rw [idle] at held
    cases held
  · intro other bound touched _
    rw [next] at bound
    by_cases holds : c.s.fp = some other
    · exact done other holds
    · exact (custody.done other bound touched holds).later cfg log (entries other holds)

theorem Held.paths {file : Nat} (held : Held cfg stream c file) :
    c.s.tmpPath ≠ [] ∧ c.s.finalPath ≠ [] ∧ InDir cfg stream c.s.tmpPath ∧
      InDir cfg stream c.s.finalPath := by
  have final := segmentName_ne_nil cfg stream (codecExt c.s.codec) c.s.segmentStartWallMs
  rw [held.tmpPath, held.finalPath]
  exact ⟨by simp [final], final, inDir_tmp .., inDir_final ..⟩

/-- The bytes the temporary name denotes once its file is closed. -/
theorem Held.closed_bytes {file : Nat} (held : Held cfg stream c file) (sound : Sound c)
    (holds : c.s.fp = some file) (answer : Stdio.Answer) :
    answer.ok = true ∨ Passed (entriesOf c.w.log file) →
      (c.w.store.close file answer).bytes c.s.tmpPath = some (written (entriesOf c.w.log file)) := by
  intro whole
  have intact := sound file holds
  have disk : ((c.w.store.files file).close answer).disk = (c.w.store.files file).contents := by
    rcases whole with ok | passed
    · exact Stdio.File.disk_close _ _ ok
    · exact Stdio.File.disk_close_flushed _ _ (held.flushed intact passed)
  rw [Stdio.Store.bytes, Stdio.Store.close_dir, held.denoted, Option.map_some,
    Stdio.Store.close_file_self, disk, held.contents intact]

theorem entriesOf_pair (event : Nat) (first second : Call) (rest : List Call) (file other : Nat)
    (one : first.file = some file) (two : second.file = some file)
    (quiet : ∀ call ∈ rest, call.file = none) :
    entriesOf ((first :: second :: rest).map (Entry.mk event)) other =
      if other = file then [⟨event, first⟩, ⟨event, second⟩] else [] := by
  have split : (first :: second :: rest).map (Entry.mk event) =
      [⟨event, first⟩] ++ ([⟨event, second⟩] ++ rest.map (Entry.mk event)) := rfl
  rw [split, entriesOf_append, entriesOf_append, entriesOf_single _ _ _ _ one,
    entriesOf_single _ _ _ _ two, entriesOf_quiet _ _ _ quiet]
  split <;> rfl

theorem Custody.finalized (custody : Custody cfg stream base c) (sound : Sound c)
    (answers : CloseAnswers) (file : Nat) (renamed : Bool) (holds : c.s.fp = some file)
    (finalized : Finalized answers file renamed c c') : Custody cfg stream base c' := by
  have held := custody.held file holds
  obtain ⟨-, -, tmpIn, finalIn⟩ := held.paths cfg
  obtain ⟨rest, soft, emits⟩ := finalized.calls
  have entries (other : Nat) := (emits.entries other).trans (congrArg (entriesOf c.w.log other ++ ·)
    (entriesOf_pair _ _ _ rest file other rfl rfl fun call member => (soft call member).quiet.file))
  have apart (other : Nat) (unheld : c.s.fp ≠ some other) : other ≠ file :=
    fun same => unheld (same ▸ holds)
  refine custody.release cfg finalized.fp ?_ emits.event ⟨_, emits.log⟩ ?_ ?_ ?_ ?_
  · rw [finalized.store]
    split <;> rfl
  · intro other unheld
    rw [entries, if_neg (apart other unheld), List.append_nil]
  · intro other unheld
    rw [finalized.store]
    split <;> exact Stdio.Store.close_file_other _ _ _ _ (apart other unheld)
  · intro name outside
    rw [finalized.store]
    split
    · exact Stdio.Store.rename_dir_other _ _ _ _ (fun same => outside (same ▸ tmpIn))
        (fun same => outside (same ▸ finalIn))
    · rfl
  · intro other held'
    obtain rfl : other = file := Option.some.inj (held'.symm.trans holds)
    left
    have own := entries other
    rw [if_pos rfl] at own
    exact .renamed (c.s.segment other) _ _ _ _ _ held.unclosed (sound other holds) own rfl held.tmpPath
      held.supported (by rw [← held.streamId] at held; exact held.finalPath)
      (held.closed_bytes cfg sound holds answers.fclose)

theorem Custody.discarded (custody : Custody cfg stream base c) (answers : CloseAnswers)
    (file : Nat) (holds : c.s.fp = some file) (broken : ¬ Intact (entriesOf c.w.log file))
    (discarded : Discarded answers file c c') :
    Custody cfg stream base c' := by
  have held := custody.held file holds
  obtain ⟨-, -, tmpIn, -⟩ := held.paths cfg
  have entries (other : Nat) := (discarded.calls.entries other).trans
    (congrArg (entriesOf c.w.log other ++ ·)
      (entriesOf_pair _ _ _ [] file other rfl rfl (by simp)))
  have apart (other : Nat) (unheld : c.s.fp ≠ some other) : other ≠ file :=
    fun same => unheld (same ▸ holds)
  refine custody.release cfg discarded.fp ?_ discarded.calls.event ⟨_, discarded.calls.log⟩ ?_ ?_ ?_ ?_
  · rw [discarded.store]
    split <;> rfl
  · intro other unheld
    rw [entries, if_neg (apart other unheld), List.append_nil]
  · intro other unheld
    rw [discarded.store]
    split <;> exact Stdio.Store.close_file_other _ _ _ _ (apart other unheld)
  · intro name outside
    rw [discarded.store]
    split
    · exact Stdio.Store.unlink_dir_other _ _ _ (fun same => outside (same ▸ tmpIn))
    · rfl
  · intro other held'
    obtain rfl : other = file := Option.some.inj (held'.symm.trans holds)
    left
    have own := entries other
    rw [if_pos rfl] at own
    exact .unlinked _ _ _ _ held.unclosed broken own

/-- A held file that open_segment forgets. -/
theorem Custody.lost (custody : Custody cfg stream base c) (sound : Sound c) (log : List Entry) (file event : Nat)
    (holds : c.s.fp = some file) (same : entriesOf log file = entriesOf c.w.log file)
    (marker : ⟨event, .openSegment c.s.streamId c.s.fp⟩ ∈ log) : Done cfg log file := by
  rw [holds] at marker
  exact .inr ⟨⟨_, same ▸ (custody.held file holds).unclosed⟩, same ▸ sound file holds, event, c.s.streamId, marker⟩

theorem Custody.openFailed (custody : Custody cfg stream base c) (sound : Sound c) (failed : OpenFailed c c') :
    Custody cfg stream base c' := by
  obtain ⟨quiet, allQuiet, emits⟩ := failed.calls
  have entries (other : Nat) : entriesOf c'.w.log other = entriesOf c.w.log other := by
    rw [emits.entries, entriesOf_quiet, List.append_nil]
    intro call member
    rcases List.mem_cons.mp member with rfl | member
    · rfl
    · exact (allQuiet call member).file
  have log : ∃ entries, c'.w.log = c.w.log ++ entries := ⟨_, emits.log⟩
  rcases failed.segment with kept | idle
  · exact custody.quiet cfg failed.store emits.event log entries failed.stream.streamId
      failed.stream.codec kept
  refine custody.release cfg idle (by rw [failed.store]) emits.event log (fun other _ => entries other)
    (fun other _ => by rw [failed.store]) (fun name _ => by rw [failed.store]) ?_
  intro file holds
  refine custody.lost cfg sound _ file c.w.event holds (entries file) ?_
  rw [emits.log]
  simp

theorem Opened.entries {wallMs : UInt64} (opened : Opened cfg wallMs c c') (other : Nat) :
    entriesOf c'.w.log other = entriesOf c.w.log other ++
      if other = c.w.store.next then [⟨c.w.event, .fopen c'.s.tmpPath (some c.w.store.next)⟩]
      else [] := by
  obtain ⟨quiet, allQuiet, emits⟩ := opened.calls
  have before : entriesOf ((Call.openSegment c.s.streamId c.s.fp :: quiet).map
      (Entry.mk c.w.event)) other = [] := by
    refine entriesOf_quiet _ _ _ ?_
    intro call member
    rcases List.mem_cons.mp member with rfl | member
    · rfl
    · exact (allQuiet call member).file
  rw [emits.entries, List.map_append, entriesOf_append, before, List.nil_append, List.map_singleton,
    entriesOf_single _ _ _ _ rfl]

theorem Custody.opened (custody : Custody cfg stream base c) (sound : Sound c) (streamId : c.s.streamId = stream)
    (supported : codecSupported c.s.codec = true) {wallMs : UInt64}
    (opened : Opened cfg wallMs c c') : Custody cfg stream base c' ∧ Sound c' := by
  obtain ⟨quiet, -, emits⟩ := opened.calls
  have entries := opened.entries cfg
  have elsewhere (other : Nat) (apart : other ≠ c.w.store.next) :
      entriesOf c'.w.log other = entriesOf c.w.log other := by
    rw [entries, if_neg apart, List.append_nil]
  have own : entriesOf c'.w.log c.w.store.next =
      [⟨c.w.event, .fopen c'.s.tmpPath (some c.w.store.next)⟩] := by
    rw [entries, if_pos rfl, custody.fresh _ (Nat.le_refl _), List.nil_append]
  have intact : Intact (entriesOf c'.w.log c.w.store.next) := by
    rw [own]
    intro entry member file part data answer same
    obtain rfl := List.mem_singleton.mp member
    cases same
  have log : ∃ entries, c'.w.log = c.w.log ++ entries := ⟨_, emits.log⟩
  have next : c'.w.store.next = c.w.store.next + 1 := by
    rw [opened.store, Stdio.Store.create_next]
  have empty : c'.w.store.files c.w.store.next = .empty := by
    rw [opened.store, Stdio.Store.create_file_self]
  have final : c'.s.finalPath =
      segmentName cfg stream (codecExt c'.s.codec) c'.s.segmentStartWallMs := by
    rw [opened.finalPath, opened.stream.codec, opened.segmentStartWallMs, streamId]
  constructor
  · have := custody.next_le
    refine ⟨by omega, emits.event.trans custody.event, ?_, ?_, ?_, ?_, ?_, ?_, ?_, ?_⟩
    · obtain ⟨first, same⟩ := custody.log
      obtain ⟨second, more⟩ := log
      exact ⟨first ++ second, by rw [more, same, List.append_assoc]⟩
    · intro other old unheld
      rw [elsewhere other (by omega)]
      exact custody.entries_frame other old unheld
    · intro other old unheld
      rw [opened.store, Stdio.Store.create_file_other _ _ _ (by omega)]
      exact custody.files_frame other old unheld
    · intro name outside
      have inside : InDir cfg stream c'.s.tmpPath := by
        rw [opened.tmpPath, final]
        exact inDir_tmp ..
      have apart : name ≠ c'.s.tmpPath := by
        rintro rfl
        exact outside inside
      rw [opened.store, Stdio.Store.create_dir_other _ _ _ apart]
      exact custody.dir_frame name outside
    · intro other new
      rw [elsewhere other (by omega)]
      exact custody.fresh other (by omega)
    · intro other holds
      obtain rfl := Option.some.inj (opened.fp.symm.trans holds)
      exact ⟨by omega, .inr custody.next_le⟩
    · intro other holds
      obtain rfl := Option.some.inj (opened.fp.symm.trans holds)
      refine ⟨opened.stream.streamId.trans streamId, by rw [opened.stream.codec]; exact supported,
        final, opened.tmpPath, by rw [opened.store, Stdio.Store.create_dir_self], ?_, ?_, ?_⟩
      · rw [own]
        exact ⟨_, [], rfl, by simp⟩
      · rw [empty, own]
        exact fun _ => rfl
      · rw [empty]
        exact fun _ _ => rfl
    · intro other bound touched unheld
      have apart : other ≠ c.w.store.next := by
        rintro rfl
        exact unheld opened.fp
      by_cases holds : c.s.fp = some other
      · refine custody.lost cfg sound _ other c.w.event holds (elsewhere other apart) ?_
        rw [emits.log]
        simp
      · exact (custody.done other (by omega) touched holds).later cfg log (elsewhere other apart)
  · intro other holds
    obtain rfl := Option.some.inj (opened.fp.symm.trans holds)
    exact intact

end Operations

section Events

variable {stream : Nat} {base c : Ctx}

/-- The identity a record needs before a segment may be opened for it. -/
structure Armed (stream : Nat) (s : RecorderStream) : Prop where
  streamId : s.streamId = stream
  ext : s.ext = codecExt s.codec
  supported : codecSupported s.codec = true

theorem Armed.same {s s' : RecorderStream} (armed : Armed stream s) (same : SameStream s s') :
    Armed stream s' :=
  ⟨same.streamId.trans armed.streamId, by rw [same.ext, same.codec, armed.ext],
    by rw [same.codec]; exact armed.supported⟩

/-- Work on one stream: the files are in order and the stream's identity is kept. -/
structure Work (stream : Nat) (base c c' : Ctx) : Prop where
  custody : Custody cfg stream base c'
  sound : Sound c'
  same : SameStream c.s c'.s

theorem Work.soft {c' c'' : Ctx} (work : Work cfg stream base c c') (soft : Soft c' c'') :
    Work cfg stream base c c'' :=
  ⟨work.custody.soft cfg soft, work.sound.soft soft, work.same.trans soft.stream⟩

theorem Work.after {c' c'' : Ctx} (work : Work cfg stream base c' c'')
    (same : SameStream c.s c'.s) : Work cfg stream base c c'' :=
  ⟨work.custody, work.sound, same.trans work.same⟩

theorem Custody.replace (custody : Custody cfg stream base c) {c' : Ctx} (was : c.s.fp = none)
    (idle : c'.s.fp = none) (world : c'.w = c.w) : Custody cfg stream base c' := by
  refine custody.release cfg idle (by rw [world]) (by rw [world])
    ⟨[], by rw [world, List.append_nil]⟩ (fun _ _ => by rw [world]) (fun _ _ => by rw [world])
    (fun _ _ => by rw [world]) ?_
  intro file holds
  rw [was] at holds
  cases holds

/-- A finalizing close leaves nothing held. -/
theorem closeSegment_work (custody : Custody cfg stream base c) (sound : Sound c)
    (answers : CloseAnswers) :
    Work cfg stream base c (closeSegment cfg answers true c).1 ∧
      (closeSegment cfg answers true c).1.s.fp = none := by
  cases holds : c.s.fp with
  | none =>
    rw [closeSegment_none cfg answers true c holds]
    exact ⟨⟨custody, sound, .refl _⟩, holds⟩
  | some file =>
    obtain ⟨tmp, final, -, -⟩ := (custody.held file holds).paths cfg
    obtain ⟨renamed, finalized⟩ := closeSegment_finalize cfg answers c file holds tmp final
    exact ⟨⟨custody.finalized cfg sound answers file renamed holds finalized, .of_none finalized.fp,
      finalized.stream⟩, finalized.fp⟩

theorem discardSegment_work (custody : Custody cfg stream base c) (answers : Answers)
    (file : Nat) (holds : c.s.fp = some file) (broken : ¬ Intact (entriesOf c.w.log file)) :
    Work cfg stream base c (discardSegment cfg answers c) ∧
      (discardSegment cfg answers c).s.fp = none := by
  obtain ⟨tmp, -⟩ := (custody.held file holds).paths cfg
  have discarded := closeSegment_discard cfg answers.discard c file holds tmp
  have same := discarded.stream
  exact ⟨⟨(custody.discarded cfg answers.discard file holds broken discarded).fields cfg rfl rfl rfl
    ⟨rfl, rfl, rfl, rfl⟩, .of_none discarded.fp,
    ⟨same.1, same.2, same.3, same.4, same.5, same.6⟩⟩, discarded.fp⟩

theorem fwrites_work (custody : Custody cfg stream base c) (file : Nat) (holds : c.s.fp = some file)
    (writes : List Write) :
    Custody cfg stream base (c.fwrites file writes) ∧ (c.fwrites file writes).s.fp = some file ∧
      SameStream c.s (c.fwrites file writes).s := by
  have frame := (fwrites_frame file c writes).2.1
  exact ⟨custody.fwrites cfg file holds writes, by rw [frame, holds], by rw [frame]; exact .refl _⟩

/-- The writes of a fresh segment, or its removal. -/
theorem beginSegment_work (custody : Custody cfg stream base c) (sound : Sound c)
    (ev : RecorderEvent) (answers : Answers) (file : Nat) (holds : c.s.fp = some file)
    (nonempty : ev.data ≠ []) : Work cfg stream base c (beginSegment cfg ev answers c) := by
  obtain ⟨writes, -, result⟩ := beginSegment_cases cfg ev answers c file holds nonempty
  obtain ⟨wrote, fp, same⟩ := fwrites_work cfg custody file holds writes
  rcases result with ⟨allOk, -, soft⟩ | ⟨d, result, broken⟩
  · exact Work.soft cfg ⟨wrote, sound.fwrites file holds writes allOk, same⟩ soft
  · rw [result]
    rcases broken with ⟨fails, soft⟩ | ⟨fails, -, soft⟩
    · have noted : Custody cfg stream base (c.fwrites file writes).noteWriteError :=
        wrote.fields cfg rfl rfl rfl (.refl _)
      exact (discardSegment_work cfg (noted.soft cfg soft) answers file (soft.segment.fp.trans fp)
        (by rw [soft.entries]; exact fwrites_broken file writes fails)).1.after cfg
          (same.trans soft.stream)
    · exact (discardSegment_work cfg (wrote.soft cfg soft) answers file (soft.segment.fp.trans fp)
        (by rw [soft.entries]; exact fwrites_broken file writes fails)).1.after cfg
          (same.trans soft.stream)

theorem openFailed_work (custody : Custody cfg stream base c) (sound : Sound c) {c' : Ctx}
    (failed : OpenFailed c c') : Work cfg stream base c c' := by
  refine ⟨custody.openFailed cfg sound failed, ?_, failed.stream⟩
  rcases failed.segment with kept | idle
  · obtain ⟨quiet, allQuiet, emits⟩ := failed.calls
    intro file holds
    rw [kept.fp] at holds
    rw [emits.entries, entriesOf_quiet, List.append_nil]
    · exact sound file holds
    · intro call member
      rcases List.mem_cons.mp member with rfl | member
      · rfl
      · exact (allQuiet call member).file
  · exact .of_none idle

/-- open_segment and, when it succeeds, the first writes. -/
theorem openBegin_work (custody : Custody cfg stream base c) (sound : Sound c)
    (armed : Armed stream c.s) (valid : stream ≤ maxStreamsLimit) (ev : RecorderEvent)
    (answers : Answers) (nonempty : ev.data ≠ []) :
    ((openSegment cfg answers.open_ ev.wallMs ev.monoNs c).2 = false ∧
        Work cfg stream base c (openSegment cfg answers.open_ ev.wallMs ev.monoNs c).1) ∨
      ((openSegment cfg answers.open_ ev.wallMs ev.monoNs c).2 = true ∧
        Work cfg stream base c (beginSegment cfg ev answers
          (openSegment cfg answers.open_ ev.wallMs ev.monoNs c).1)) := by
  rcases openSegment_cases cfg answers.open_ ev.wallMs ev.monoNs c armed.ext
    (armed.streamId ▸ valid) with ⟨result, failed⟩ | ⟨result, opened⟩
  · exact .inl ⟨result, openFailed_work cfg custody sound failed⟩
  · obtain ⟨fresh, intact⟩ := custody.opened cfg sound armed.streamId armed.supported opened
    exact .inr ⟨result, (beginSegment_work cfg fresh intact ev answers _ opened.fp nonempty).after cfg
      opened.stream⟩

theorem videoBegin_work (custody : Custody cfg stream base c) (sound : Sound c)
    (armed : Armed stream c.s) (valid : stream ≤ maxStreamsLimit) (ev : RecorderEvent)
    (answers : Answers) (nonempty : ev.data ≠ []) :
    Work cfg stream base c (videoBegin cfg ev answers c) := by
  rcases openBegin_work cfg custody sound armed valid ev answers nonempty with
    ⟨result, work⟩ | ⟨result, work⟩
  · simpa only [videoBegin, result, Bool.false_eq_true, if_false] using work
  · simpa only [videoBegin, result, if_true] using work

theorem videoRollover_work (custody : Custody cfg stream base c) (sound : Sound c)
    (armed : Armed stream c.s) (valid : stream ≤ maxStreamsLimit) (ev : RecorderEvent)
    (answers : Answers) (nonempty : ev.data ≠ []) :
    Work cfg stream base c (videoRollover cfg ev answers c) := by
  obtain ⟨closed, -⟩ := closeSegment_work cfg custody sound answers.finish
  rcases openBegin_work cfg closed.custody closed.sound (armed.same closed.same) valid ev answers
    nonempty with ⟨result, work⟩ | ⟨result, work⟩
  · simp only [videoRollover, result, Bool.false_eq_true, if_false]
    have whole := work.after cfg closed.same
    have same := whole.same
    exact ⟨whole.custody.fields cfg rfl rfl rfl ⟨rfl, rfl, rfl, rfl⟩, whole.sound,
      ⟨same.1, same.2, same.3, same.4, same.5, same.6⟩⟩
  · simpa only [videoRollover, result, if_true] using work.after cfg closed.same

theorem videoAppend_work (custody : Custody cfg stream base c) (sound : Sound c)
    (ev : RecorderEvent) (answers : Answers) (nonempty : ev.data ≠ []) :
    Work cfg stream base c (videoAppend cfg ev answers c) := by
  unfold videoAppend
  cases holds : c.s.fp with
  | none => exact ⟨custody, sound, .refl _⟩
  | some file =>
    obtain ⟨writes, -, result⟩ :=
      writeSegmentPacket_cases cfg answers.write ev.data c file holds nonempty
    obtain ⟨wrote, fp, same⟩ := fwrites_work cfg custody file holds writes
    rcases result with ⟨result, allOk, -, soft⟩ | ⟨result, fails, soft⟩
    · simp only [reduceCtorEq, if_false, result, if_true]
      exact Work.soft cfg ⟨wrote, sound.fwrites file holds writes allOk, same⟩ soft
    · simp only [reduceCtorEq, if_false, result, Bool.false_eq_true]
      have noted : Custody cfg stream base (c.fwrites file writes).noteWriteError :=
        wrote.fields cfg rfl rfl rfl (.refl _)
      exact ((discardSegment_work cfg (noted.soft cfg soft) answers file (soft.segment.fp.trans fp)
        (by rw [soft.entries]; exact fwrites_broken file writes fails)).1.after cfg
          (same.trans soft.stream)).soft cfg (requestIdr_soft cfg _ _ _ _)

theorem analyze_segment (c : Ctx) (ev : RecorderEvent) (answers : Answers) :
    (c.analyze ev answers).s = {c.s with params := (c.analyze ev answers).s.params} := by
  simp only [Ctx.analyze]
  rw [analyzePayload_eq]

theorem takesVideo_iff (s : RecorderStream) (ev : RecorderEvent) :
    takesVideo s ev = true ↔
      ev.data ≠ [] ∧ s.active = true ∧ s.enabled = true ∧ codecSupported s.codec = true := by
  simp [takesVideo, and_assoc]

/-- process_video on a record that is armed when it is active: the identity
fields other than the parameter sets are kept. -/
theorem processVideo_work (custody : Custody cfg stream base c) (sound : Sound c)
    (ev : RecorderEvent) (armed : takesVideo c.s ev = true → Armed stream c.s)
    (valid : stream ≤ maxStreamsLimit) (answers : Answers) :
    takesVideo c.s ev = true ∧
        Work cfg stream base (c.analyze ev answers) (processVideo cfg ev answers c) ∨
      takesVideo c.s ev = false ∧ processVideo cfg ev answers c = c := by
  have analyzed := analyze_segment c ev answers
  have first : Work cfg stream base (c.analyze ev answers) (c.analyze ev answers) := by
    refine ⟨custody.fields cfg rfl (by rw [analyzed]) (by rw [analyzed])
      ⟨by rw [analyzed], by rw [analyzed], by rw [analyzed], by rw [analyzed]⟩, ?_, .refl _⟩
    intro file holds
    rw [analyzed] at holds
    exact sound file holds
  have rearmed : takesVideo c.s ev = true → Armed stream (c.analyze ev answers).s := by
    intro taken
    have was := armed taken
    exact ⟨by rw [analyzed]; exact was.1, by rw [analyzed]; exact was.2, by rw [analyzed]; exact was.3⟩
  rcases processVideo_cases cfg ev answers c with ⟨untaken, same⟩ |
    ⟨taken, -, d, before, after⟩ | ⟨taken, -, soft⟩ | ⟨taken, -, -, -, -, d, soft, same⟩ |
    ⟨taken, -, -, -, -, d, soft, same⟩ | ⟨taken, -, -, d, soft, same⟩
  · exact .inr ⟨untaken, same⟩
  · have reached := first.soft cfg before
    have skipped : Work cfg stream base (c.analyze ev answers) d.awaitKeyframe :=
      ⟨reached.custody.fields cfg rfl rfl rfl ⟨rfl, rfl, rfl, rfl⟩, reached.sound,
        ⟨reached.same.1, reached.same.2, reached.same.3, reached.same.4, reached.same.5,
          reached.same.6⟩⟩
    exact .inl ⟨taken, skipped.soft cfg after⟩
  · exact .inl ⟨taken, first.soft cfg soft⟩
  all_goals
    have nonempty := ((takesVideo_iff _ _).mp taken).1
    have reached := first.soft cfg soft
    have ready := (rearmed taken).same soft.stream
    rw [same]
  · exact .inl ⟨taken, (videoBegin_work cfg reached.custody reached.sound ready valid ev answers
      nonempty).after cfg soft.stream⟩
  · exact .inl ⟨taken, (videoRollover_work cfg reached.custody reached.sound ready valid ev answers
      nonempty).after cfg soft.stream⟩
  · exact .inl ⟨taken, (videoAppend_work cfg reached.custody reached.sound ev answers nonempty).after
      cfg soft.stream⟩

end Events

end StreamRelay.Recorder
