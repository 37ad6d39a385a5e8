import StreamRelay.Recorder.Ledger

/-! Publication of segments. A write that fails discards its segment and is
counted, and a failed rename is. The result of the close before a rename goes
unread, and a parameter set that cannot be written is discarded uncounted. -/
namespace StreamRelay.Recorder

variable (cfg : Config)

section Counters

/-- The counters agree with the calls made so far. -/
structure Counted (m : Machine) : Prop where
  errors : m.w.log.countP (·.call.isCounted) ≤ m.r.writeErrors
  closed : m.r.segmentsClosed = m.w.log.countP (·.call.isPublished)

theorem Counted.more {m m' : Machine} (counted : Counted m) (calls : List Call)
    (log : m'.w.log = m.w.log ++ calls.map (Entry.mk m.w.event))
    (errors : m.r.writeErrors + calls.countP Call.isCounted ≤ m'.r.writeErrors)
    (closed : m'.r.segmentsClosed = m.r.segmentsClosed + calls.countP Call.isPublished) :
    Counted m' := by
  have split (p : Call → Bool) : m'.w.log.countP (fun entry => p entry.call) =
      m.w.log.countP (fun entry => p entry.call) + calls.countP p := by
    rw [log, List.countP_append, List.countP_map]
    rfl
  have before := counted.errors
  refine ⟨?_, ?_⟩
  · rw [split Call.isCounted]
    omega
  · rw [split Call.isPublished, closed, counted.closed]

theorem Reached.counted {mounts : List MntEnt} {nowNs : UInt64} {inputs : List Input} {m : Machine}
    (reached : Reached cfg mounts nowNs inputs m) : Counted m := by
  have running (inputs : List Input) :
      Ledger cfg (run cfg mounts nowNs inputs) ∧ Counted (run cfg mounts nowNs inputs) := by
    refine Run.invariant _ _ (fun m => Ledger cfg m ∧ Counted m)
      ⟨ledger_start cfg mounts nowNs, Nat.le_refl _, rfl⟩ ?_ inputs
    rintro m input ⟨ledger, counted⟩
    obtain ⟨calls, log, -, -, -, errors, closed⟩ := step_emits cfg ledger input
      (admits_all cfg _ _) (fun _ _ _ _ => trivial) (fun _ => trivial)
    exact ⟨ledger_step cfg m input ledger, counted.more calls log errors closed⟩
  rcases reached with rfl | ⟨answers, rfl⟩
  · exact (running inputs).2
  · obtain ⟨calls, log, -, errors, closed⟩ := closeStreams_emits cfg
      (P := fun _ => True) ⟨fun _ _ => trivial, fun _ _ => trivial⟩ answers
      (List.range' 1 cfg.maxStreams) (run cfg mounts nowNs inputs)
    exact (running inputs).2.more calls log errors closed

end Counters

def Call.failed : Call → Bool
  | .fwrite _ _ _ answer => !answer.ok
  | .fclose _ _ ok => !ok
  | .rename _ _ ok => !ok
  | _ => false

/-- The files of which some write, close or rename failed. -/
def failedFiles (m : Machine) : List Nat :=
  (List.range m.w.store.next).filter fun file =>
    (entriesOf m.w.log file).any fun entry => entry.call.failed

/-- The failures the source does not propagate: of the close that finalizes a
segment, and of the write of a parameter set. -/
def Call.failsUnread : Call → Bool
  | .fclose _ finalize ok => finalize && !ok
  | .fwrite _ part _ answer => part = .params && !answer.ok
  | _ => false

/-- A segment has its final name only if everything done to it succeeded, and then
with everything written to it; the others are counted as errors. -/
structure Published (m : Machine) : Prop where
  whole : ∀ entry ∈ m.w.log, ∀ segment content, entry.call = .rename segment content true →
    (∀ other ∈ entriesOf m.w.log segment.file, other.call.failed = false) ∧
      content = some (written (entriesOf m.w.log segment.file))
  closed : m.r.segmentsClosed = m.w.log.countP (·.call.isPublished)
  noted : (failedFiles m).length ≤ m.r.writeErrors

theorem Unclosed.unfailed {file : Nat} {tmp : CString} {entries : List Entry}
    (unclosed : Unclosed file tmp entries) (intact : Intact entries) :
    ∀ entry ∈ entries, entry.call.failed = false := by
  obtain ⟨opened, writes, rfl, sound⟩ := unclosed
  intro entry member
  rcases List.mem_cons.mp member with rfl | listed
  · rfl
  · obtain ⟨part, data, answer, same⟩ := sound entry listed
    have ok := intact entry member file part data answer same
    simp [same, Call.failed, ok]

/-- The only entry of its kind tells how the segment ended. -/
theorem Settled.of_rename {file : Nat} {entries : List Entry} (settled : Settled cfg file entries)
    (reported : ∀ entry ∈ entries, entry.call.failsUnread = false)
    {entry : Entry} (member : entry ∈ entries) {segment : Segment} {content : Option Bytes}
    (renamed : entry.call = .rename segment content true) :
    (∀ other ∈ entries, other.call.failed = false) ∧ content = some (written entries) := by
  obtain ⟨closed, before, unclosed, intact, rfl, -, -, -, whole⟩ :=
    settled.rename cfg member renamed
  have ok : closed = true := by
    simpa [Call.failsUnread] using reported ⟨entry.event, .fclose file true closed⟩ (by simp)
  refine ⟨?_, by simpa [written, Call.written] using whole (.inl ok)⟩
  intro other listed
  simp only [List.mem_append, List.mem_cons, List.not_mem_nil, or_false] at listed
  rcases listed with listed | rfl | rfl
  · exact unclosed.unfailed intact other listed
  · simp [Call.failed, ok]
  · rfl

/-- A segment that failed otherwise than by an unread result has a counted failure. -/
theorem Settled.counted {file : Nat} {entries : List Entry} (settled : Settled cfg file entries)
    (reported : ∀ entry ∈ entries, entry.call.failsUnread = false)
    (failed : ∃ entry ∈ entries, entry.call.failed = true) :
    ∃ entry ∈ entries, entry.call.isCounted = true := by
  rcases settled with ⟨own, bytes, closed, done, event, before, unclosed, intact, rfl, -⟩ |
    ⟨tmp, closed, event, before, unclosed, broken, rfl⟩
  · have ok : closed = true := by
      simpa [Call.failsUnread] using reported ⟨event, .fclose file true closed⟩ (by simp)
    obtain ⟨entry, member, bad⟩ := failed
    simp only [List.mem_append, List.mem_cons, List.not_mem_nil, or_false] at member
    rcases member with listed | rfl | rfl
    · rw [unclosed.unfailed intact entry listed] at bad
      cases bad
    · simp [Call.failed, ok] at bad
    · exact ⟨⟨event, .rename own bytes done⟩, by simp, bad⟩
  · simp only [Intact, not_forall] at broken
    obtain ⟨entry, member, other, part, data, answer, same, bad⟩ := broken
    have inside : entry ∈ before ++ [⟨event, .fclose file false closed⟩, ⟨event, .unlink file tmp⟩] :=
      List.mem_append_left _ member
    refine ⟨entry, inside, ?_⟩
    have packet : part ≠ .params := by
      rintro rfl
      have read := reported entry inside
      simp only [same, Call.failsUnread, decide_true, Bool.true_and, Bool.not_eq_false'] at read
      exact bad read
    simp [same, Call.isCounted, packet, bad]

/-- Different files fail in different calls. -/
theorem length_le_countP (log : List Entry) (files : List Nat) (p : Call → Bool)
    (distinct : files.Nodup)
    (each : ∀ file ∈ files, ∃ entry ∈ log, entry.call.file = some file ∧ p entry.call = true) :
    files.length ≤ log.countP (fun entry => p entry.call) := by
  have inside : files ⊆ (log.filter fun entry => p entry.call).filterMap (·.call.file) := by
    intro file member
    obtain ⟨entry, listed, about, holds⟩ := each file member
    exact List.mem_filterMap.mpr ⟨entry, List.mem_filter.mpr ⟨listed, holds⟩, about⟩
  calc files.length
      ≤ ((log.filter fun entry => p entry.call).filterMap (·.call.file)).length :=
        (List.subperm_of_subset distinct inside).length_le
    _ ≤ (log.filter fun entry => p entry.call).length := List.length_filterMap_le _ _
    _ = log.countP (fun entry => p entry.call) := List.countP_eq_length_filter.symm

/-- No segment is published in part in any run whose unread results are successes. -/
theorem published_of_reported (mounts : List MntEnt) (nowNs : UInt64) (inputs : List Input)
    (m : Machine) (reached : Reached cfg mounts nowNs inputs m)
    (reported : ∀ entry ∈ m.w.log, entry.call.failsUnread = false) : Published m := by
  have ledger := reached.ledger cfg
  have counted := reached.counted cfg
  have own (file : Nat) : ∀ entry ∈ entriesOf m.w.log file, entry.call.failsUnread = false :=
    fun entry member => reported entry (mem_entriesOf.mp member).1
  refine ⟨?_, counted.closed, ?_⟩
  · intro entry member segment content renamed
    exact (ledger.renamed cfg member renamed).of_rename cfg (own _)
      (mem_entriesOf.mpr ⟨member, by simp [renamed, Call.file]⟩) renamed
  · refine Nat.le_trans ?_ counted.errors
    refine length_le_countP _ _ Call.isCounted (List.nodup_range.filter _) ?_
    intro file member
    simp only [failedFiles, List.mem_filter, List.mem_range, List.any_eq_true] at member
    obtain ⟨bound, failed⟩ := member
    obtain ⟨entry, inside, bad⟩ := failed
    have sound (tmp : CString) (unclosed : Unclosed file tmp (entriesOf m.w.log file))
        (intact : Intact (entriesOf m.w.log file)) : False := by
      rw [unclosed.unfailed intact entry inside] at bad
      cases bad
    by_cases holder : ∃ stream, (m.streams stream).fp = some file
    · obtain ⟨stream, holds⟩ := holder
      exact (sound _ (ledger.held stream _ holds).unclosed (ledger.sound stream _ holds)).elim
    · rcases ledger.done _ bound (not_exists.mp holder) with settled | ⟨⟨tmp, unclosed⟩, intact, -⟩
      · obtain ⟨found, listed, counts⟩ := settled.counted cfg (own file)
          ⟨entry, inside, bad⟩
        obtain ⟨member, about⟩ := mem_entriesOf.mp listed
        exact ⟨found, member, about, counts⟩
      · exact (sound _ unclosed intact).elim

/-- The payload stays in the library's buffer and the close at STREAM_STOP loses it. -/
def truncatingInputs : List Input :=
  let buffering := {goodAnswers with write := {goodAnswers.write with payload := ⟨true, 4⟩}}
  let losing := {goodAnswers with finish := {goodClose with fclose := ⟨false, 4⟩}}
  [startAt 1 1000, {videoAt 1 1100 keyPacket with answers := buffering},
    {stopAt 1 1200 with answers := losing}]

set_option maxRecDepth 10000 in
/-- The truncated file gets its final name and counts as a segment, not as an error. -/
theorem not_published_truncating :
    let m := run (sampleConfig false) [] 1 truncatingInputs
    m.r.segmentsClosed = 1 ∧ m.r.writeErrors = 0 ∧ 0 ∈ failedFiles m ∧ ¬ Published m := by
  have closed : (run (sampleConfig false) [] 1 truncatingInputs).r.writeErrors = 0 ∧
      failedFiles (run (sampleConfig false) [] 1 truncatingInputs) = [0] := by decide
  refine ⟨by decide, closed.1, by rw [closed.2]; simp, fun published => ?_⟩
  have noted := published.noted
  rw [closed.1, closed.2] at noted
  cases noted

set_option maxRecDepth 10000 in
theorem published_of_reported_sample :
    Published (run (sampleConfig false) [] 1
      [startAt 1 1000, videoAt 1 1100 keyPacket, stopAt 1 1200]) := by
  exact published_of_reported _ [] 1 _ _ (.inl rfl) (by decide)

end StreamRelay.Recorder
