import StreamRelay.Recorder.Ledger

/-! Final paths over a run. Nothing but the stream, the codec and the local second
of the packet that opened a segment goes into its path, so two segments opened in
one second share it, and only those do. -/
namespace StreamRelay.Recorder

variable (cfg : Config)

/-- The packet with which a file was opened, and the path it was opened under. -/
def OpensFile (input : Input) (call : Call) : Prop :=
  ∀ path file, call = .fopen path (some file) →
    input.event.type = .video ∧ ∃ codec, codecSupported codec = true ∧
      path = segmentName cfg input.event.streamId (codecExt codec) input.event.wallMs ++ tmpSuffix

theorem opensFile_admits (input : Input) :
    Admits cfg (OpensFile cfg input) input.event input.answers where
  soft := by
    rintro call soft path file rfl
    exact soft.elim
  quiet := by
    rintro call quiet path file rfl
    cases quiet
  closing := by
    rintro call closing path file rfl
    exact closing.elim
  fopen := by
    intro video codec file supported path file' same
    obtain ⟨rfl, -⟩ := Call.fopen.inj same
    exact ⟨video, codec, supported, rfl⟩
  fwrite := by
    rintro file part data answer - path file' same
    cases same

/-- Where a file in the log of a run was opened. -/
theorem opened_origin {mounts : List MntEnt} {nowNs : UInt64} {inputs : List Input} {m : Machine}
    (reached : Reached cfg mounts nowNs inputs m) {k file : Nat} {path : CString}
    (member : ⟨k, .fopen path (some file)⟩ ∈ m.w.log) :
    ∃ input, inputs[k]? = some input ∧ OpensFile cfg input (.fopen path (some file)) := by
  have origin := log_origin cfg (opensFile_admits cfg)
    (fun _ _ _ _ _ same => by cases same) mounts nowNs inputs
  rcases reached with rfl | ⟨answers, rfl⟩
  · exact origin _ member
  · obtain ⟨calls, log, each⟩ := shutdown_log cfg answers (run cfg mounts nowNs inputs)
    rw [log] at member
    rcases List.mem_append.mp member with before | new
    · exact origin _ before
    · obtain ⟨call, listed, same⟩ := List.mem_map.mp new
      obtain ⟨-, rfl⟩ := Entry.mk.inj same
      rcases each _ listed with soft | closing
      · exact soft.elim
      · exact closing.elim

/-- The segment was renamed, or tried to be. -/
def Finalizes (log : List Entry) (segment : Segment) : Prop :=
  ∃ entry ∈ log, ∃ content ok, entry.call = .rename segment content ok

/-- The packet of this place among the inputs opened the segment's file. -/
def OpenedBy (inputs : List Input) (log : List Entry) (segment : Segment) (input : Input) : Prop :=
  ∃ k : Nat, inputs[k]? = some input ∧ ⟨k, .fopen segment.tmp (some segment.file)⟩ ∈ log ∧
    input.event.type = .video ∧ input.event.streamId = segment.stream

/-- A finalized segment's path is that of the packet that opened it. -/
theorem finalizes_origin {mounts : List MntEnt} {nowNs : UInt64} {inputs : List Input} {m : Machine}
    (reached : Reached cfg mounts nowNs inputs m) {segment : Segment}
    (finalizes : Finalizes m.w.log segment) :
    codecSupported segment.codec = true ∧ ∃ input, OpenedBy inputs m.w.log segment input ∧
      segment.final =
        segmentName cfg segment.stream (codecExt segment.codec) input.event.wallMs := by
  obtain ⟨entry, member, content, ok, rename⟩ := finalizes
  have inside : entry ∈ entriesOf m.w.log segment.file :=
    mem_entriesOf.mpr ⟨member, by simp [rename, Call.file]⟩
  obtain ⟨closed, before, ⟨k, writes, rfl, -⟩, -, shape, tmp, supported, final, -⟩ :=
    ((reached.ledger cfg).renamed cfg member rename).rename cfg inside rename
  have inLog : ⟨k, .fopen segment.tmp (some segment.file)⟩ ∈ entriesOf m.w.log segment.file := by
    rw [shape]
    simp
  have opened := (mem_entriesOf.mp inLog).1
  obtain ⟨input, place, opens⟩ := opened_origin cfg reached opened
  obtain ⟨video, codec, codecSupported, path⟩ := opens _ _ rfl
  rw [tmp, List.append_cancel_right_eq, final,
    segmentName_eq_iff cfg _ _ _ _ _ _ supported codecSupported] at path
  obtain ⟨stream, rfl, stamps⟩ := path
  refine ⟨supported, input, ⟨k, place, opened, video, stream.symm⟩, ?_⟩
  rw [final, segmentName_eq_iff cfg _ _ _ _ _ _ supported supported]
  exact ⟨rfl, rfl, stamps⟩

/-- Two finalized segments have one final path exactly if their stream and codec are
the same and their first packets came in the same local second. -/
theorem final_eq_iff (mounts : List MntEnt) (nowNs : UInt64) (inputs : List Input) (m : Machine)
    (reached : Reached cfg mounts nowNs inputs m) (one two : Segment)
    (first : Finalizes m.w.log one) (second : Finalizes m.w.log two) :
    ∃ input input', OpenedBy inputs m.w.log one input ∧ OpenedBy inputs m.w.log two input' ∧
      (one.final = two.final ↔ one.stream = two.stream ∧ one.codec = two.codec ∧
        segmentStampAt cfg input.event.wallMs = segmentStampAt cfg input'.event.wallMs) := by
  obtain ⟨supported, input, opened, final⟩ := finalizes_origin cfg reached first
  obtain ⟨supported', input', opened', final'⟩ := finalizes_origin cfg reached second
  refine ⟨input, input', opened, opened', ?_⟩
  rw [final, final']
  exact segmentName_eq_iff cfg _ _ _ _ _ _ supported supported'

/-- The segments renamed, in order. -/
def finalized (log : List Entry) : List Segment :=
  log.filterMap fun entry => match entry.call with
    | .rename segment _ true => some segment
    | _ => none

theorem finalizes_of_mem {log : List Entry} {segment : Segment} (member : segment ∈ finalized log) :
    Finalizes log segment := by
  obtain ⟨entry, inside, same⟩ := List.mem_filterMap.mp member
  split at same
  · next segment content rename =>
    obtain rfl := Option.some.inj same
    exact ⟨entry, inside, content, true, rename⟩
  · cases same

/-- STOP, START and a key frame within one second. -/
def restartingInputs : List Input :=
  [startAt 1 1000, videoAt 1 1100 keyPacket, stopAt 1 1300, startAt 1 1400,
    videoAt 1 1500 keyPacket, stopAt 1 1600]

def restartedSegment (file : Nat) (startWallMs : UInt64) : Segment :=
  ⟨file, 1, 0, startWallMs, "/rec/raw/s01/20240101_000001.h264.tmp".toList,
    "/rec/raw/s01/20240101_000001.h264".toList⟩

set_option maxRecDepth 10000 in
/-- The second segment of the stream replaces the first under its final path. -/
theorem final_shared_restarting :
    finalized (run (sampleConfig false) [] 1 restartingInputs).w.log =
        [restartedSegment 0 1100, restartedSegment 1 1500] ∧
      (restartedSegment 0 1100).final = (restartedSegment 1 1500).final ∧
      (run (sampleConfig false) [] 1 restartingInputs).w.store.dir (restartedSegment 0 1100).final =
        some 1 := by
  decide

set_option maxRecDepth 10000 in
theorem final_eq_iff_restarting :
    ∃ input input' : Input,
      input.event.streamId = 1 ∧ input'.event.streamId = 1 ∧
        segmentStampAt (sampleConfig false) input.event.wallMs =
          segmentStampAt (sampleConfig false) input'.event.wallMs := by
  have finalizes (file : Nat) (startWallMs : UInt64) (member : restartedSegment file startWallMs ∈
      finalized (run (sampleConfig false) [] 1 restartingInputs).w.log) :=
    finalizes_of_mem member
  obtain ⟨input, input', ⟨_, _, _, _, stream⟩, ⟨_, _, _, _, stream'⟩, same⟩ :=
    final_eq_iff (sampleConfig false) [] 1 restartingInputs _ (.inl rfl) _ _
      (finalizes 0 1100 (by decide)) (finalizes 1 1500 (by decide))
  exact ⟨input, input', stream, stream', (same.mp rfl).2.2⟩

end StreamRelay.Recorder
