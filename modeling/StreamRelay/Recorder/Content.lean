import StreamRelay.Recorder.Ownership
import StreamRelay.Recorder.Session

/-! What finalized segments contain. While the storage needs no mount, a stream that
holds a file has written every packet since the one that opened it, so the file
handed to rename is a key frame and the packets after it, behind the session's
parameter sets. -/
namespace StreamRelay.Recorder

variable (cfg : Config)

section Effects

variable {c c' c'' d : Ctx}

/-- No rename is made in between. -/
def Silent (c c' : Ctx) : Prop :=
  ∃ calls, Emits c calls c' ∧ ∀ segment content ok, Call.rename segment content ok ∉ calls

theorem Silent.fields (world : c'.w = c.w) (gate : c'.r.nfsMounted = c.r.nfsMounted) :
    Silent c c' := ⟨[], .none (by rw [world]) (by rw [world]) gate, by simp⟩

theorem Silent.trans (one : Silent c c') (two : Silent c' c'') : Silent c c'' := by
  obtain ⟨first, firstEmits, firstNone⟩ := one
  obtain ⟨second, secondEmits, secondNone⟩ := two
  refine ⟨first ++ second, firstEmits.trans secondEmits, fun segment content ok member => ?_⟩
  rcases List.mem_append.mp member with left | right
  · exact firstNone segment content ok left
  · exact secondNone segment content ok right

theorem Silent.grows (silent : Silent c c') {entry : Entry} (member : entry ∈ c.w.log) :
    entry ∈ c'.w.log := by
  obtain ⟨calls, emits, -⟩ := silent
  rw [emits.log]
  exact List.mem_append_left _ member

theorem Silent.event (silent : Silent c c') : c'.w.event = c.w.event := by
  obtain ⟨calls, emits, -⟩ := silent
  exact emits.event

theorem Silent.old (silent : Silent c c') {entry : Entry} (member : entry ∈ c'.w.log)
    {segment : Segment} {content : Option Bytes} {ok : Bool}
    (rename : entry.call = .rename segment content ok) : entry ∈ c.w.log := by
  obtain ⟨calls, emits, none⟩ := silent
  rw [emits.log] at member
  rcases List.mem_append.mp member with before | new
  · exact before
  · obtain ⟨call, listed, rfl⟩ := List.mem_map.mp new
    subst rename
    exact (none segment content ok listed).elim

theorem quiet_not_rename {calls : List Call} (quiet : ∀ call ∈ calls, call.IsQuiet)
    (segment : Segment) (content : Option Bytes) (ok : Bool) :
    Call.rename segment content ok ∉ calls := by
  intro member
  have none := (quiet _ member).file
  cases none

theorem Soft.silent (soft : Soft c c') : Silent c c' := by
  obtain ⟨calls, emits, each⟩ := soft.calls
  exact ⟨calls, emits, quiet_not_rename fun call member => (each call member).quiet⟩

theorem OpenFailed.silent (failed : OpenFailed c c') : Silent c c' := by
  obtain ⟨quiet, allQuiet, emits⟩ := failed.calls
  refine ⟨_, emits, fun segment content ok member => ?_⟩
  rcases List.mem_cons.mp member with same | member
  · cases same
  · exact quiet_not_rename allQuiet segment content ok member

theorem Opened.silent {wallMs : UInt64} (opened : Opened cfg wallMs c c') : Silent c c' := by
  obtain ⟨quiet, allQuiet, emits⟩ := opened.calls
  refine ⟨_, emits, fun segment content ok member => ?_⟩
  simp only [List.cons_append, List.mem_cons, List.mem_append, reduceCtorEq, List.not_mem_nil,
    or_false, false_or] at member
  exact quiet_not_rename allQuiet segment content ok member

theorem fwrites_silent (file : Nat) (writes : List Write) (c : Ctx) :
    Silent c (c.fwrites file writes) := by
  refine ⟨_, fwrites_emits file c writes, fun segment content ok member => ?_⟩
  obtain ⟨write, -, same⟩ := List.mem_map.mp member
  cases same

theorem discardSegment_silent (answers : Answers) (c : Ctx) :
    Silent c (discardSegment cfg answers c) := by
  cases holds : c.s.fp with
  | none =>
    rw [discardSegment, closeSegment_none cfg answers.discard false c holds]
    exact .fields rfl rfl
  | some file =>
    by_cases named : c.s.tmpPath = []
    · refine ⟨[.fclose file false answers.discard.fclose.ok], ⟨?_, ?_, ?_⟩, by simp⟩ <;>
        simp [discardSegment, closeSegment, holds, named] <;> rfl
    · have discarded := closeSegment_discard cfg answers.discard c file holds named
      exact ⟨_, ⟨discarded.calls.log, discarded.calls.event, discarded.calls.gate⟩, by simp⟩

theorem fwrites_written (file : Nat) (writes : List Write) (c : Ctx) :
    written (entriesOf (c.fwrites file writes).w.log file) =
      written (entriesOf c.w.log file) ++ writes.flatMap Write.data := by
  rw [(fwrites_emits file c writes).entries, written_append]
  congr 1
  induction writes with
  | nil => rfl
  | cons write writes ih =>
    rw [List.map_cons, List.map_cons, ← List.singleton_append, entriesOf_append, written_append, ih,
      entriesOf_single _ _ _ _ rfl, if_pos rfl, List.flatMap_cons]
    simp [written, Call.written]

theorem paramSetBytes_same {s s' : RecorderStream} (same : SameStream s s') :
    paramSetBytes s' = paramSetBytes s := by
  rw [paramSetBytes, paramSetBytes, same.codec, same.params]

/-- The first writes reach the file whole, or the file is given up. -/
theorem beginSegment_effect (ev : RecorderEvent) (answers : Answers) (file : Nat)
    (holds : c.s.fp = some file) (nonempty : ev.data ≠ []) :
    Silent c (beginSegment cfg ev answers c) ∧
      ∀ held, (beginSegment cfg ev answers c).s.fp = some held → held = file ∧
        written (entriesOf (beginSegment cfg ev answers c).w.log file) =
          written (entriesOf c.w.log file) ++ (paramSetBytes c.s ++ annexB ev.data) := by
  obtain ⟨writes, -, result⟩ := beginSegment_cases cfg ev answers c file holds nonempty
  have wrote := fwrites_silent file writes c
  have fp : (c.fwrites file writes).s.fp = some file := by
    rw [(fwrites_frame file c writes).2.1, holds]
  rcases result with ⟨-, data, soft⟩ | ⟨d, result, broken⟩
  · refine ⟨wrote.trans soft.silent, fun held still => ⟨?_, ?_⟩⟩
    · exact Option.some.inj (still.symm.trans (soft.segment.fp.trans fp))
    · rw [soft.entries, fwrites_written, data]
  · rw [result]
    refine ⟨?_, fun held still => ?_⟩
    · refine Silent.trans ?_ (discardSegment_silent cfg answers d)
      rcases broken with ⟨-, soft⟩ | ⟨-, -, soft⟩
      · have noted : Silent (c.fwrites file writes) (c.fwrites file writes).noteWriteError :=
          .fields rfl rfl
        exact (wrote.trans noted).trans soft.silent
      · exact wrote.trans soft.silent
    · have idle : (discardSegment cfg answers d).s.fp = none :=
        (closeSegment_idle cfg answers.discard false d).1
      rw [idle] at still
      cases still

theorem Opened.logged {wallMs : UInt64} (opened : Opened cfg wallMs c c') :
    ⟨c.w.event, .fopen c'.s.tmpPath (some c.w.store.next)⟩ ∈ c'.w.log := by
  obtain ⟨quiet, -, emits⟩ := opened.calls
  rw [emits.log]
  simp

/-- The file was opened by the event at work and holds its packet behind the sets. -/
structure Begun (ev : RecorderEvent) (c c' : Ctx) (file : Nat) : Prop where
  opened : ∃ path, ⟨c.w.event, .fopen path (some file)⟩ ∈ c'.w.log
  content : written (entriesOf c'.w.log file) = paramSetBytes c.s ++ annexB ev.data

/-- Opening a segment for a stream that holds none. -/
theorem openBegin_effect (idle : c.s.fp = none) (ext : c.s.ext = codecExt c.s.codec)
    (valid : c.s.streamId ≤ maxStreamsLimit)
    (fresh : ∀ file, c.w.store.next ≤ file → entriesOf c.w.log file = [])
    (ev : RecorderEvent) (answers : Answers) (nonempty : ev.data ≠ []) :
    let opened := openSegment cfg answers.open_ ev.wallMs ev.monoNs c
    opened.2 = false ∧ Silent c opened.1 ∧ opened.1.s.fp = none ∨
      opened.2 = true ∧ Silent c (beginSegment cfg ev answers opened.1) ∧
        ∀ file, (beginSegment cfg ev answers opened.1).s.fp = some file →
          Begun ev c (beginSegment cfg ev answers opened.1) file := by
  rcases openSegment_cases cfg answers.open_ ev.wallMs ev.monoNs c ext valid with
    ⟨result, failed⟩ | ⟨result, opened⟩
  · refine .inl ⟨result, failed.silent, ?_⟩
    rcases failed.segment with kept | lost
    · exact kept.fp.trans idle
    · exact lost
  · obtain ⟨silent, began⟩ := beginSegment_effect cfg ev answers _ opened.fp nonempty
    refine .inr ⟨result, (opened.silent cfg).trans silent, fun file held => ?_⟩
    obtain ⟨rfl, content⟩ := began file held
    refine ⟨⟨_, silent.grows (opened.logged cfg)⟩, ?_⟩
    rw [content, opened.entries cfg, if_pos rfl, fresh _ (Nat.le_refl _),
      paramSetBytes_same opened.stream]
    rfl

/-- A packet of an open segment reaches its file whole, or the file is given up. -/
theorem videoAppend_effect (ev : RecorderEvent) (answers : Answers) (nonempty : ev.data ≠ []) :
    Silent c (videoAppend cfg ev answers c) ∧
      ∀ file, (videoAppend cfg ev answers c).s.fp = some file → c.s.fp = some file ∧
        written (entriesOf (videoAppend cfg ev answers c).w.log file) =
          written (entriesOf c.w.log file) ++ annexB ev.data := by
  unfold videoAppend
  cases holds : c.s.fp with
  | none =>
    refine ⟨.fields rfl rfl, fun file held => ?_⟩
    rw [if_pos rfl, holds] at held
    cases held
  | some file =>
    obtain ⟨writes, -, result⟩ :=
      writeSegmentPacket_cases cfg answers.write ev.data c file holds nonempty
    have wrote := fwrites_silent file writes c
    have fp : (c.fwrites file writes).s.fp = some file := by
      rw [(fwrites_frame file c writes).2.1, holds]
    rcases result with ⟨result, -, data, soft⟩ | ⟨result, -, soft⟩
    · simp only [reduceCtorEq, if_false, result, if_true]
      refine ⟨wrote.trans soft.silent, fun held still => ?_⟩
      obtain rfl := Option.some.inj (still.symm.trans (soft.segment.fp.trans fp))
      exact ⟨rfl, by rw [soft.entries, fwrites_written, data]⟩
    · simp only [reduceCtorEq, if_false, result, Bool.false_eq_true]
      have request := requestIdr_soft cfg .recordWriteError ev.monoNs true
        (discardSegment cfg answers (writeSegmentPacket cfg answers.write ev.data c).1)
      have noted : Silent (c.fwrites file writes) (c.fwrites file writes).noteWriteError :=
        .fields rfl rfl
      refine ⟨((wrote.trans noted).trans soft.silent).trans
        ((discardSegment_silent cfg answers _).trans request.silent), fun held still => ?_⟩
      have idle : (discardSegment cfg answers
          (writeSegmentPacket cfg answers.write ev.data c).1).s.fp = none :=
        (closeSegment_idle cfg answers.discard false _).1
      rw [request.segment.fp, idle] at still
      cases still

/-- The renames made are of the file the stream held, with nothing written to it since. -/
def Renames (c c' : Ctx) : Prop :=
  ∀ entry ∈ c'.w.log, ∀ segment content ok, entry.call = .rename segment content ok →
    entry ∈ c.w.log ∨ entry.event = c.w.event ∧ c.s.fp = some segment.file ∧
      segment.stream = c.s.streamId ∧
      written (entriesOf c'.w.log segment.file) = written (entriesOf c.w.log segment.file)

theorem Silent.renames (silent : Silent c c') : Renames c c' :=
  fun _ member _ _ _ rename => .inl (silent.old member rename)

theorem Renames.after_soft (soft : Soft c d) (renames : Renames d c') : Renames c c' := by
  intro entry member segment content ok rename
  rcases renames entry member segment content ok rename with old | ⟨event, holds, own, same⟩
  · exact .inl (soft.silent.old old rename)
  · exact .inr ⟨event.trans soft.event, soft.segment.fp.symm.trans holds,
      own.trans soft.stream.streamId, by rw [same, soft.entries]⟩

/-- Later work that touches no file held before. -/
theorem Renames.silent (renames : Renames c d) (silent : Silent d c')
    (spared : ∀ file, c.s.fp = some file → entriesOf c'.w.log file = entriesOf d.w.log file) :
    Renames c c' := by
  intro entry member segment content ok rename
  rcases renames entry (silent.old member rename) segment content ok rename with
    old | ⟨event, holds, own, same⟩
  · exact .inl old
  · exact .inr ⟨event, holds, own, by rw [spared _ holds, same]⟩

theorem closeSegment_renames {stream : Nat} {base : Ctx} (custody : Custody cfg stream base c)
    (closing : CloseAnswers) : Renames c (closeSegment cfg closing true c).1 := by
  cases holds : c.s.fp with
  | none =>
    rw [closeSegment_none cfg closing true c holds]
    exact fun _ member _ _ _ _ => .inl member
  | some file =>
    obtain ⟨tmp, final, -, -⟩ := (custody.held file holds).paths cfg
    obtain ⟨renamed, finalized⟩ := closeSegment_finalize cfg closing c file holds tmp final
    obtain ⟨rest, soft, emits⟩ := finalized.calls
    intro entry member segment content ok rename
    rw [emits.log] at member
    rcases List.mem_append.mp member with before | new
    · exact .inl before
    · obtain ⟨call, listed, rfl⟩ := List.mem_map.mp new
      subst rename
      simp only [List.mem_cons, reduceCtorEq, false_or, Call.rename.injEq] at listed
      rcases listed with ⟨rfl, -, -⟩ | member
      · refine .inr ⟨rfl, holds, rfl, ?_⟩
        have quiet (call : Call) (listed : call ∈ rest) : call.file = none :=
          (soft call listed).quiet.file
        rw [emits.entries, entriesOf_pair _ _ _ rest file _ rfl rfl quiet, written_append]
        simp [RecorderStream.segment, written, Call.written]
      · exact (soft _ member).elim

/-- A state of affairs is where further work starts from. -/
theorem Custody.rebase {stream : Nat} {base : Ctx} (custody : Custody cfg stream base c) :
    Custody cfg stream c c where
  next_le := Nat.le_refl _
  event := rfl
  log := ⟨[], (List.append_nil _).symm⟩
  entries_frame := fun _ _ _ => rfl
  files_frame := fun _ _ _ => rfl
  dir_frame := fun _ _ => rfl
  fresh := custody.fresh
  own := fun file holds => ⟨(custody.own file holds).1, .inl holds⟩
  held := custody.held
  done := by
    intro file bound touched unheld
    rcases touched with holds | new
    · exact (unheld holds).elim
    · exact (Nat.not_lt.mpr new bound).elim

/-- Replacing an open segment: the old file is finished before the new one is begun. -/
theorem videoRollover_effect {stream : Nat} {base : Ctx} (custody : Custody cfg stream base c)
    (sound : Sound c) (armed : Armed stream c.s) (valid : stream ≤ maxStreamsLimit)
    (ev : RecorderEvent) (answers : Answers) (nonempty : ev.data ≠ []) :
    Renames c (videoRollover cfg ev answers c) ∧
      ∀ file, (videoRollover cfg ev answers c).s.fp = some file →
        Begun ev c (videoRollover cfg ev answers c) file := by
  obtain ⟨closed, idle⟩ := closeSegment_work cfg custody sound answers.finish
  have renames := closeSegment_renames cfg custody answers.finish
  have event : (closeSegment cfg answers.finish true c).1.w.event = c.w.event :=
    closed.custody.event.trans custody.event.symm
  have next : c.w.store.next ≤ (closeSegment cfg answers.finish true c).1.w.store.next :=
    (closeSegment_work cfg (custody.rebase cfg) sound answers.finish).1.custody.next_le
  have rearmed := armed.same closed.same
  have works := openBegin_work cfg (closed.custody.rebase cfg) closed.sound rearmed valid ev answers
    nonempty
  have effects := openBegin_effect cfg idle rearmed.ext (rearmed.streamId ▸ valid)
    closed.custody.fresh ev answers nonempty
  have old (file : Nat) (holds : c.s.fp = some file) :
      file < (closeSegment cfg answers.finish true c).1.w.store.next :=
    Nat.lt_of_lt_of_le (custody.own file holds).1 next
  have unheld (file : Nat) : (closeSegment cfg answers.finish true c).1.s.fp ≠ some file := by
    simp [idle]
  have begin_same {d : Ctx} {file : Nat}
      (begun : Begun ev (closeSegment cfg answers.finish true c).1 d file) : Begun ev c d file := by
    refine ⟨by rw [← event]; exact begun.opened, ?_⟩
    rw [begun.content, paramSetBytes_same closed.same]
  rcases effects with ⟨result, silent, lost⟩ | ⟨result, silent, begun⟩ <;>
    rcases works with ⟨result', work⟩ | ⟨result', work⟩
  · simp only [videoRollover, result, Bool.false_eq_true, if_false]
    refine ⟨renames.silent (silent.trans (.fields rfl rfl)) fun file holds => ?_, fun file held => ?_⟩
    · exact work.custody.entries_frame file (old file holds) (unheld file)
    · rw [lost] at held
      cases held
  · exact absurd (result.symm.trans result') (by decide)
  · exact absurd (result.symm.trans result') (by decide)
  · simp only [videoRollover, result, if_true]
    exact ⟨renames.silent silent fun file holds =>
      work.custody.entries_frame file (old file holds) (unheld file),
      fun file held => begin_same (begun file held)⟩

/-- What became of a packet, for the file its stream holds afterwards. -/
inductive PacketFate (ev : RecorderEvent) (answers : Answers) (c c' : Ctx) (file : Nat) : Prop where
  | ignored (untaken : takesVideo c.s ev = false) (same : c' = c)
  | appended (taken : takesVideo c.s ev = true) (holds : c.s.fp = some file)
      (content : written (entriesOf c'.w.log file) = written (entriesOf c.w.log file) ++ annexB ev.data)
  | began (taken : takesVideo c.s ev = true) (keyframe : hasKeyframe c.s.codec ev.data = true)
      (ready : paramsReady (c.analyze ev answers).s = true)
      (begun : Begun ev (c.analyze ev answers) c' file)

theorem processVideo_effect {stream : Nat} {base : Ctx} (custody : Custody cfg stream base c)
    (sound : Sound c) (require : cfg.requireNfsMount = false) (waits : Waits c.s) (ev : RecorderEvent)
    (armed : takesVideo c.s ev = true → Armed stream c.s) (valid : stream ≤ maxStreamsLimit)
    (answers : Answers) :
    Renames c (processVideo cfg ev answers c) ∧
      ∀ file, (processVideo cfg ev answers c).s.fp = some file →
        PacketFate ev answers c (processVideo cfg ev answers c) file := by
  have analyzed := analyze_segment c ev answers
  have fp : (c.analyze ev answers).s.fp = c.s.fp := by rw [analyzed]
  have named : (c.analyze ev answers).s.streamId = c.s.streamId := by rw [analyzed]
  have rearmed (d : Ctx) (soft : Soft (c.analyze ev answers) d) (taken : takesVideo c.s ev = true) :
      Armed stream d.s := by
    have was := armed taken
    refine Armed.same ⟨?_, ?_, ?_⟩ soft.stream <;> rw [analyzed]
    exacts [was.1, was.2, was.3]
  have kept : Custody cfg stream base (c.analyze ev answers) := by
    refine custody.fields cfg rfl named (by rw [analyzed]) ⟨fp, ?_, ?_, ?_⟩ <;> rw [analyzed]
  have sound : Sound (c.analyze ev answers) := by
    intro file holds
    rw [fp] at holds
    exact sound file holds
  have base_renames {c' : Ctx} (renames : Renames (c.analyze ev answers) c') : Renames c c' := by
    intro entry member segment content ok rename
    rcases renames entry member segment content ok rename with old | ⟨event, holds, own, same⟩
    · exact .inl old
    · exact .inr ⟨event, fp.symm.trans holds, own.trans named, same⟩
  rcases processVideo_cases cfg ev answers c with ⟨untaken, same⟩ | ⟨-, unavailable, -, -, -⟩ |
    ⟨taken, waiting, soft⟩ | ⟨taken, -, waiting, keyframe, ready, d, soft, same⟩ |
    ⟨taken, -, -, keyframe, ready, d, soft, same⟩ | ⟨taken, -, -, d, soft, same⟩
  · rw [same]
    exact ⟨fun _ member _ _ _ _ => .inl member, fun _ _ => .ignored untaken rfl⟩
  · rw [storageAvailable_eq, storageUnavailable, require] at unavailable
    cases unavailable
  · refine ⟨base_renames soft.silent.renames, fun file held => ?_⟩
    rw [soft.segment.fp, fp, waits waiting] at held
    cases held
  all_goals
    have nonempty := ((takesVideo_iff _ _).mp taken).1
    have ready' := rearmed d soft taken
    have reached := kept.soft cfg soft
    have whole := sound.soft soft
    have fp' : d.s.fp = c.s.fp := soft.segment.fp.trans fp
    rw [same]
  · have begins {c' : Ctx} {file : Nat} (begun : Begun ev d c' file) :
        PacketFate ev answers c c' file :=
      .began taken keyframe ready ⟨soft.event ▸ begun.opened,
        begun.content.trans (by rw [paramSetBytes_same soft.stream])⟩
    have idle : d.s.fp = none := fp'.trans (waits waiting)
    rcases openBegin_effect cfg idle ready'.ext (ready'.streamId ▸ valid) reached.fresh ev answers
      nonempty with ⟨result, silent, lost⟩ | ⟨result, silent, begun⟩
    · simp only [videoBegin, result, Bool.false_eq_true, if_false]
      refine ⟨base_renames (silent.renames.after_soft soft), fun file held => ?_⟩
      rw [lost] at held
      cases held
    · simp only [videoBegin, result, if_true]
      exact ⟨base_renames (silent.renames.after_soft soft), fun file held => begins (begun file held)⟩
  · obtain ⟨renames, begun⟩ := videoRollover_effect cfg reached whole ready' valid ev answers nonempty
    refine ⟨base_renames (renames.after_soft soft), fun file held => ?_⟩
    have began := begun file held
    exact .began taken keyframe ready ⟨soft.event ▸ began.opened,
      began.content.trans (by rw [paramSetBytes_same soft.stream])⟩
  · obtain ⟨silent, appended⟩ := videoAppend_effect cfg (c := d) ev answers nonempty
    refine ⟨base_renames (silent.renames.after_soft soft), fun file held => ?_⟩
    obtain ⟨holds, content⟩ := appended file held
    exact .appended taken (fp'.symm.trans holds) (content.trans (by rw [soft.entries]; rfl))

end Effects

/-- The packets of the stream from place `k` up to place `e`, in one session and
with a key frame first, behind the sets the session had by then. -/
structure Consists (inputs : List Input) (stream k e : Nat) (content : Bytes) : Prop where
  ordered : k < e
  bounded : e ≤ inputs.length
  unbroken : ∀ j input, k < j → j < e → inputs[j]? = some input →
    input.event.streamId = stream → input.event.type = .video
  content : ∃ first session, inputs[k]? = some first ∧ isPacket stream first = true ∧
    sessionOf cfg stream (inputs.take (k + 1)) = some session ∧ session.Ready ∧
    hasKeyframe session.codec first.event.data = true ∧
    content = session.sets ++ annexB first.event.data ++
      (packets stream ((inputs.take e).drop (k + 1))).flatMap annexB

section Consists

variable {cfg} {inputs : List Input} {stream k e : Nat} {content : Bytes}

/-- What comes later changes nothing. -/
theorem Consists.later (consists : Consists cfg inputs stream k e content) (more : List Input) :
    Consists cfg (inputs ++ more) stream k e content := by
  obtain ⟨ordered, bounded, unbroken, first, session, place, rest⟩ := consists
  have inside {j : Nat} (before : j < e) : (inputs ++ more)[j]? = inputs[j]? :=
    List.getElem?_append_left (by omega)
  refine ⟨ordered, by simp; omega, fun j next after before => ?_, first, session, ?_, ?_⟩
  · rw [inside before]
    exact unbroken j next after before
  · rw [inside ordered, place]
  · rw [List.take_append_of_le_length bounded, List.take_append_of_le_length (by omega)]
    exact rest

/-- More events that leave the session running. -/
theorem Consists.extend (consists : Consists cfg inputs stream k inputs.length content)
    (more : List Input)
    (goes_on : ∀ input ∈ more, input.event.streamId = stream → input.event.type = .video) :
    Consists cfg (inputs ++ more) stream k (inputs ++ more).length
      (content ++ (packets stream more).flatMap annexB) := by
  obtain ⟨ordered, -, unbroken, first, session, place, packet, current, ready, key, rfl⟩ := consists
  refine ⟨by simp; omega, Nat.le_refl _, fun j next after before found own => ?_, first, session,
    ?_, packet, ?_, ready, key, ?_⟩
  · by_cases last : j < inputs.length
    · rw [List.getElem?_append_left last] at found
      exact unbroken j next after last found own
    · rw [List.getElem?_append_right (Nat.not_lt.mp last)] at found
      exact goes_on next (List.mem_of_getElem? found) own
  · rw [List.getElem?_append_left ordered, place]
  · rw [List.take_append_of_le_length (by omega)]
    exact current
  · rw [List.take_length, List.take_length, List.drop_append_of_le_length (by omega), packets_append,
      List.flatMap_append, List.append_assoc]

end Consists

/-- Every file held or renamed consists of the packets of its segment. -/
structure Told (inputs : List Input) (m : Machine) : Prop where
  held : ∀ stream file, (m.streams stream).fp = some file →
    ∃ k path, ⟨k, .fopen path (some file)⟩ ∈ m.w.log ∧
      Consists cfg inputs stream k inputs.length (written (entriesOf m.w.log file))
  renamed : ∀ entry ∈ m.w.log, ∀ segment content ok, entry.call = .rename segment content ok →
    (∃ k path, ⟨k, .fopen path (some segment.file)⟩ ∈ m.w.log ∧
      Consists cfg inputs segment.stream k entry.event (written (entriesOf m.w.log segment.file))) ∧
    ∀ input, inputs[entry.event]? = some input → input.event.streamId = segment.stream

/-- A renamed file is held no longer. -/
theorem Ledger.renamed_apart {m : Machine} (ledger : Ledger cfg m) {entry : Entry}
    (member : entry ∈ m.w.log) {segment : Segment} {content : Option Bytes} {ok : Bool}
    (rename : entry.call = .rename segment content ok) :
    segment.file < m.w.store.next ∧ ∀ stream, (m.streams stream).fp ≠ some segment.file := by
  have inside : entry ∈ entriesOf m.w.log segment.file :=
    mem_entriesOf.mpr ⟨member, by simp [rename, Call.file]⟩
  constructor
  · by_contra past
    rw [ledger.fresh _ (Nat.not_lt.mp past)] at inside
    cases inside
  · intro stream holds
    exact (ledger.held stream _ holds).unclosed.not_renamed entry inside _ _ _ rename

theorem packets_other {stream : Nat} {more : List Input}
    (other : ∀ input ∈ more, input.event.streamId ≠ stream) : packets stream more = [] := by
  simp only [packets, List.map_eq_nil_iff, List.filter_eq_nil_iff, isPacket, Bool.and_eq_true,
    decide_eq_true_eq, not_and]
  exact fun input member own => (other input member own.1).elim

/-- Work on one stream for events of that stream, or for none. -/
theorem Told.install {past : List Input} {m : Machine} (told : Told cfg past m)
    (ledger : Ledger cfg m) (event : m.w.event = past.length) {stream : Nat} {c' : Ctx}
    (custody : Custody cfg stream (m.ctx stream) c') (renames : Renames (m.ctx stream) c')
    (more : List Input) (about : ∀ input ∈ more, input.event.streamId = stream)
    (early : ∀ entry ∈ m.w.log, ∀ input, (past ++ more)[entry.event]? = some input →
      past[entry.event]? = some input)
    (own : ∀ file, c'.s.fp = some file → ∃ k path, ⟨k, .fopen path (some file)⟩ ∈ c'.w.log ∧
      Consists cfg (past ++ more) stream k (past ++ more).length
        (written (entriesOf c'.w.log file))) :
    Told cfg (past ++ more) (m.install stream c') := by
  have grows {entry : Entry} (member : entry ∈ m.w.log) : entry ∈ c'.w.log := by
    obtain ⟨entries, log⟩ := custody.log
    rw [log]
    exact List.mem_append_left _ member
  constructor
  · intro other file holds
    by_cases same : other = stream
    · subst same
      rw [Machine.install_self] at holds
      exact own file holds
    · rw [Machine.install_other _ _ _ _ same] at holds
      obtain ⟨k, path, opened, consists⟩ := told.held other file holds
      have extended := consists.extend more fun input member mine =>
        (same (mine.symm.trans (about input member))).elim
      rw [packets_other fun input member mine => same (mine.symm.trans (about input member)),
        List.flatMap_nil, List.append_nil] at extended
      have entries : entriesOf c'.w.log file = entriesOf m.w.log file :=
        custody.entries_frame file (ledger.lt other file holds)
          fun mine => same (ledger.apart other stream file holds mine)
      exact ⟨k, path, grows opened, by rw [Machine.install_w, entries]; exact extended⟩
  · intro entry member segment content ok rename
    rcases renames entry member segment content ok rename with old | ⟨now, holds, mine, same⟩
    · obtain ⟨⟨k, path, opened, consists⟩, names⟩ := told.renamed entry old segment content ok rename
      obtain ⟨bound, unheld⟩ := ledger.renamed_apart cfg old rename
      have entries : entriesOf c'.w.log segment.file = entriesOf m.w.log segment.file :=
        custody.entries_frame _ bound (unheld stream)
      refine ⟨⟨k, path, grows opened, ?_⟩, fun input place => names input (early entry old input place)⟩
      rw [Machine.install_w, entries]
      exact consists.later more
    · have stream_eq : segment.stream = stream :=
        mine.trans (ledger.held stream _ holds).streamId
      obtain ⟨k, path, opened, consists⟩ := told.held stream _ holds
      have place : entry.event = past.length := now.trans event
      refine ⟨⟨k, path, grows opened, ?_⟩, fun input found => ?_⟩
      · rw [Machine.install_w, same, stream_eq, place]
        exact consists.later more
      · rw [place, List.getElem?_append_right (Nat.le_refl _)] at found
        rw [stream_eq]
        exact about input (List.mem_of_getElem? found)

theorem paramsReady_iff (s : RecorderStream) (supported : codecSupported s.codec = true) :
    paramsReady s = true ↔ ∀ slot ∈ paramSlots s.codec, s.params slot ≠ [] := by
  simp only [codecSupported, Bool.or_eq_true, decide_eq_true_eq] at supported
  rcases supported with h264 | hevc
  · simp [paramsReady, paramSlots, h264]
  · simp [paramsReady, paramSlots, hevc, and_assoc]

theorem processStreamStart_renames {c : Ctx} {stream : Nat} {base : Ctx}
    (custody : Custody cfg stream base c) (ev : RecorderEvent) (answers : Answers) :
    Renames c (processStreamStart cfg ev answers c) := by
  have closed := closeSegment_renames cfg custody answers.finish
  have replaced (s : RecorderStream) :
      Renames c {(closeSegment cfg answers.finish true c).1 with s := s} :=
    closed.silent (.fields rfl rfl) fun _ _ => rfl
  simp only [processStreamStart]
  split
  · exact replaced _
  split
  · exact replaced _
  · have request := requestIdr_soft cfg .recordStart ev.monoNs true
      {(closeSegment cfg answers.finish true c).1 with s := {armedStream cfg ev with active := true}}
    exact (replaced _).silent request.silent fun file _ => request.entries file

/-- A packet as its stream's held file has it afterwards. -/
theorem told_packet {past : List Input} {input : Input} {c c' : Ctx} {file : Nat}
    (video : input.event.type = .video) (event : c.w.event = past.length)
    (agrees : InSession (sessionOf cfg input.event.streamId past) c.s)
    (grows : ∀ entry ∈ c.w.log, entry ∈ c'.w.log) (held : c'.s.fp = some file)
    (told : ∀ file, c.s.fp = some file → ∃ k path, ⟨k, .fopen path (some file)⟩ ∈ c.w.log ∧
      Consists cfg past input.event.streamId k past.length (written (entriesOf c.w.log file)))
    (fate : PacketFate input.event input.answers c c' file) :
    ∃ k path, ⟨k, .fopen path (some file)⟩ ∈ c'.w.log ∧
      Consists cfg (past ++ [input]) input.event.streamId k (past ++ [input]).length
        (written (entriesOf c'.w.log file)) := by
  have goes_on : ∀ next ∈ [input], next.event.streamId = input.event.streamId →
      next.event.type = .video := by simp [video]
  have packet : isPacket input.event.streamId input = decide (input.event.data ≠ []) := by
    simp [isPacket, video]
  rcases fate with ⟨untaken, rfl⟩ | ⟨taken, holds, content⟩ | ⟨taken, keyframe, ready, begun⟩
  · obtain ⟨k, path, opened, consists⟩ := told file held
    have active := agrees.holds (by rw [held]; exact nofun)
    have empty : input.event.data = [] := by
      by_contra nonempty
      rw [(takesVideo_iff _ _).mpr ⟨nonempty, active, agrees.accepted active⟩] at untaken
      cases untaken
    refine ⟨k, path, opened, ?_⟩
    have extended := consists.extend [input] goes_on
    rwa [show packets input.event.streamId [input] = [] by simp [packets, packet, empty],
      List.flatMap_nil, List.append_nil] at extended
  · obtain ⟨k, path, opened, consists⟩ := told file holds
    have nonempty := ((takesVideo_iff _ _).mp taken).1
    refine ⟨k, path, grows _ opened, ?_⟩
    have extended := consists.extend [input] goes_on
    rwa [show packets input.event.streamId [input] = [input.event.data] by
      simp [packets, packet, nonempty], List.flatMap_singleton, ← content] at extended
  · obtain ⟨nonempty, active, -, supported⟩ := (takesVideo_iff _ _).mp taken
    obtain ⟨path, opened⟩ := begun.opened
    have analyzed := analyze_segment c input.event input.answers
    have codec : (c.analyze input.event input.answers).s.codec = c.s.codec := by rw [analyzed]
    have current := agrees.current
    rw [if_pos active] at current
    have session : sessionOf cfg input.event.streamId (past ++ [input]) =
        some ⟨c.s.codec, (c.analyze input.event input.answers).s.params⟩ := by
      rw [sessionOf_snoc, sessionStep, if_pos rfl, video]
      simp only [current, Option.map_some, Session.analyze_record]
      rfl
    refine ⟨past.length, path, event ▸ opened, by simp, Nat.le_refl _, fun j next after before => ?_,
      input, ⟨c.s.codec, (c.analyze input.event input.answers).s.params⟩, by simp, ?_, ?_, ?_, keyframe,
      ?_⟩
    · simp only [List.length_append, List.length_singleton] at before
      omega
    · simp [packet, nonempty]
    · rw [List.take_of_length_le (by simp), session]
    · rw [paramsReady_iff _ (codec ▸ supported), codec] at ready
      exact fun slot needed =>
        (sessionOf_sound cfg _ _ _ session).2 slot (ready slot needed)
    · rw [begun.content, paramSetBytes, codec, Session.sets, List.take_length,
        List.drop_eq_nil_of_le (by simp)]
      simp [packets]

section Runs

variable (mounts : List MntEnt) (nowNs : UInt64)

theorem waits_run (require : cfg.requireNfsMount = false) (inputs : List Input) :
    AllWait (run cfg mounts nowNs inputs) := by
  refine Run.history (step cfg) (start cfg mounts nowNs) (fun _ m => AllWait m)
    (fun _ waiting => by cases waiting) (fun past input waits => ?_) inputs
  refine (step_waits cfg (ledger_run cfg mounts nowNs past) waits input).mpr ?_
  rintro ⟨-, -, -, -, unavailable⟩
  rw [storageUnavailable, require] at unavailable
  cases unavailable

/-- The entries of a run belong to its events. -/
theorem run_early (inputs : List Input) :
    ∀ entry ∈ (run cfg mounts nowNs inputs).w.log, entry.event < inputs.length := by
  intro entry member
  obtain ⟨input, place, -⟩ := log_origin cfg (P := fun _ _ => True)
    (fun input => admits_all cfg input.event input.answers) (fun _ _ _ => trivial) mounts nowNs inputs
    entry member
  exact (List.getElem?_eq_some_iff.mp place).1

/-- The event at work on its own stream. -/
theorem told_event (require : cfg.requireNfsMount = false) (past : List Input) (input : Input)
    (valid : validStream cfg input.event.streamId = true)
    (told : Told cfg past (run cfg mounts nowNs past)) :
    let c := (run cfg mounts nowNs past).ctx input.event.streamId
    let c' := processEvent cfg input.event input.answers c
    Renames c c' ∧ ∀ file, c'.s.fp = some file →
      ∃ k path, ⟨k, .fopen path (some file)⟩ ∈ c'.w.log ∧
        Consists cfg (past ++ [input]) input.event.streamId k (past ++ [input]).length
          (written (entriesOf c'.w.log file)) := by
  have ledger := ledger_run cfg mounts nowNs past
  have custody := ledger.custody cfg input.event.streamId
  have event : (run cfg mounts nowNs past).w.event = past.length := run_event cfg mounts nowNs past
  unfold processEvent
  cases type : input.event.type with
  | streamStart =>
    refine ⟨processStreamStart_renames cfg custody _ _, fun file held => ?_⟩
    exact absurd (held.symm.trans (start_idle cfg _ _ _)) nofun
  | streamStop =>
    exact ⟨(closeSegment_renames cfg custody input.answers.finish).silent (.fields rfl rfl)
      fun _ _ => rfl, fun file held => nomatch held⟩
  | video =>
    obtain ⟨renames, fate⟩ := processVideo_effect cfg custody (ledger.sound _) require
      (waits_run cfg mounts nowNs require past _) input.event (ledger.taken cfg _ _)
      (valid_le cfg _ valid) input.answers
    have work := (processEvent_work cfg ledger input valid).1.log
    simp only [processEvent, type] at work
    refine ⟨renames, fun file held => ?_⟩
    refine told_packet cfg type event (session_run cfg _ mounts nowNs past valid) ?_ held
      (told.held input.event.streamId) (fate file held)
    obtain ⟨entries, log⟩ := work
    intro entry member
    rw [log]
    exact List.mem_append_left _ member

theorem told_step (require : cfg.requireNfsMount = false) (past : List Input) (input : Input)
    (told : Told cfg past (run cfg mounts nowNs past)) :
    Told cfg (past ++ [input]) (step cfg (run cfg mounts nowNs past) input) := by
  have ledger := ledger_run cfg mounts nowNs past
  have event := run_event cfg mounts nowNs past
  have early : ∀ entry ∈ (run cfg mounts nowNs past).w.log, ∀ found,
      (past ++ [input])[entry.event]? = some found → past[entry.event]? = some found := by
    intro entry member found place
    rwa [List.getElem?_append_left (run_early cfg mounts nowNs past entry member)] at place
  unfold step
  cases valid : validStream cfg input.event.streamId
  · have after := told.install cfg ledger event (ledger.custody cfg input.event.streamId)
      (fun _ member _ _ _ _ => .inl member) [input] (by simp) early fun file held => by
        have known := ledger.valid _ file held
        rw [valid] at known
        cases known
    rw [Machine.install_ctx] at after
    exact ⟨after.held, after.renamed⟩
  · obtain ⟨renames, own⟩ := told_event cfg mounts nowNs require past input valid told
    have after := told.install cfg ledger event (processEvent_work cfg ledger input valid).1 renames
      [input] (by simp) early own
    exact ⟨after.held, after.renamed⟩

theorem told_run (require : cfg.requireNfsMount = false) (inputs : List Input) :
    Told cfg inputs (run cfg mounts nowNs inputs) := by
  have initial : Told cfg [] (start cfg mounts nowNs) :=
    ⟨fun _ _ holds => (by cases holds), fun _ member _ _ _ _ => (by cases member)⟩
  exact Run.history (step cfg) (start cfg mounts nowNs) (Told cfg) initial
    (told_step cfg mounts nowNs require) inputs

end Runs

/-- Closing all streams makes nothing but renames of what is still open. -/
theorem told_close (inputs : List Input) (answers : Nat → CloseAnswers) (streams : List Nat)
    (valid : ∀ stream ∈ streams, validStream cfg stream = true) (m : Machine)
    (ledger : Ledger cfg m) (event : m.w.event = inputs.length) (told : Told cfg inputs m) :
    Told cfg inputs (closeStreams cfg answers streams m) := by
  induction streams generalizing m with
  | nil => exact told
  | cons stream rest ih =>
    have known := valid stream (by simp)
    have custody := ledger.custody cfg stream
    obtain ⟨closed, idle⟩ := closeSegment_work cfg custody (ledger.sound stream) (answers stream)
    have freed : Custody cfg stream (m.ctx stream)
        (freeParamSets (closeSegment cfg (answers stream) true (m.ctx stream)).1) :=
      closed.custody.replace cfg idle idle rfl
    have renames : Renames (m.ctx stream)
        (freeParamSets (closeSegment cfg (answers stream) true (m.ctx stream)).1) :=
      (closeSegment_renames cfg custody (answers stream)).silent (.fields rfl rfl) fun _ _ => rfl
    have after := told.install cfg ledger event freed renames [] (by simp)
      (fun _ _ _ place => by simpa using place)
      fun file held => by
        rw [show (freeParamSets (closeSegment cfg (answers stream) true (m.ctx stream)).1).s.fp = none
          from idle] at held
        cases held
    rw [List.append_nil] at after
    exact ih (fun later member => valid later (by simp [member])) _
      (closeStream_ledger cfg ledger (answers stream) stream known).1
      (freed.event.trans event) after

theorem Reached.told {mounts : List MntEnt} {nowNs : UInt64} {inputs : List Input} {m : Machine}
    (require : cfg.requireNfsMount = false) (reached : Reached cfg mounts nowNs inputs m) :
    Told cfg inputs m := by
  have running := told_run cfg mounts nowNs require inputs
  rcases reached with rfl | ⟨answers, rfl⟩
  · exact running
  · exact told_close cfg inputs answers _ (fun stream member => (range_valid cfg stream).mp member) _
      (ledger_run cfg mounts nowNs inputs) (run_event cfg mounts nowNs inputs) running

/-- The writes of the event that report success have written. -/
def Input.Wrote (input : Input) : Prop :=
  ∀ part answer, input.answers.write.Gives part answer → answer.Wrote

/-- An input's writes among the calls of a run. -/
def WritesThrough (input : Input) (call : Call) : Prop :=
  input.Wrote → ∀ file part data answer, call = .fwrite file part data answer → answer.Wrote

theorem writesThrough_admits (input : Input) :
    Admits cfg (WritesThrough input) input.event input.answers where
  soft := by
    rintro call soft - file part data answer rfl
    exact soft.elim
  closing := by
    rintro call closing - file part data answer rfl
    exact closing.elim
  quiet := by
    rintro call quiet - file part data answer rfl
    cases quiet
  fopen := by
    rintro - codec file - - file' part data answer same
    cases same
  fwrite := by
    intro file part data answer given wrote file' part' data' answer' same
    obtain ⟨-, rfl, -, rfl⟩ := Call.fwrite.inj same
    exact wrote part answer given

/-- Writes that succeeded held nothing back. -/
theorem Reached.passed {mounts : List MntEnt} {nowNs : UInt64} {inputs : List Input} {m : Machine}
    (reached : Reached cfg mounts nowNs inputs m) (wrote : ∀ input ∈ inputs, input.Wrote)
    {entries : List Entry} (listed : ∀ entry ∈ entries, entry ∈ m.w.log) (intact : Intact entries) :
    Passed entries := by
  intro entry member file part data answer same
  have origin := log_origin cfg (writesThrough_admits cfg)
    (fun _ _ _ _ _ _ _ _ same => by cases same) mounts nowNs inputs
  have early : entry ∈ (run cfg mounts nowNs inputs).w.log := by
    have inside := listed entry member
    rcases reached with rfl | ⟨answers, rfl⟩
    · exact inside
    · obtain ⟨calls, log, each⟩ := shutdown_log cfg answers (run cfg mounts nowNs inputs)
      rw [log] at inside
      rcases List.mem_append.mp inside with before | last
      · exact before
      · obtain ⟨call, made, rfl⟩ := List.mem_map.mp last
        subst same
        rcases each _ made with soft | closing
        · exact soft.elim
        · exact closing.elim
  obtain ⟨input, place, through⟩ := origin entry early
  exact through (wrote input (List.mem_of_getElem? place)) file part data answer same
    (intact entry member file part data answer same)

/-- A file that is renamed was opened once. -/
theorem Ledger.opened_once {m : Machine} (ledger : Ledger cfg m) {entry : Entry}
    (member : entry ∈ m.w.log) {segment : Segment} {content : Option Bytes} {ok : Bool}
    (rename : entry.call = .rename segment content ok) :
    ∃ k, ∀ j path, ⟨j, .fopen path (some segment.file)⟩ ∈ m.w.log ↔ j = k ∧ path = segment.tmp := by
  have inside : entry ∈ entriesOf m.w.log segment.file :=
    mem_entriesOf.mpr ⟨member, by simp [rename, Call.file]⟩
  obtain ⟨closed, before, ⟨k, writes, rfl, sound⟩, -, shape, -⟩ :=
    (ledger.renamed cfg member rename).rename cfg inside rename
  refine ⟨k, fun j path => ?_⟩
  have own : (⟨j, .fopen path (some segment.file)⟩ : Entry) ∈ m.w.log ↔
      ⟨j, .fopen path (some segment.file)⟩ ∈ entriesOf m.w.log segment.file := by
    rw [mem_entriesOf]
    exact ⟨fun inside => ⟨inside, rfl⟩, And.left⟩
  rw [own, shape]
  have not_write : ⟨j, .fopen path (some segment.file)⟩ ∉ writes := by
    intro listed
    obtain ⟨_, _, _, same⟩ := sound _ listed
    cases same
  simp [not_write]

/-- At its rename a file holds the parameter sets of its session, the packet with a key
frame that opened it and all packets up to the event that closed it; a segment that
this event opened goes on with its packet. -/
theorem finalized_content (require : cfg.requireNfsMount = false) (mounts : List MntEnt)
    (nowNs : UInt64) (inputs : List Input) (wrote : ∀ input ∈ inputs, input.Wrote) (m : Machine)
    (reached : Reached cfg mounts nowNs inputs m) (entry : Entry) (member : entry ∈ m.w.log)
    (segment : Segment) (content : Option Bytes) (ok : Bool)
    (rename : entry.call = .rename segment content ok) :
    (∃ k bytes, ⟨k, .fopen segment.tmp (some segment.file)⟩ ∈ m.w.log ∧ content = some bytes ∧
      Consists cfg inputs segment.stream k entry.event bytes) ∧
    ∀ later ∈ m.w.log, ∀ next content' ok', later.call = .rename next content' ok' →
      ⟨entry.event, .fopen next.tmp (some next.file)⟩ ∈ m.w.log →
      next.stream = segment.stream ∧
        ∃ bytes, content' = some bytes ∧
          Consists cfg inputs segment.stream entry.event later.event bytes := by
  have ledger := reached.ledger cfg
  have told := reached.told cfg require
  have whole (entry : Entry) (member : entry ∈ m.w.log) (segment : Segment)
      (content : Option Bytes) (ok : Bool) (rename : entry.call = .rename segment content ok) :
      content = some (written (entriesOf m.w.log segment.file)) := by
    obtain ⟨closed, before, -, intact, shape, -, -, -, content_eq⟩ :=
      (ledger.renamed cfg member rename).rename cfg
        (mem_entriesOf.mpr ⟨member, by simp [rename, Call.file]⟩) rename
    have listed : ∀ entry ∈ before, entry ∈ m.w.log := by
      intro entry inside
      have inLog : entry ∈ entriesOf m.w.log segment.file := by
        rw [shape]
        exact List.mem_append_left _ inside
      exact (mem_entriesOf.mp inLog).1
    rw [content_eq (.inr (reached.passed cfg wrote listed intact)), shape, written_append]
    simp [written, Call.written]
  constructor
  · obtain ⟨⟨k, path, opened, consists⟩, -⟩ := told.renamed entry member segment content ok rename
    obtain ⟨only, once⟩ := ledger.opened_once cfg member rename
    obtain ⟨rfl, rfl⟩ := (once k path).mp opened
    exact ⟨k, _, opened, whole entry member segment content ok rename, consists⟩
  · intro later inside next content' ok' renames opens
    obtain ⟨⟨k, path, opened, consists⟩, -⟩ := told.renamed later inside next content' ok' renames
    obtain ⟨only, once⟩ := ledger.opened_once cfg inside renames
    obtain ⟨rfl, rfl⟩ := (once k path).mp opened
    obtain ⟨same, -⟩ := (once _ _).mp opens
    obtain ⟨first, session, place, packet, -⟩ := consists.content
    have stream : next.stream = segment.stream := by
      have named := (told.renamed entry member segment content ok rename).2 first (same ▸ place)
      simp only [isPacket, Bool.and_eq_true, decide_eq_true_eq] at packet
      exact packet.1.1.symm.trans named
    refine ⟨stream, _, whole later inside next content' ok' renames, ?_⟩
    rw [← stream, same]
    exact consists

/-- A raw slice in the first segment, and a rollover after a minute. -/
def rollingInputs : List Input :=
  [startAt 1 1000, videoAt 1 1100 keyPacket, videoAt 1 1200 [0x41, 2], videoAt 1 62000 keyPacket,
    stopAt 1 62100]

def rolledSegment : Segment :=
  ⟨0, 1, 0, 1100, "/rec/raw/s01/20240101_000001.h264.tmp".toList,
    "/rec/raw/s01/20240101_000001.h264".toList⟩

def rolledContent : Bytes := keyPacket.take 12 ++ keyPacket ++ [0, 0, 0, 1, 0x41, 2]

set_option maxRecDepth 10000 in
theorem finalized_content_rolling :
    ∃ k, Consists (sampleConfig false) rollingInputs 1 k 3 rolledContent := by
  have wrote : ∀ input ∈ rollingInputs, input.Wrote := by
    intro input member part answer gives
    have good : input.answers = goodAnswers := by
      simp only [rollingInputs, List.mem_cons, List.not_mem_nil, or_false] at member
      rcases member with rfl | rfl | rfl | rfl | rfl <;> rfl
    rw [good] at gives
    rcases gives with ⟨-, i, rfl⟩ | ⟨-, rfl | rfl⟩ <;> exact fun _ => rfl
  obtain ⟨⟨k, bytes, -, same, consists⟩, -⟩ := finalized_content (sampleConfig false) rfl [] 1
    rollingInputs wrote _ (.inl rfl) ⟨3, .rename rolledSegment (some rolledContent) true⟩ (by decide)
    rolledSegment (some rolledContent) true rfl
  obtain rfl := Option.some.inj same
  exact ⟨k, consists⟩

end StreamRelay.Recorder
