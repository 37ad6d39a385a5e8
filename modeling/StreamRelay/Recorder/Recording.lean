import StreamRelay.Recorder.Content

/-! The recording of a stream over all its files. A file is opened when the last one is finished,
so the packets of one file behind those of the other are in the order of the stream. -/
namespace StreamRelay.Recorder

section Slices

variable {α : Type*}

/-- Parts of a list that lie one behind the other. -/
theorem slices_sublist (spans : List (Nat × Nat)) (list : List α)
    (apart : spans.Pairwise fun a b => a.2 ≤ b.1) :
    (spans.flatMap fun span => (list.take span.2).drop span.1).Sublist list := by
  induction spans using List.reverseRecOn generalizing list with
  | nil => exact List.nil_sublist _
  | append_singleton spans last ih =>
    obtain ⟨before, -, below⟩ := List.pairwise_append.mp apart
    have earlier := ih (list.take last.1) before
    have same : ∀ span ∈ spans, ((list.take last.1).take span.2).drop span.1 =
        (list.take span.2).drop span.1 := by
      intro span member
      rw [List.take_take, Nat.min_eq_left (below span member last (List.mem_singleton_self _))]
    rw [List.flatMap_congr same] at earlier
    have final : ((list.take last.2).drop last.1).Sublist (list.drop last.1) := by
      rw [List.drop_take]
      exact List.take_sublist _ _
    have both := earlier.append final
    rwa [List.take_append_drop, ← List.flatMap_singleton (fun span : Nat × Nat =>
      (list.take span.2).drop span.1) last, ← List.flatMap_append] at both

end Slices

variable (cfg : Config)

def Entry.finalizes (stream : Nat) (entry : Entry) : Bool :=
  match entry.call with
  | .rename segment _ _ => segment.stream = stream
  | _ => false

/-- The renames of the segments of a stream. -/
def renamesOf (stream : Nat) (log : List Entry) : List Entry := log.filter (Entry.finalizes stream)

theorem Entry.finalizes_iff {stream : Nat} {entry : Entry} :
    entry.finalizes stream = true ↔
      ∃ segment content ok, entry.call = .rename segment content ok ∧ segment.stream = stream := by
  unfold Entry.finalizes
  cases entry.call <;> simp

/-- The file was not opened before the entry. -/
def OpenedBehind (log : List Entry) (file : Nat) (entry : Entry) : Prop :=
  ∀ k path, ⟨k, .fopen path (some file)⟩ ∈ log → entry.event ≤ k

/-- The files of a stream follow one another, the one that it holds behind all others. -/
structure Successive (stream : Nat) (m : Machine) : Prop where
  finished : (renamesOf stream m.w.log).Pairwise fun a b =>
    ∀ file, b.call.file = some file → OpenedBehind m.w.log file a
  held : ∀ file, (m.streams stream).fp = some file →
    ∀ a ∈ renamesOf stream m.w.log, OpenedBehind m.w.log file a

theorem Unclosed.opened_once {file : Nat} {tmp : CString} {entries : List Entry}
    (unclosed : Unclosed file tmp entries) :
    ∃ k, ∀ j path, ⟨j, .fopen path (some file)⟩ ∈ entries ↔ j = k ∧ path = tmp := by
  obtain ⟨k, writes, rfl, sound⟩ := unclosed
  refine ⟨k, fun j path => ?_⟩
  have not_write : ⟨j, .fopen path (some file)⟩ ∉ writes := by
    intro listed
    obtain ⟨_, _, _, same⟩ := sound _ listed
    cases same
  simp [not_write]

theorem opened_entriesOf {log : List Entry} {file k : Nat} {path : CString} :
    (⟨k, .fopen path (some file)⟩ : Entry) ∈ log ↔
      ⟨k, .fopen path (some file)⟩ ∈ entriesOf log file := by
  rw [mem_entriesOf]
  exact ⟨fun inside => ⟨inside, rfl⟩, And.left⟩

/-- With nothing more about its file, an entry is behind no other opening. -/
theorem OpenedBehind.frame {log log' : List Entry} {file : Nat} {entry : Entry}
    (behind : OpenedBehind log file entry) (same : entriesOf log' file = entriesOf log file) :
    OpenedBehind log' file entry := by
  intro k path opened
  rw [opened_entriesOf, same, ← opened_entriesOf] at opened
  exact behind k path opened

variable {m : Machine} {stream : Nat} {c' : Ctx}

/-- A file that a stream holds was opened once. -/
theorem Ledger.held_opened (ledger : Ledger cfg m) {file : Nat}
    (holds : (m.streams stream).fp = some file) :
    ∃ k tmp, ∀ j path, ⟨j, .fopen path (some file)⟩ ∈ m.w.log ↔ j = k ∧ path = tmp := by
  obtain ⟨k, only⟩ := (ledger.held stream file holds).unclosed.opened_once
  exact ⟨k, _, fun j path => opened_entriesOf.trans (only j path)⟩

/-- A file has one rename. -/
theorem Ledger.renamed_once (ledger : Ledger cfg m) (stream : Nat) {entry : Entry} (member : entry ∈ m.w.log)
    {segment : Segment} {content : Option Bytes} {ok : Bool}
    (rename : entry.call = .rename segment content ok) :
    ((entriesOf m.w.log segment.file).filter (Entry.finalizes stream)).Sublist [entry] := by
  have inside : entry ∈ entriesOf m.w.log segment.file :=
    mem_entriesOf.mpr ⟨member, by simp [rename, Call.file]⟩
  obtain ⟨closed, before, unclosed, -, shape, -⟩ :=
    (ledger.renamed cfg member rename).rename cfg inside rename
  have none_before : before.filter (Entry.finalizes stream) = [] := by
    rw [List.filter_eq_nil_iff]
    intro earlier listed finalizes
    obtain ⟨segment', content', ok', same, -⟩ := Entry.finalizes_iff.mp finalizes
    exact unclosed.not_renamed earlier listed _ _ _ same
  have same : (⟨entry.event, .rename segment content ok⟩ : Entry) = entry := by rw [← rename]
  rw [shape, List.filter_append, none_before, List.nil_append, same,
    List.filter_cons_of_neg (by simp [Entry.finalizes])]
  exact List.filter_sublist

section Install

variable {calls : List Call}

/-- What work on one stream adds for other files: nothing for those that are finished. -/
theorem Custody.entries_renamed (ledger : Ledger cfg m)
    (custody : Custody cfg stream (m.ctx stream) c') {entry : Entry} (member : entry ∈ m.w.log)
    {segment : Segment} {content : Option Bytes} {ok : Bool}
    (rename : entry.call = .rename segment content ok) :
    entriesOf c'.w.log segment.file = entriesOf m.w.log segment.file := by
  obtain ⟨bound, unheld⟩ := ledger.renamed_apart cfg member rename
  exact custody.entries_frame _ bound (unheld stream)

/-- The renames added are of the file that the stream held. -/
theorem Custody.renames_held (ledger : Ledger cfg m) (custody : Custody cfg stream (m.ctx stream) c')
    (renames : Renames (m.ctx stream) c')
    (log : c'.w.log = m.w.log ++ calls.map (Entry.mk m.w.event)) {entry : Entry}
    (added : entry ∈ calls.map (Entry.mk m.w.event)) {segment : Segment}
    {content : Option Bytes} {ok : Bool} (rename : entry.call = .rename segment content ok) :
    (m.streams stream).fp = some segment.file ∧ segment.stream = stream := by
  have member : entry ∈ c'.w.log := by
    rw [log]
    exact List.mem_append_right _ added
  rcases renames entry member segment content ok rename with old | ⟨-, holds, mine, -⟩
  · have same := custody.entries_renamed cfg ledger old rename
    have split : entriesOf c'.w.log segment.file = entriesOf m.w.log segment.file ++
        entriesOf (calls.map (Entry.mk m.w.event)) segment.file := by
      rw [log, entriesOf_append]
    rw [same, List.self_eq_append_right] at split
    have inside : entry ∈ entriesOf (calls.map (Entry.mk m.w.event)) segment.file :=
      mem_entriesOf.mpr ⟨added, by simp [rename, Call.file]⟩
    rw [split] at inside
    cases inside
  · exact ⟨holds, mine.trans (ledger.held stream _ holds).streamId⟩

/-- An entry of a file opened by the work at hand is behind no opening of it. -/
theorem behind_new (ledger : Ledger cfg m)
    (log : c'.w.log = m.w.log ++ calls.map (Entry.mk m.w.event)) {file : Nat}
    (fresh : m.w.store.next ≤ file) {entry : Entry} (early : entry.event ≤ m.w.event) :
    OpenedBehind c'.w.log file entry := by
  intro k path opened
  rw [opened_entriesOf, log, entriesOf_append, ledger.fresh file fresh, List.nil_append,
    ← opened_entriesOf] at opened
  obtain ⟨call, -, same⟩ := List.mem_map.mp opened
  rw [← (Entry.mk.inj same).1]
  exact early

/-- The file that a stream still holds is not opened again. -/
theorem behind_held (ledger : Ledger cfg m)
    (log : c'.w.log = m.w.log ++ calls.map (Entry.mk m.w.event)) {file : Nat}
    (holds : (m.streams stream).fp = some file)
    (once : ∃ k tmp, ∀ j path, ⟨j, .fopen path (some file)⟩ ∈ c'.w.log ↔ j = k ∧ path = tmp)
    {entry : Entry} (behind : OpenedBehind m.w.log file entry) :
    OpenedBehind c'.w.log file entry := by
  obtain ⟨k, tmp, opened⟩ := ledger.held_opened cfg holds
  obtain ⟨k', tmp', opened'⟩ := once
  have there : (⟨k, .fopen tmp (some file)⟩ : Entry) ∈ m.w.log := (opened k tmp).mpr ⟨rfl, rfl⟩
  have still : (⟨k, .fopen tmp (some file)⟩ : Entry) ∈ c'.w.log := by
    rw [log]
    exact List.mem_append_left _ there
  obtain ⟨same, -⟩ := (opened' k tmp).mp still
  intro j path again
  obtain ⟨rfl, -⟩ := (opened' j path).mp again
  exact behind _ tmp (same ▸ there)

theorem renamesOf_append (other : Nat) (first second : List Entry) :
    renamesOf other (first ++ second) = renamesOf other first ++ renamesOf other second :=
  List.filter_append ..

/-- Work on one stream finalizes one file at most. -/
theorem Successive.added_pairwise {other : Nat} {m' : Machine} {new : List Entry}
    (after : Ledger cfg m') (grown : ∃ old, m'.w.log = old ++ new)
    (one : ∃ file, ∀ entry ∈ renamesOf other new, ∃ segment content ok,
      entry.call = .rename segment content ok ∧ segment.file = file)
    {R : Entry → Entry → Prop} : (renamesOf other new).Pairwise R := by
  obtain ⟨old, log⟩ := grown
  obtain ⟨file, own⟩ := one
  cases shape : renamesOf other new with
  | nil => exact .nil
  | cons entry rest =>
    have finalizes : entry ∈ renamesOf other new := by simp [shape]
    have inside : entry ∈ m'.w.log := by
      rw [log]
      exact List.mem_append_right _ (List.mem_filter.mp finalizes).1
    obtain ⟨segment, content, ok, rename, rfl⟩ := own entry finalizes
    have among : renamesOf other new =
        (entriesOf new segment.file).filter (Entry.finalizes other) := by
      rw [renamesOf, entriesOf, List.filter_filter]
      refine List.filter_congr fun found listed => ?_
      cases finalizes : found.finalizes other
      · rfl
      · obtain ⟨_, _, _, rename', same⟩ := own found (List.mem_filter.mpr ⟨listed, finalizes⟩)
        simp [rename', Call.file, same]
    have once := after.renamed_once cfg other inside rename
    rw [log, entriesOf_append, List.filter_append, ← among, shape] at once
    exact .sublist ((List.sublist_append_right _ _).trans once) (List.pairwise_singleton R entry)

/-- Work on one stream keeps the files of all streams apart. -/
theorem Successive.install (successive : ∀ stream, Successive stream m) (ledger : Ledger cfg m)
    (after : Ledger cfg (m.install stream c')) (custody : Custody cfg stream (m.ctx stream) c')
    (renames : Renames (m.ctx stream) c')
    (log : c'.w.log = m.w.log ++ calls.map (Entry.mk m.w.event))
    (early : ∀ entry ∈ m.w.log, entry.event ≤ m.w.event) (other : Nat) :
    Successive other (m.install stream c') := by
  have all_early : ∀ entry ∈ c'.w.log, entry.event ≤ m.w.event := by
    intro entry member
    rw [log] at member
    rcases List.mem_append.mp member with before | new
    · exact early entry before
    · obtain ⟨call, -, rfl⟩ := List.mem_map.mp new
      exact le_rfl
  have old_frame {entry : Entry} (member : entry ∈ renamesOf other m.w.log) {file : Nat}
      (own : entry.call.file = some file) :
      entriesOf c'.w.log file = entriesOf m.w.log file := by
    obtain ⟨inside, finalizes⟩ := List.mem_filter.mp member
    obtain ⟨segment, content, ok, rename, -⟩ := Entry.finalizes_iff.mp finalizes
    rw [rename] at own
    obtain rfl := Option.some.inj own
    exact custody.entries_renamed cfg ledger inside rename
  have added {entry : Entry}
      (member : entry ∈ renamesOf other (calls.map (Entry.mk m.w.event))) :
      ∃ segment content ok, entry.call = .rename segment content ok ∧
        (m.streams stream).fp = some segment.file ∧ other = stream := by
    obtain ⟨inside, finalizes⟩ := List.mem_filter.mp member
    obtain ⟨segment, content, ok, rename, own⟩ := Entry.finalizes_iff.mp finalizes
    obtain ⟨holds, mine⟩ := custody.renames_held cfg ledger renames log inside rename
    exact ⟨segment, content, ok, rename, holds, own.symm.trans mine⟩
  have parts : renamesOf other c'.w.log =
      renamesOf other m.w.log ++ renamesOf other (calls.map (Entry.mk m.w.event)) := by
    rw [log, renamesOf_append]
  constructor
  · rw [Machine.install_w, parts]
    refine List.pairwise_append.mpr ⟨?old, ?new, ?cross⟩
    case old =>
      refine (successive other).finished.imp_of_mem fun _ inside behind file own => ?_
      exact (behind file own).frame (old_frame inside own)
    case new =>
      refine Successive.added_pairwise cfg after ⟨m.w.log, log⟩ ?_
      cases holds : (m.streams stream).fp with
      | none =>
        refine ⟨0, fun entry member => ?_⟩
        obtain ⟨_, _, _, _, held, -⟩ := added member
        cases holds.symm.trans held
      | some file =>
        refine ⟨file, fun entry member => ?_⟩
        obtain ⟨segment, content, ok, rename, held, -⟩ := added member
        exact ⟨segment, content, ok, rename, Option.some.inj (held.symm.trans holds)⟩
    case cross =>
      intro a before b new file own
      obtain ⟨segment, content, ok, rename, holds, rfl⟩ := added new
      rw [rename] at own
      obtain rfl := Option.some.inj own
      have inside : b ∈ c'.w.log := by
        rw [log]
        exact List.mem_append_right _ (List.mem_filter.mp new).1
      obtain ⟨k, once⟩ := after.opened_once cfg inside rename
      exact behind_held cfg ledger log holds ⟨k, _, once⟩ ((successive other).held _ holds a before)
  · intro file holds a member
    rw [Machine.install_w, parts] at member
    by_cases same : other = stream
    · subst same
      have still := holds
      rw [Machine.install_self] at holds
      rcases (custody.own file holds).2 with before | fresh
      · rcases List.mem_append.mp member with old | new
        · exact behind_held cfg ledger log before (after.held_opened cfg still)
            ((successive other).held file before a old)
        · obtain ⟨segment, content, ok, rename, held, -⟩ := added new
          have inside : a ∈ c'.w.log := by
            rw [log]
            exact List.mem_append_right _ (List.mem_filter.mp new).1
          obtain rfl : segment.file = file := Option.some.inj (held.symm.trans before)
          exact ((after.renamed_apart cfg inside rename).2 other still).elim
      · refine behind_new cfg ledger log fresh (all_early a ?_)
        rw [← parts] at member
        exact (List.mem_filter.mp member).1
    · rw [Machine.install_other _ _ _ _ same] at holds
      rcases List.mem_append.mp member with old | new
      · refine ((successive other).held file holds a old).frame ?_
        exact custody.entries_frame file (ledger.lt other file holds)
          fun mine => same (ledger.apart other stream file holds mine)
      · obtain ⟨_, _, _, _, _, mine⟩ := added new
        exact (same mine).elim

end Install

section Runs

variable (mounts : List MntEnt) (nowNs : UInt64)

theorem successive_step (require : cfg.requireNfsMount = false) (past : List Input) (input : Input)
    (successive : ∀ stream, Successive stream (run cfg mounts nowNs past)) (stream : Nat) :
    Successive stream (step cfg (run cfg mounts nowNs past) input) := by
  have ledger := ledger_run cfg mounts nowNs past
  have early : ∀ entry ∈ (run cfg mounts nowNs past).w.log,
      entry.event ≤ (run cfg mounts nowNs past).w.event := by
    intro entry member
    rw [run_event]
    exact Nat.le_of_lt (run_early cfg mounts nowNs past entry member)
  obtain ⟨calls, log, -⟩ := step_emits cfg (P := fun _ => True) ledger input
    (admits_all cfg _ _) (fun _ _ _ _ => trivial) (fun _ => trivial)
  unfold step at log ⊢
  cases valid : validStream cfg input.event.streamId
  · exact ⟨(successive stream).finished, (successive stream).held⟩
  · simp only [valid, if_true] at log
    obtain ⟨renames, -⟩ := told_event cfg mounts nowNs require past input valid
      (told_run cfg mounts nowNs require past)
    obtain ⟨custody, sound, armed⟩ := processEvent_work cfg ledger input valid
    have after := Successive.install cfg successive ledger
      (ledger.install cfg _ valid custody sound armed) custody renames log early stream
    exact ⟨after.finished, after.held⟩

theorem successive_run (require : cfg.requireNfsMount = false) (inputs : List Input) (stream : Nat) :
    Successive stream (run cfg mounts nowNs inputs) := by
  refine Run.history (step cfg) (start cfg mounts nowNs) (fun _ m => ∀ stream, Successive stream m)
    (fun _ => ⟨.nil, fun _ held => (by cases held)⟩) ?_ inputs stream
  exact fun past input before => successive_step cfg mounts nowNs require past input before

end Runs

theorem successive_close (answers : Nat → CloseAnswers) (streams : List Nat)
    (valid : ∀ stream ∈ streams, validStream cfg stream = true) (m : Machine)
    (ledger : Ledger cfg m) (early : ∀ entry ∈ m.w.log, entry.event ≤ m.w.event)
    (successive : ∀ stream, Successive stream m) (stream : Nat) :
    Successive stream (closeStreams cfg answers streams m) := by
  induction streams generalizing m with
  | nil => exact successive stream
  | cons first rest ih =>
    have custody := ledger.custody cfg first
    obtain ⟨closed, idle⟩ := closeSegment_work cfg custody (ledger.sound first) (answers first)
    have freed : Custody cfg first (m.ctx first)
        (freeParamSets (closeSegment cfg (answers first) true (m.ctx first)).1) :=
      closed.custody.replace cfg idle idle rfl
    have renames : Renames (m.ctx first)
        (freeParamSets (closeSegment cfg (answers first) true (m.ctx first)).1) :=
      (closeSegment_renames cfg custody (answers first)).silent (.fields rfl rfl) fun _ _ => rfl
    obtain ⟨calls, emits, -⟩ := closeSegment_emitting cfg (P := fun _ => True)
      ⟨fun _ _ => trivial, fun _ _ => trivial⟩ (answers first) true (m.ctx first)
    obtain ⟨after, -⟩ := closeStream_ledger cfg ledger (answers first) first (valid first (by simp))
    refine ih (fun later member => valid later (by simp [member])) _ after ?_ fun other =>
      Successive.install cfg successive ledger after freed renames emits.log early other
    intro entry member
    have event : (freeParamSets (closeSegment cfg (answers first) true (m.ctx first)).1).w.event =
        m.w.event := emits.event
    rw [Machine.onStream, Machine.install_w] at member ⊢
    rw [event]
    rcases List.mem_append.mp (emits.log ▸ member) with before | new
    · exact early entry before
    · obtain ⟨call, -, rfl⟩ := List.mem_map.mp new
      exact le_rfl

theorem Reached.successive {mounts : List MntEnt} {nowNs : UInt64} {inputs : List Input} {m : Machine}
    (require : cfg.requireNfsMount = false) (reached : Reached cfg mounts nowNs inputs m)
    (stream : Nat) : Successive stream m := by
  have running := successive_run cfg mounts nowNs require inputs
  rcases reached with rfl | ⟨answers, rfl⟩
  · exact running stream
  · refine successive_close cfg answers _ (fun stream member => (range_valid cfg stream).mp member) _
      (ledger_run cfg mounts nowNs inputs) (fun entry member => ?_) running stream
    rw [run_event]
    exact Nat.le_of_lt (run_early cfg mounts nowNs inputs entry member)

section Recordings

/-- What a finished file holds: parameter sets, and packets from one with a key frame on. -/
structure Recording where
  session : Session
  first : Bytes
  rest : List Bytes

def Recording.packets (recording : Recording) : List Bytes := recording.first :: recording.rest

def Recording.bytes (recording : Recording) : Bytes :=
  recording.session.sets ++ recording.packets.flatMap annexB

/-- It was recorded in a session of the stream. -/
structure Recording.Recorded (inputs : List Input) (stream : Nat) (recording : Recording) : Prop where
  session : ∃ past, past <+: inputs ∧ sessionOf cfg stream past = some recording.session
  ready : recording.session.Ready
  keyframe : hasKeyframe recording.session.codec recording.first = true

/-- The contents of the file that is renamed. -/
def Entry.content (entry : Entry) : Option Bytes :=
  match entry.call with
  | .rename _ content _ => content
  | _ => none

variable {cfg}

theorem Consists.recording {inputs : List Input} {stream k e : Nat} {content : Bytes}
    (consists : Consists cfg inputs stream k e content) :
    ∃ recording : Recording, recording.bytes = content ∧ recording.Recorded cfg inputs stream ∧
      recording.packets = packets stream ((inputs.take e).drop k) := by
  obtain ⟨ordered, bounded, -, first, session, place, packet, current, ready, keyframe, rfl⟩ := consists
  refine ⟨⟨session, first.event.data, packets stream ((inputs.take e).drop (k + 1))⟩, ?_,
    ⟨⟨inputs.take (k + 1), List.take_prefix _ _, current⟩, ready, keyframe⟩, ?_⟩
  · simp [Recording.bytes, Recording.packets]
  · obtain ⟨inside, rfl⟩ := List.getElem?_eq_some_iff.mp place
    have here : k < (inputs.take e).length := by
      rw [List.length_take]
      omega
    rw [List.drop_eq_getElem_cons here, List.getElem_take]
    simp [Recording.packets, packets, packet]

variable (cfg)

/-- What is handed to rename is what was written to the file. -/
theorem Reached.whole {mounts : List MntEnt} {nowNs : UInt64} {inputs : List Input}
    (wrote : ∀ input ∈ inputs, input.Wrote) {m : Machine} (reached : Reached cfg mounts nowNs inputs m)
    {entry : Entry} (member : entry ∈ m.w.log) {segment : Segment} {content : Option Bytes}
    {ok : Bool} (rename : entry.call = .rename segment content ok) :
    content = some (written (entriesOf m.w.log segment.file)) := by
  obtain ⟨closed, before, -, intact, shape, -, -, -, same⟩ :=
    ((reached.ledger cfg).renamed cfg member rename).rename cfg
      (mem_entriesOf.mpr ⟨member, by simp [rename, Call.file]⟩) rename
  have listed : ∀ entry ∈ before, entry ∈ m.w.log := by
    intro entry inside
    have there : entry ∈ entriesOf m.w.log segment.file := by
      rw [shape]
      exact List.mem_append_left _ inside
    exact (mem_entriesOf.mp there).1
  rw [same (.inr (reached.passed cfg wrote listed intact)), shape, written_append]
  simp [written, Call.written]

/-- The finished files of a stream one behind the other: all their packets are packets of the
stream, each at most once and in order. -/
theorem Reached.recordings (require : cfg.requireNfsMount = false) {mounts : List MntEnt}
    {nowNs : UInt64} {inputs : List Input} (wrote : ∀ input ∈ inputs, input.Wrote) {m : Machine}
    (reached : Reached cfg mounts nowNs inputs m) (stream : Nat) :
    ∃ recordings : List Recording,
      (renamesOf stream m.w.log).map Entry.content = recordings.map (fun recording => some recording.bytes) ∧
      (∀ recording ∈ recordings, recording.Recorded cfg inputs stream) ∧
      (recordings.flatMap Recording.packets).Sublist (packets stream inputs) := by
  have ledger := reached.ledger cfg
  have each : ∀ entry ∈ renamesOf stream m.w.log, ∃ (k : Nat) (recording : Recording),
      (∃ file path, entry.call.file = some file ∧ ⟨k, .fopen path (some file)⟩ ∈ m.w.log) ∧
      entry.content = some recording.bytes ∧ recording.Recorded cfg inputs stream ∧
      recording.packets = packets stream ((inputs.take entry.event).drop k) := by
    intro entry member
    obtain ⟨inside, finalizes⟩ := List.mem_filter.mp member
    obtain ⟨segment, content, ok, rename, rfl⟩ := Entry.finalizes_iff.mp finalizes
    obtain ⟨⟨k, path, opened, consists⟩, -⟩ :=
      (reached.told cfg require).renamed entry inside segment content ok rename
    obtain ⟨recording, bytes, recorded, same⟩ := consists.recording
    refine ⟨k, recording, ⟨_, path, by rw [rename]; rfl, opened⟩, ?_, recorded, same⟩
    rw [bytes, ← reached.whole cfg wrote inside rename, Entry.content, rename]
  have : Nonempty Recording := ⟨⟨0, fun _ => []⟩, [], []⟩
  choose! opening recording opened content recorded same using each
  refine ⟨(renamesOf stream m.w.log).map recording, ?_, ?_, ?_⟩
  · rw [List.map_map]
    exact List.map_congr_left content
  · rw [List.forall_mem_map]
    exact recorded
  · have apart : ((renamesOf stream m.w.log).map fun entry => (opening entry, entry.event)).Pairwise
        fun a b => a.2 ≤ b.1 := by
      rw [List.pairwise_map]
      refine (reached.successive cfg require stream).finished.imp_of_mem fun _ next behind => ?_
      obtain ⟨file, path, own, there⟩ := opened _ next
      exact behind file own _ path there
    have slices := slices_sublist _ inputs apart
    rw [List.flatMap_map] at slices ⊢
    have within := (slices.filter (isPacket stream)).map fun input => input.event.data
    rw [List.filter_flatMap, List.map_flatMap] at within
    rwa [List.flatMap_congr same]

end Recordings

end StreamRelay.Recorder
