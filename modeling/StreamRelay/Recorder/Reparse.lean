import StreamRelay.Recorder.Effects

/-! Reading a recorded file back. What the recorder writes is a join of start-coded
texts, so its own splitter finds the cached units and the units of every payload,
whatever stands at the boundaries between packets. -/
namespace StreamRelay.Recorder

/-- A payload as the format allows it: a start-coded text, or one unit alone. -/
inductive Payload where
  | coded (text : StartCode.Text UInt8) (valid : text.WellFormed 0 1) (nonempty : text.pieces ≠ [])
  | raw (unit : Bytes) (valid : StartCode.IsUnit 0 1 unit)

namespace Payload

def bytes : Payload → Bytes
  | coded text _ _ => text.symbols 0 1
  | raw unit _ => unit

def units : Payload → List Bytes
  | coded text _ _ => text.units
  | raw unit _ => [unit]

/-- The text of the payload in the file. -/
def text : Payload → StartCode.Text UInt8
  | coded text _ _ => text
  | raw unit _ => .single unit

theorem text_units (payload : Payload) : payload.text.units = payload.units := by
  cases payload <;> rfl

theorem text_valid (payload : Payload) : payload.text.WellFormed 0 1 := by
  cases payload with
  | coded text valid => exact valid
  | raw unit valid =>
    intro found member
    obtain rfl := List.mem_singleton.mp member
    exact valid

theorem text_nonempty (payload : Payload) : payload.text.pieces ≠ [] := by
  cases payload with
  | coded text valid nonempty => exact nonempty
  | raw unit valid => exact List.cons_ne_nil _ _

theorem bytes_nonempty (payload : Payload) : payload.bytes ≠ [] := by
  cases payload with
  | coded text valid nonempty =>
    intro empty
    have long := text.pieces_length_le 0 1
    rw [show text.symbols 0 1 = [] from empty] at long
    exact nonempty (List.eq_nil_of_length_eq_zero (Nat.le_zero.mp long))
  | raw unit valid => exact valid.nonempty

end Payload

theorem symbols_single (unit : Bytes) :
    (StartCode.Text.single unit).symbols 0 1 = startCode4 ++ unit := by
  simp [StartCode.Text.single, StartCode.Text.symbols, StartCode.Piece.text, startCode4]

/-- A payload reaches the file as its text. -/
theorem annexB_payload (payload : Payload) : annexB payload.bytes = payload.text.symbols 0 1 := by
  cases payload with
  | coded text valid nonempty =>
    obtain ⟨position, length, found, -⟩ := StartCode.scan_text 0 1 (by decide) text valid.spaced
        nonempty
    have starts : payloadHasStartCode (text.symbols 0 1) = true := by
      rw [payloadHasStartCode, findStartCode_eq, List.drop_zero, found]
      rfl
    rw [annexB, show (Payload.coded text valid nonempty).bytes = text.symbols 0 1 from rfl,
      if_pos starts]
    rfl
  | raw unit valid =>
    have plain : payloadHasStartCode unit = false := by
      have none := StartCode.firstCode_last 0 1 (by decide) unit (fun _ => valid) 0
      rw [List.replicate_zero, List.append_nil] at none
      rw [payloadHasStartCode, findStartCode_eq, List.drop_zero, none]
      rfl
    rw [annexB, show (Payload.raw unit valid).bytes = unit from rfl, plain]
    exact (symbols_single unit).symm

/-- Splitting a join of non-empty texts gives the units of each, in order. -/
theorem nalUnits_join (texts : List (StartCode.Text UInt8))
    (valid : ∀ text ∈ texts, text.WellFormed 0 1) (nonempty : ∀ text ∈ texts, text.pieces ≠ []) :
    nalUnits (texts.flatMap (StartCode.Text.symbols 0 1)) = texts.flatMap StartCode.Text.units := by
  cases texts with
  | nil => rfl
  | cons text rest =>
    rw [← StartCode.Text.symbols_join, ← StartCode.Text.units_join]
    refine nalUnits_text _ ?_ ?_
    · intro unit member
      rw [StartCode.Text.units_join] at member
      obtain ⟨own, listed, inside⟩ := List.mem_flatMap.mp member
      exact valid own listed unit inside
    · intro empty
      have none : (StartCode.Text.join (text :: rest)).units = [] := by
        rw [StartCode.Text.units, empty, List.map_nil]
      rw [StartCode.Text.units_join, List.flatMap_cons, List.append_eq_nil_iff] at none
      exact nonempty text (by simp) (List.map_eq_nil_iff.mp none.1)

section Written

/-- All writes succeed. -/
def WriteAnswers.AllOk (answers : WriteAnswers) : Prop :=
  ∀ part answer, answers.Gives part answer → answer.ok = true

/-- The payloads of a segment written one after another, up to the first failure. -/
def writePayloads : List (WriteAnswers × Bytes) → Ctx → Ctx × Bool
  | [], c => (c, true)
  | (answers, data) :: rest, c =>
    let packet := writePayloadAnnexb answers data c
    if packet.2 then writePayloads rest packet.1 else (packet.1, false)

/-- The parameter sets and the payloads of a segment. -/
def writeSets (answers : WriteAnswers) (packets : List (WriteAnswers × Bytes)) (c : Ctx) : Ctx × Bool :=
  let sets := writeParamSets answers c
  if sets.2 then writePayloads packets sets.1 else (sets.1, false)

variable {c : Ctx} {file : Nat}

theorem fwrites_contents (writes : List Write) (allOk : ∀ w ∈ writes, w.answer.ok = true) :
    ((c.fwrites file writes).w.store.files file).contents =
      (c.w.store.files file).contents ++ writes.flatMap Write.data := by
  induction writes generalizing c with
  | nil => simp [Ctx.fwrites]
  | cons write writes ih =>
    have first : ((c.fwrite file write).w.store.files file).contents =
        (c.w.store.files file).contents ++ write.data := by
      simp only [Ctx.fwrite, Ctx.emit, World.emit, Stdio.Store.write_file_self]
      exact Stdio.File.contents_write _ _ _ (allOk write (by simp))
    have rest := ih (c := c.fwrite file write) fun w member => allOk w (by simp [member])
    rw [first] at rest
    rw [List.flatMap_cons, ← List.append_assoc]
    exact rest

/-- A group of writes that all succeed is done. -/
theorem Concludes.done {writes : List Write} {ok : Bool} {data : Bytes} (ends : Concludes writes ok data)
    (allOk : ∀ w ∈ writes, w.answer.ok = true) : ok = true ∧ writes.flatMap Write.data = data := by
  rcases ends with ⟨done, -, same⟩ | ⟨-, before, last, rfl, -, bad⟩
  · exact ⟨done, same⟩
  · rw [allOk last (by simp)] at bad
    cases bad

theorem writePayloads_contents (packets : List (WriteAnswers × Bytes)) (held : c.s.fp = some file)
    (nonempty : ∀ packet ∈ packets, packet.2 ≠ []) (allOk : ∀ packet ∈ packets, packet.1.AllOk) :
    (writePayloads packets c).2 = true ∧
      ((writePayloads packets c).1.w.store.files file).contents =
        (c.w.store.files file).contents ++ packets.flatMap fun packet => annexB packet.2 := by
  induction packets generalizing c with
  | nil => simp [writePayloads]
  | cons packet packets ih =>
    obtain ⟨answers, data⟩ := packet
    obtain ⟨writes, same, origin, ends⟩ := writePayloadAnnexb_writes answers data c file held
      (nonempty _ List.mem_cons_self)
    have ok : ∀ w ∈ writes, w.answer.ok = true := fun w member =>
      allOk _ List.mem_cons_self w.part w.answer (.inr (origin w member))
    obtain ⟨done, bytes⟩ := ends.done ok
    have still : (writePayloadAnnexb answers data c).1.s.fp = some file := by
      rw [same, (fwrites_frame file c writes).2.1, held]
    obtain ⟨rest, contents⟩ := ih still (fun packet member => nonempty packet (by simp [member]))
      (fun packet member => allOk packet (by simp [member]))
    simp only [writePayloads, done, if_true]
    refine ⟨rest, ?_⟩
    rw [contents, same, fwrites_contents writes ok, bytes, List.flatMap_cons, List.append_assoc]

theorem writeSets_contents (answers : WriteAnswers) (packets : List (WriteAnswers × Bytes))
    (held : c.s.fp = some file) (setsOk : answers.AllOk) (nonempty : ∀ packet ∈ packets, packet.2 ≠ [])
    (allOk : ∀ packet ∈ packets, packet.1.AllOk) :
    (writeSets answers packets c).2 = true ∧
      ((writeSets answers packets c).1.w.store.files file).contents =
        (c.w.store.files file).contents ++
          (paramSetBytes c.s ++ packets.flatMap fun packet => annexB packet.2) := by
  obtain ⟨writes, same, origin, ends⟩ := writeParamSets_writes answers c file held
  have ok : ∀ w ∈ writes, w.answer.ok = true := fun w member =>
    setsOk w.part w.answer (.inl (origin w member))
  obtain ⟨done, bytes⟩ := ends.done ok
  have still : (writeParamSets answers c).1.s.fp = some file := by
    rw [same, (fwrites_frame file c writes).2.1, held]
  obtain ⟨rest, contents⟩ := writePayloads_contents packets still nonempty allOk
  simp only [writeSets, done, if_true]
  refine ⟨rest, ?_⟩
  rw [contents, same, fwrites_contents writes ok, bytes, List.append_assoc]

end Written

/-- The sets a record caches, as texts. -/
theorem paramSetBytes_texts (s : RecorderStream) (sets : Fin 3 → Option Bytes)
    (cached : ∀ slot, s.params slot = stored (sets slot)) :
    paramSetBytes s = (((paramSlots s.codec).filterMap sets).map StartCode.Text.single).flatMap
      (StartCode.Text.symbols 0 1) := by
  rw [paramSetBytes]
  induction paramSlots s.codec with
  | nil => rfl
  | cons slot slots ih =>
    rw [List.flatMap_cons, ih, cached]
    cases present : sets slot with
    | none => simp [present, stored]
    | some nal => simp [present, stored, symbols_single]

theorem nalUnits_sets (s : RecorderStream) (sets : Fin 3 → Option Bytes)
    (cached : ∀ slot, s.params slot = stored (sets slot))
    (valid : ∀ slot nal, sets slot = some nal → StartCode.IsUnit 0 1 nal) (payloads : List Payload) :
    nalUnits (paramSetBytes s ++ payloads.flatMap fun payload => annexB payload.bytes) =
      (paramSlots s.codec).filterMap sets ++ payloads.flatMap Payload.units := by
  have texts := nalUnits_join
    (((paramSlots s.codec).filterMap sets).map StartCode.Text.single ++ payloads.map Payload.text) ?_ ?_
  · simp only [List.flatMap_append, ← paramSetBytes_texts s sets cached, List.flatMap_map,
      ← annexB_payload, Payload.text_units] at texts
    rw [texts]
    congr 1
    induction (paramSlots s.codec).filterMap sets with
    | nil => rfl
    | cons nal nals ih =>
      rw [List.flatMap_cons, ih]
      rfl
  · intro text member
    rcases List.mem_append.mp member with own | later
    · obtain ⟨nal, listed, rfl⟩ := List.mem_map.mp own
      obtain ⟨slot, -, present⟩ := List.mem_filterMap.mp listed
      exact (Payload.raw nal (valid slot nal present)).text_valid
    · obtain ⟨payload, -, rfl⟩ := List.mem_map.mp later
      exact payload.text_valid
  · intro text member
    rcases List.mem_append.mp member with own | later
    · obtain ⟨nal, -, rfl⟩ := List.mem_map.mp own
      exact List.cons_ne_nil _ _
    · obtain ⟨payload, -, rfl⟩ := List.mem_map.mp later
      exact payload.text_nonempty

/-- A file written from the cached sets and any payloads splits into exactly the
cached units and the units of the payloads. -/
theorem reparse_written (c : Ctx) (file : Nat) (held : c.s.fp = some file)
    (fresh : c.w.store.files file = .empty) (sets : Fin 3 → Option Bytes)
    (cached : ∀ slot, c.s.params slot = stored (sets slot))
    (valid : ∀ slot nal, sets slot = some nal → StartCode.IsUnit 0 1 nal)
    (answers : WriteAnswers) (setsOk : answers.AllOk) (packets : List (WriteAnswers × Payload))
    (allOk : ∀ packet ∈ packets, packet.1.AllOk) :
    let written := writeSets answers (packets.map fun packet => (packet.1, packet.2.bytes)) c
    written.2 = true ∧
      nalUnits (written.1.w.store.files file).contents =
        (paramSlots c.s.codec).filterMap sets ++ packets.flatMap fun packet => packet.2.units := by
  obtain ⟨done, contents⟩ := writeSets_contents answers
    (packets.map fun packet => (packet.1, packet.2.bytes)) held setsOk (by
      intro packet member
      obtain ⟨own, -, rfl⟩ := List.mem_map.mp member
      exact own.2.bytes_nonempty) (by
      intro packet member
      obtain ⟨own, listed, rfl⟩ := List.mem_map.mp member
      exact allOk own listed)
  refine ⟨done, ?_⟩
  have split := nalUnits_sets c.s sets cached valid (packets.map Prod.snd)
  simp only [List.flatMap_map] at split contents
  rw [contents, fresh, Stdio.File.contents_empty, List.nil_append, split]

/-- A record that has cached two H.264 sets and holds an empty file. -/
def recordingCtx : Ctx where
  r := (start (sampleConfig false) [] 1).r
  s := {RecorderStream.zero with
    fp := some 0
    params := fun slot => if slot = 2 then [] else startCode4 ++ [0x67 + slot.val.toUInt8, 1]}
  w := .start

/-- A payload whose padding meets the next one's start code, and a raw one. -/
theorem reparse_written_two :
    nalUnits ([0, 0, 0, 1, 0x67, 1, 0, 0, 0, 1, 0x68, 1] ++ [0, 0, 1, 0x65, 2, 0, 0] ++
      [0, 0, 0, 1, 0x41, 3]) = [[0x67, 1], [0x68, 1], [0x65, 2], [0x41, 3]] := by
  have isUnit (first last : UInt8) (nonzero : last ≠ 0) : StartCode.IsUnit 0 1 [first, last] := by
    refine ⟨by simp, by simpa using nonzero, fun inside => ?_⟩
    have short := inside.length_le
    simp at short
  have ok : goodAnswers.write.AllOk := by
    rintro part answer (⟨-, i, rfl⟩ | ⟨-, rfl | rfl⟩) <;> rfl
  have coded : (⟨[⟨0, false, [0x65, 2]⟩], 2⟩ : StartCode.Text UInt8).WellFormed 0 1 := by
    intro unit member
    obtain rfl := List.mem_singleton.mp member
    exact isUnit _ _ (by decide)
  have split := (reparse_written recordingCtx 0 rfl rfl
    (fun slot => if slot = 2 then none else some [0x67 + slot.val.toUInt8, 1]) ?_ ?_
    goodAnswers.write ok
    [(goodAnswers.write, .coded ⟨[⟨0, false, [0x65, 2]⟩], 2⟩ coded (by simp)),
      (goodAnswers.write, .raw [0x41, 3] (isUnit _ _ (by decide)))] ?_).2
  · exact split
  · intro slot
    by_cases last : slot = 2
    · simp [recordingCtx, last, stored]
    · simp [recordingCtx, last, stored]
  · intro slot nal present
    split at present
    · cases present
    · obtain rfl := Option.some.inj present
      exact isUnit _ _ (by decide)
  · intro packet member
    simp only [List.mem_cons, List.not_mem_nil, or_false] at member
    rcases member with rfl | rfl <;> exact ok

end StreamRelay.Recorder
