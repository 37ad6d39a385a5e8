import StreamRelay.Buffer
import StreamRelay.Checked
import StreamRelay.Sender.TcpSender
import StreamRelay.Worker.IdrFrame

/-! The fragments of a frame gathered into one buffer, which is as large as the frame says it is.
A run without a result has stored a byte outside of the buffer or lost the count of the bytes.
The statistics, which only a report reads, are left out. -/
namespace StreamRelay.Worker
open Buffer Checked

/-- LENTRY -/
structure Entry where
  data : Bytes
  length : Int32
  holds : length.toInt ≤ data.length

/-- DECODE_UNIT -/
structure DecodeUnit where
  fullLength : Int32
  bufferList : List Entry

/-- The buffer that is kept between calls; without one its size is 0. -/
structure FrameBuffer where
  size : Nat
  memory : Memory

structure VideoWorker where
  frame : FrameBuffer
  system : Sender.System
  fatalTcpSend : Bool

/-- What the functions outside answer to a call. -/
structure SubmitAnswers where
  ensureConnected : Sender.System → Sender.System × Bool
  realloc : Bool
  write : Sender.WriteAnswers

/-- What was handed to tcp_sender_send_video, and whether it was taken for an IDR. -/
structure Submitted where
  worker : VideoWorker
  handed : Option (Bytes × Bool)

def firstFrameBufferSize : Nat := 1024 * 1024

/-- The size that ensure_frame_buffer asks for. -/
def roomFor (needed size : Nat) : Nat :=
  if size ≥ needed then size
  else Capacity.grown needed (if size = 0 then firstFrameBufferSize else size)

/-- ensure_frame_buffer, with whether there is room. -/
def ensureFrameBuffer (needed : Nat) (realloc : Bool) (frame : FrameBuffer) : FrameBuffer × Bool :=
  if frame.size ≥ needed then (frame, true)
  else if realloc then ({frame with size := roomFor needed frame.size}, true)
  else (frame, false)

/-- The loop that copies the fragments. A negative length is a huge one for memcpy. -/
def gather (size : Nat) : List Entry → Memory → Int → Option (Memory × Int)
  | [], memory, offset => some (memory, offset)
  | entry :: rest, memory, offset =>
    if entry.length < 0 then none
    else do
      let memory ← memcpy size memory offset.toNat entry.data 0 entry.length.toInt.toNat
      let offset ← int32 (offset + entry.length.toInt)
      gather size rest memory offset

def submitDecodeUnit (answers : SubmitAnswers) (unit : DecodeUnit) (worker : VideoWorker) :
    Option Submitted :=
  let connection := answers.ensureConnected worker.system
  let worker := {worker with system := connection.1}
  if !connection.2 then some ⟨worker, none⟩
  else if unit.fullLength ≤ 0 then some ⟨worker, none⟩
  else
    let room := ensureFrameBuffer unit.fullLength.toInt.toNat answers.realloc worker.frame
    let worker := {worker with frame := room.1}
    if !room.2 then some ⟨worker, none⟩
    else do
      let (memory, totalLength) ← gather room.1.size unit.bufferList room.1.memory 0
      let data := contents totalLength.toNat memory
      let isIdr := isIdrFrame data
      let sent := worker.system.sendVideo data answers.write
      some ⟨{worker with
        frame := {room.1 with memory := memory}
        system := sent.1
        fatalTcpSend := worker.fatalTcpSend || !sent.2}, some (data, isIdr)⟩

/-- The fragments one after another. -/
def gathered (entries : List Entry) : Bytes :=
  entries.flatMap fun entry => entry.data.take entry.length.toInt.toNat

def DecodeUnit.bytes (unit : DecodeUnit) : Bytes := gathered unit.bufferList

/-- The bytes written are inside the buffer, and what is handed on is the frame. -/
def Gathered (answers : SubmitAnswers) (unit : DecodeUnit) (worker : VideoWorker) : Prop :=
  ∃ result, submitDecodeUnit answers unit worker = some result ∧
    ∀ sent ∈ result.handed, sent.1 = unit.bytes

/-- The call returns before it gathers anything. -/
def Refused (answers : SubmitAnswers) (unit : DecodeUnit) (worker : VideoWorker) : Prop :=
  (answers.ensureConnected worker.system).2 = false ∨ unit.fullLength ≤ 0 ∨
    (worker.frame.size < unit.fullLength.toInt.toNat ∧ answers.realloc = false)

/-- The fragments fit into the buffer for the length that is announced, and into an int. -/
def UnitFits (unit : DecodeUnit) (size : Nat) : Prop :=
  (∀ entry ∈ unit.bufferList, 0 ≤ entry.length) ∧
    unit.bytes.length ≤ roomFor unit.fullLength.toInt.toNat size ∧
    unit.bytes.length ≤ 2147483647

theorem Entry.take_length {entry : Entry} :
    (entry.data.take entry.length.toInt.toNat).length = entry.length.toInt.toNat := by
  have holds := entry.holds
  rw [List.length_take]
  omega

theorem gathered_cons (entry : Entry) (rest : List Entry) :
    (gathered (entry :: rest)).length = entry.length.toInt.toNat + (gathered rest).length := by
  rw [gathered, List.flatMap_cons, List.length_append, entry.take_length]
  rfl

/-- The memory behind one fragment. -/
def Entry.copied (entry : Entry) (offset : Nat) (memory : Memory) : Memory :=
  overlay offset entry.length.toInt.toNat (fun i => entry.data.getD (0 + i) 0) memory

theorem Entry.copied_contents (entry : Entry) (offset : Nat) (memory : Memory) :
    contents (offset + entry.length.toInt.toNat) (entry.copied offset memory) =
      contents offset memory ++ entry.data.take entry.length.toInt.toNat := by
  have holds := entry.holds
  rw [copied, contents_append, contents_slice _ _ _ (by omega), List.drop_zero]

theorem gather_negative (size : Nat) {entry : Entry} (negative : ¬ 0 ≤ entry.length)
    (rest : List Entry) (memory : Memory) (offset : Int) :
    gather size (entry :: rest) memory offset = none := by
  have less : entry.length < 0 := by
    rw [Int32.le_iff_toInt_le] at negative
    rw [Int32.lt_iff_toInt_lt]
    omega
  rw [gather, if_pos less]

theorem gather_cons (size : Nat) {entry : Entry} (proper : 0 ≤ entry.length) (rest : List Entry)
    (memory : Memory) (offset : Nat) :
    gather size (entry :: rest) memory offset =
      if offset + entry.length.toInt.toNat ≤ size ∧ offset + entry.length.toInt.toNat ≤ 2147483647 then
        gather size rest (entry.copied offset memory) (offset + entry.length.toInt.toNat : Nat)
      else none := by
  have holds := entry.holds
  have positive : 0 ≤ entry.length.toInt := Int32.le_iff_toInt_le.mp proper
  have enough : ¬ entry.length < 0 := by
    rw [Int32.lt_iff_toInt_lt]
    exact not_lt.mpr positive
  have sum : (offset : Int) + entry.length.toInt = (offset + entry.length.toInt.toNat : Nat) := by
    omega
  rw [gather, if_neg enough]
  simp only [Int.toNat_natCast, sum]
  by_cases room : offset + entry.length.toInt.toNat ≤ size
  · have copy : memcpy size memory offset entry.data 0 entry.length.toInt.toNat =
        some (entry.copied offset memory) := if_pos ⟨room, by omega⟩
    refine (proceed copy _).trans ?_
    by_cases counted : offset + entry.length.toInt.toNat ≤ 2147483647
    · rw [if_pos ⟨room, counted⟩]
      exact proceed (int32_some (by omega) (by omega)) _
    · rw [if_neg fun both => counted both.2, int32, if_neg (by omega)]
      rfl
  · rw [if_neg fun both => room both.1, memcpy, if_neg fun both => room both.1]
    rfl

/-- The loop ends exactly if the fragments have proper lengths and fit, and then they stand in the
buffer behind what was there. -/
theorem gather_spec (size : Nat) (entries : List Entry) (memory : Memory) (offset : Nat)
    (inside : offset ≤ size) (small : offset ≤ 2147483647) :
    ((∀ entry ∈ entries, 0 ≤ entry.length) ∧ offset + (gathered entries).length ≤ size ∧
        offset + (gathered entries).length ≤ 2147483647 →
      ∃ after, gather size entries memory offset =
          some (after, ((offset + (gathered entries).length : Nat) : Int)) ∧
        contents (offset + (gathered entries).length) after =
          contents offset memory ++ gathered entries) ∧
    (¬ ((∀ entry ∈ entries, 0 ≤ entry.length) ∧ offset + (gathered entries).length ≤ size ∧
        offset + (gathered entries).length ≤ 2147483647) →
      gather size entries memory offset = none) := by
  induction entries generalizing memory offset with
  | nil =>
    refine ⟨fun _ => ⟨memory, rfl, (List.append_nil _).symm⟩, fun misses => ?_⟩
    exact absurd ⟨by simp, inside, small⟩ misses
  | cons entry rest ih =>
    by_cases proper : 0 ≤ entry.length
    · rw [gather_cons size proper, gathered_cons]
      by_cases room : offset + entry.length.toInt.toNat ≤ size ∧
          offset + entry.length.toInt.toNat ≤ 2147483647
      · obtain ⟨whole, none_left⟩ :=
          ih (entry.copied offset memory) (offset + entry.length.toInt.toNat) room.1 room.2
        rw [if_pos room]
        simp only [List.forall_mem_cons, proper, true_and, ← Nat.add_assoc]
        refine ⟨fun fits => ?_, none_left⟩
        obtain ⟨after, result, text⟩ := whole fits
        refine ⟨after, result, ?_⟩
        rw [text, entry.copied_contents, List.append_assoc]
        rfl
      · rw [if_neg room]
        refine ⟨fun fits => absurd ⟨?_, ?_⟩ room, fun _ => rfl⟩ <;> omega
    · rw [gather_negative size proper]
      exact ⟨fun fits => absurd (fits.1 entry (by simp)) proper, fun _ => rfl⟩

theorem ensureFrameBuffer_eq (needed : Nat) (realloc : Bool) (frame : FrameBuffer) :
    ensureFrameBuffer needed realloc frame =
      if frame.size < needed ∧ realloc = false then (frame, false)
      else ({frame with size := roomFor needed frame.size}, true) := by
  unfold ensureFrameBuffer roomFor
  by_cases room : frame.size ≥ needed
  · rw [if_pos room, if_neg (by omega), if_pos room]
  · rw [if_neg room]
    cases realloc with
    | true => simp
    | false => rw [if_neg Bool.false_ne_true, if_pos ⟨not_le.mp room, rfl⟩]

/-- A call that is not refused hands on the frame, or has no result. -/
theorem submitDecodeUnit_gathers (answers : SubmitAnswers) (unit : DecodeUnit) (worker : VideoWorker)
    (accepted : ¬ Refused answers unit worker) :
    (UnitFits unit worker.frame.size →
      ∃ result, submitDecodeUnit answers unit worker = some result ∧
        result.handed = some (unit.bytes, isIdrFrame unit.bytes)) ∧
    (¬ UnitFits unit worker.frame.size → submitDecodeUnit answers unit worker = none) := by
  unfold Refused at accepted
  obtain ⟨connected, announced, room⟩ : (answers.ensureConnected worker.system).2 = true ∧
      ¬ unit.fullLength ≤ 0 ∧
      ¬ (worker.frame.size < unit.fullLength.toInt.toNat ∧ answers.realloc = false) := by
    simpa only [not_or, Bool.not_eq_false] using accepted
  have loop := gather_spec (roomFor unit.fullLength.toInt.toNat worker.frame.size) unit.bufferList
    worker.frame.memory 0 (Nat.zero_le _) (by decide)
  rw [Nat.zero_add] at loop
  unfold submitDecodeUnit
  simp only [connected, Bool.not_true, Bool.false_eq_true, if_false, if_neg announced,
    ensureFrameBuffer_eq, if_neg room]
  constructor
  · intro fits
    obtain ⟨after, result, text⟩ := loop.1 fits
    refine ⟨_, proceed result _, ?_⟩
    rw [Int.toNat_natCast, text]
    rfl
  · intro misses
    have stuck := loop.2 misses
    rw [Nat.cast_zero] at stuck
    rw [stuck]
    rfl

/-- A call keeps inside the buffer and hands on the frame just when it returns before it gathers
anything, or the fragments fit. -/
theorem gathered_iff (answers : SubmitAnswers) (unit : DecodeUnit) (worker : VideoWorker) :
    Gathered answers unit worker ↔
      Refused answers unit worker ∨ UnitFits unit worker.frame.size := by
  by_cases refused : Refused answers unit worker
  · refine iff_of_true ?_ (.inl refused)
    have none_sent (worker : VideoWorker) : ∃ result, some (⟨worker, none⟩ : Submitted) = some result ∧
        ∀ sent ∈ result.handed, sent.1 = unit.bytes := ⟨_, rfl, by simp⟩
    unfold Gathered submitDecodeUnit
    simp only
    split
    · exact none_sent _
    · next connected =>
      split
      · exact none_sent _
      · next announced =>
        have room : worker.frame.size < unit.fullLength.toInt.toNat ∧ answers.realloc = false := by
          rcases refused with unconnected | empty | small
          · simp [unconnected] at connected
          · exact absurd empty announced
          · exact small
        rw [ensureFrameBuffer_eq, if_pos room]
        exact none_sent _
  · have gathers := submitDecodeUnit_gathers answers unit worker refused
    unfold Gathered
    rw [or_iff_right refused]
    constructor
    · rintro ⟨result, run, -⟩
      by_contra misses
      rw [gathers.2 misses] at run
      cases run
    · intro fits
      obtain ⟨result, run, handed⟩ := gathers.1 fits
      refine ⟨result, run, fun sent member => ?_⟩
      rw [handed] at member
      exact (congrArg Prod.fst (Option.some.inj member)).symm

/-- A frame announced as one byte whose only fragment is a byte more than the first buffer. -/
def longUnit : DecodeUnit :=
  ⟨1, [⟨List.replicate 1048577 0, 1048577, by rw [List.length_replicate]; decide⟩]⟩

def freshWorker : VideoWorker := ⟨⟨0, fun _ => 0⟩, .zero, false⟩

theorem longUnit_overruns :
    ¬ Gathered ⟨fun system => (system, true), true, ⟨true, []⟩⟩ longUnit freshWorker := by
  rintro ⟨result, run, -⟩
  have accepted : ¬ Refused ⟨fun system => (system, true), true, ⟨true, []⟩⟩ longUnit freshWorker := by
    rintro (unconnected | empty | ⟨-, small⟩)
    · cases unconnected
    · revert empty
      decide
    · cases small
  have misses : ¬ UnitFits longUnit freshWorker.frame.size := by
    rintro ⟨-, room, -⟩
    have length : longUnit.bytes.length = (1048577 : Int32).toInt.toNat := by
      rw [DecodeUnit.bytes, longUnit, gathered, List.flatMap_singleton, Entry.take_length]
    rw [length] at room
    revert room
    decide
  rw [(submitDecodeUnit_gathers _ _ _ accepted).2 misses] at run
  cases run

end StreamRelay.Worker
