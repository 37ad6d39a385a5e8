import StreamRelay.BigEndian
import StreamRelay.Protocol
import StreamRelay.Reassembly

/-! The pictures that a client without a decoder of its own reads from ffmpeg. They come one behind
the other in pieces of any size, and a search that did not find a whole one starts over when more
has come. -/
namespace StreamRelay.Agent.PngFrames
open BigEndian Reassembly

/-- PNG_SIG -/
def pngSig : Bytes := [0x89, 0x50, 0x4E, 0x47, 0x0D, 0x0A, 0x1A, 0x0A]

def iendType : Bytes := [0x49, 0x45, 0x4E, 0x44]

/-- `buf.find(PNG_SIG)` -/
def findSig : Bytes → Option Nat
  | [] => none
  | byte :: rest =>
    if pngSig <+: byte :: rest then some 0 else (findSig rest).map (· + 1)

/-- The inner loop: where the chunk of type IEND ends, if it has come. Every round moves on. -/
def chunkLoop (buf : Bytes) : Nat → Nat → Option (Option Nat)
  | 0, _ => none
  | fuel + 1, i =>
    if buf.length < i + 8 then some none
    else
      let ln := (wordAt buf i).toNat
      let typ := (buf.drop (i + 4)).take 4
      let chunkTotal := 4 + 4 + ln + 4
      if buf.length < i + chunkTotal then some none
      else if typ = iendType then some (some (i + chunkTotal))
      else chunkLoop buf fuel (i + chunkTotal)

/-- The outer loop: the pictures found, and the buffer after it. -/
def extractLoop : Nat → Bytes → List Bytes → Option (List Bytes × Bytes)
  | 0, _, _ => none
  | fuel + 1, buf, out =>
    match findSig buf with
    | none =>
      some (out, if pngSig.length < buf.length then buf.drop (buf.length - pngSig.length) else buf)
    | some sigI => do
      let buf := buf.drop sigI
      match ← chunkLoop buf (buf.length + 1) pngSig.length with
      | none => some (out, buf)
      | some i => extractLoop fuel (buf.drop i) (out ++ [buf.take i])

def extractPngs (buf : Bytes) : Option (List Bytes × Bytes) := extractLoop (buf.length + 1) buf []

structure Chunk where
  type : Bytes
  data : Bytes
  crc : Bytes
  typed : type.length = 4
  checked : crc.length = 4
  fits : data.length < 2 ^ 32

def Chunk.bytes (chunk : Chunk) : Bytes :=
  bytes32 chunk.data.length ++ chunk.type ++ chunk.data ++ chunk.crc

/-- A well-formed picture: behind the signature any chunks, and the only one of type IEND last. -/
structure Png where
  chunks : List Chunk
  iend : Chunk
  inner : ∀ chunk ∈ chunks, chunk.type ≠ iendType
  last : iend.type = iendType

def Png.body (png : Png) : Bytes := png.chunks.flatMap Chunk.bytes ++ png.iend.bytes

def Png.bytes (png : Png) : Bytes := pngSig ++ png.body

theorem findSig_front {buf : Bytes} (front : pngSig <+: buf) : findSig buf = some 0 := by
  cases buf with
  | nil => exact absurd (List.prefix_nil.mp front) (by decide)
  | cons byte rest => exact if_pos front

theorem findSig_found {buf : Bytes} {sigI : Nat} (found : findSig buf = some sigI) :
    pngSig <+: buf.drop sigI := by
  induction buf generalizing sigI with
  | nil => cases found
  | cons byte rest ih =>
    rw [findSig] at found
    split at found
    · next front =>
      obtain rfl := Option.some.inj found
      exact front
    · obtain ⟨later, behind, rfl⟩ := Option.map_eq_some_iff.mp found
      exact ih behind

theorem findSig_short {buf : Bytes} (short : buf.length < pngSig.length) : findSig buf = none := by
  cases found : findSig buf with
  | none => rfl
  | some sigI =>
    have length := (findSig_found found).length_le
    rw [List.length_drop] at length
    omega

/-- The loop ends inside the buffer, behind where it began. -/
theorem chunkLoop_ends (buf : Bytes) (fuel i : Nat) (inside : i ≤ buf.length)
    (enough : buf.length < fuel + i) :
    ∃ result, chunkLoop buf fuel i = some result ∧ ∀ e ∈ result, i < e := by
  induction fuel generalizing i with
  | zero => omega
  | succ fuel ih =>
    unfold chunkLoop
    split
    · exact ⟨none, rfl, by simp⟩
    · simp only
      split
      · exact ⟨none, rfl, by simp⟩
      · split
        · exact ⟨_, rfl, by simp⟩
        · next more _ =>
          obtain ⟨result, ends, behind⟩ := ih _ (not_lt.mp more) (by omega)
          exact ⟨result, ends, fun e member => by have := behind e member; omega⟩

theorem chunkLoop_behind {buf : Bytes} (front : pngSig <+: buf) :
    ∃ result, chunkLoop buf (buf.length + 1) pngSig.length = some result ∧
      ∀ e ∈ result, pngSig.length < e :=
  chunkLoop_ends buf _ _ front.length_le (by omega)

/-- Every round takes something out of the buffer, so the outer loop ends too. -/
theorem extractLoop_ends (fuel : Nat) (buf : Bytes) (out : List Bytes)
    (enough : buf.length < fuel) :
    ∃ result, ∀ more, fuel ≤ more → extractLoop more buf out = some result := by
  induction fuel generalizing buf out with
  | zero => exact absurd enough (Nat.not_lt_zero _)
  | succ fuel ih =>
    have unfolded (more : Nat) (large : fuel + 1 ≤ more) : ∃ later, fuel ≤ later ∧ more = later + 1 :=
      ⟨more - 1, by omega, by omega⟩
    cases found : findSig buf with
    | none =>
      refine ⟨(out, if pngSig.length < buf.length then buf.drop (buf.length - pngSig.length)
        else buf), fun more large => ?_⟩
      obtain ⟨later, -, rfl⟩ := unfolded more large
      simp only [extractLoop, found]
    | some sigI =>
      have front := findSig_found found
      obtain ⟨result, ends, behind⟩ := chunkLoop_behind front
      cases result with
      | none =>
        refine ⟨(out, buf.drop sigI), fun more large => ?_⟩
        obtain ⟨later, -, rfl⟩ := unfolded more large
        simp only [extractLoop, found, ends, Option.bind_eq_bind, Option.bind_some]
      | some i =>
        have positive := behind i rfl
        have length := front.length_le
        have sig : pngSig.length = 8 := rfl
        rw [List.length_drop] at length
        obtain ⟨result, all⟩ := ih ((buf.drop sigI).drop i) (out ++ [(buf.drop sigI).take i])
          (by rw [List.length_drop, List.length_drop]; omega)
        refine ⟨result, fun more large => ?_⟩
        obtain ⟨later, least, rfl⟩ := unfolded more large
        simp only [extractLoop, found, ends, Option.bind_eq_bind, Option.bind_some]
        exact all later least

/-- What was found before stays in front of what is found. -/
theorem extractLoop_out (fuel : Nat) (buf : Bytes) (out : List Bytes) :
    extractLoop fuel buf out =
      (extractLoop fuel buf []).map fun result => (out ++ result.1, result.2) := by
  induction fuel generalizing buf out with
  | zero => rfl
  | succ fuel ih =>
    unfold extractLoop
    split
    · simp
    · next sigI _ =>
      simp only [Option.bind_eq_bind]
      cases chunkLoop (buf.drop sigI) ((buf.drop sigI).length + 1) pngSig.length with
      | none => rfl
      | some result =>
        cases result with
        | none => simp
        | some i =>
          simp only [Option.bind_some]
          rw [ih, ih _ ([] ++ _), Option.map_map]
          simp [Function.comp_def]

/-- More rounds than needed find the same. -/
theorem extractLoop_enough {fuel : Nat} {buf : Bytes} (out : List Bytes) (enough : buf.length < fuel) :
    extractLoop fuel buf out = (extractPngs buf).map fun result => (out ++ result.1, result.2) := by
  obtain ⟨result, all⟩ := extractLoop_ends (buf.length + 1) buf out (Nat.lt_succ_self _)
  rw [all fuel enough, ← all _ le_rfl]
  exact extractLoop_out _ _ _

@[simp] theorem Chunk.bytes_length (chunk : Chunk) : chunk.bytes.length = 12 + chunk.data.length := by
  have width : (bytes32 chunk.data.length).length = 4 := rfl
  simp only [bytes, List.length_append, width, chunk.typed, chunk.checked]
  omega

theorem wordAt_append (front text : Bytes) (offset : Nat) :
    wordAt (front ++ text) (front.length + offset) = wordAt text offset := by
  simp only [wordAt, Nat.add_assoc, List.getD_eq_getElem?_getD,
    List.getElem?_append_right (Nat.le_add_right ..), Nat.add_sub_cancel_left]

theorem wordAt_bytes32 (n : Nat) (rest : Bytes) : wordAt (bytes32 n ++ rest) 0 = UInt32.ofNat n :=
  word32_bytes n

/-- The header of a chunk that has come is read back. -/
theorem Chunk.header (chunk : Chunk) (front : Bytes) {part : Bytes} (own : part <+: chunk.bytes)
    (come : 8 ≤ part.length) (rest : Bytes) :
    (wordAt (front ++ (part ++ rest)) front.length).toNat = chunk.data.length ∧
      ((front ++ (part ++ rest)).drop (front.length + 4)).take 4 = chunk.type := by
  have start : bytes32 chunk.data.length ++ chunk.type <+: part := by
    apply List.prefix_of_prefix_length_le _ own
    · have width : (bytes32 chunk.data.length).length = 4 := rfl
      rw [List.length_append, width, chunk.typed]
      omega
    · rw [Chunk.bytes, List.append_assoc (_ ++ _)]
      exact List.prefix_append ..
  obtain ⟨behind, rfl⟩ := start
  constructor
  · have word := wordAt_append front
      (bytes32 chunk.data.length ++ chunk.type ++ behind ++ rest) 0
    rw [Nat.add_zero] at word
    rw [word, List.append_assoc, List.append_assoc, wordAt_bytes32, UInt32.toNat_ofNat']
    exact Nat.mod_eq_of_lt chunk.fits
  · have width : (bytes32 chunk.data.length).length = 4 := rfl
    have skip : (bytes32 chunk.data.length ++ chunk.type ++ behind ++ rest).drop 4 =
        chunk.type ++ (behind ++ rest) := by
      rw [List.append_assoc, List.append_assoc]
      exact List.drop_left' width
    rw [← List.drop_drop, List.drop_left, skip]
    exact List.take_left' chunk.typed

/-- A whole chunk is passed over, or ends the loop. -/
theorem chunkLoop_chunk (chunk : Chunk) (front rest : Bytes) (fuel : Nat) :
    chunkLoop (front ++ (chunk.bytes ++ rest)) (fuel + 1) front.length =
      if chunk.type = iendType then some (some (front.length + chunk.bytes.length))
      else chunkLoop (front ++ (chunk.bytes ++ rest)) fuel (front.length + chunk.bytes.length) := by
  have length := chunk.bytes_length
  obtain ⟨word, type⟩ := chunk.header front List.prefix_rfl (by omega) rest
  have whole : (front ++ (chunk.bytes ++ rest)).length =
      front.length + (chunk.bytes.length + rest.length) := by
    rw [List.length_append, List.length_append]
  have total : 4 + 4 + chunk.data.length + 4 = chunk.bytes.length := by omega
  rw [chunkLoop, if_neg (by omega)]
  simp only [word, type, total]
  rw [if_neg (by omega)]

/-- Of a chunk that has not come whole the loop waits for the rest. -/
theorem chunkLoop_part (chunk : Chunk) (front part : Bytes) (own : part <+: chunk.bytes)
    (short : part ≠ chunk.bytes) (fuel : Nat) :
    chunkLoop (front ++ part) (fuel + 1) front.length = some none := by
  have less : part.length < chunk.bytes.length :=
    lt_of_le_of_ne own.length_le fun same => short (own.eq_of_length same)
  rw [chunkLoop, List.length_append]
  split
  · rfl
  · next come =>
    obtain ⟨word, -⟩ := chunk.header front own (by omega) []
    rw [List.append_nil] at word
    simp only [word]
    rw [if_pos (by rw [chunk.bytes_length] at less; omega)]

theorem chunkLoop_whole (chunks : List Chunk) (iend : Chunk)
    (inner : ∀ chunk ∈ chunks, chunk.type ≠ iendType) (last : iend.type = iendType)
    (front rest : Bytes) (fuel : Nat) (enough : chunks.length < fuel) :
    chunkLoop (front ++ (chunks.flatMap Chunk.bytes ++ iend.bytes ++ rest)) fuel front.length =
      some (some (front.length + (chunks.flatMap Chunk.bytes ++ iend.bytes).length)) := by
  induction chunks generalizing front fuel with
  | nil =>
    obtain ⟨fuel, rfl⟩ := Nat.exists_eq_add_one_of_ne_zero (Nat.ne_of_gt enough)
    rw [List.flatMap_nil, List.nil_append, chunkLoop_chunk, if_pos last]
  | cons chunk chunks ih =>
    obtain ⟨fuel, rfl⟩ := Nat.exists_eq_add_one_of_ne_zero (Nat.ne_of_gt (Nat.zero_lt_of_lt enough))
    have later := ih (fun other member => inner other (List.mem_cons_of_mem _ member))
      (front ++ chunk.bytes) fuel (Nat.lt_of_succ_lt_succ enough)
    rw [List.flatMap_cons]
    simp only [List.append_assoc, List.length_append] at later ⊢
    rw [chunkLoop_chunk, if_neg (inner chunk (by simp)), later]
    simp only [Nat.add_assoc]

theorem chunkLoop_waits (chunks : List Chunk) (iend : Chunk)
    (inner : ∀ chunk ∈ chunks, chunk.type ≠ iendType) (front part : Bytes)
    (own : part <+: chunks.flatMap Chunk.bytes ++ iend.bytes)
    (short : part ≠ chunks.flatMap Chunk.bytes ++ iend.bytes) (fuel : Nat)
    (enough : part.length < fuel) :
    chunkLoop (front ++ part) fuel front.length = some none := by
  induction chunks generalizing front part fuel with
  | nil =>
    obtain ⟨fuel, rfl⟩ := Nat.exists_eq_add_one_of_ne_zero (Nat.ne_of_gt (Nat.zero_lt_of_lt enough))
    exact chunkLoop_part iend front part own short fuel
  | cons chunk chunks ih =>
    obtain ⟨fuel, rfl⟩ := Nat.exists_eq_add_one_of_ne_zero (Nat.ne_of_gt (Nat.zero_lt_of_lt enough))
    rw [List.flatMap_cons, List.append_assoc] at own short
    by_cases come : chunk.bytes.length ≤ part.length
    · obtain ⟨rest, rfl⟩ := List.prefix_of_prefix_length_le (List.prefix_append ..) own come
      rw [List.length_append, chunk.bytes_length] at enough
      have later := ih (fun other member => inner other (List.mem_cons_of_mem _ member))
        (front ++ chunk.bytes) rest ((List.prefix_append_right_inj _).mp own)
        (fun same => short (congrArg (chunk.bytes ++ ·) same)) fuel (by omega)
      rw [List.append_assoc, List.length_append] at later
      rw [chunkLoop_chunk, if_neg (inner chunk (by simp)), later]
    · apply chunkLoop_part chunk front part _ _ fuel
      · exact List.prefix_of_prefix_length_le own (List.prefix_append ..) (by omega)
      · rintro rfl
        exact come le_rfl

theorem chunks_length_le (chunks : List Chunk) : chunks.length ≤ (chunks.flatMap Chunk.bytes).length := by
  induction chunks with
  | nil => exact le_rfl
  | cons chunk chunks ih =>
    rw [List.flatMap_cons, List.length_append, chunk.bytes_length, List.length_cons]
    omega

/-- A picture at the front is taken out, the first bytes of one stay. -/
theorem extractPngs_extracts : Extracts Png.bytes extractPngs where
  empty := rfl
  waits png part own short := by
    have sig : pngSig.length = 8 := rfl
    by_cases come : pngSig.length ≤ part.length
    · obtain ⟨body, rfl⟩ := List.prefix_of_prefix_length_le (List.prefix_append ..) own come
      have front : pngSig <+: pngSig ++ body := List.prefix_append ..
      have waiting := chunkLoop_waits png.chunks png.iend png.inner pngSig body
        ((List.prefix_append_right_inj _).mp own)
        (fun same => short (congrArg (pngSig ++ ·) same)) ((pngSig ++ body).length + 1)
        (by rw [List.length_append]; omega)
      simp only [extractPngs, extractLoop, findSig_front front, List.drop_zero, waiting,
        Option.bind_eq_bind, Option.bind_some]
    · have none_yet := findSig_short (not_le.mp come)
      simp only [extractPngs, extractLoop, none_yet]
      rw [if_neg (by omega)]
  takes png rest := by
    have front : pngSig <+: png.bytes ++ rest := by
      rw [Png.bytes, List.append_assoc]
      exact List.prefix_append ..
    have few := chunks_length_le png.chunks
    have whole := chunkLoop_whole png.chunks png.iend png.inner png.last pngSig rest
      ((png.bytes ++ rest).length + 1) (by
        simp only [Png.bytes, Png.body, List.length_append]
        omega)
    have text : pngSig ++ (png.chunks.flatMap Chunk.bytes ++ png.iend.bytes ++ rest) =
        png.bytes ++ rest := by
      simp only [Png.bytes, Png.body, List.append_assoc]
    have ends : pngSig.length + (png.chunks.flatMap Chunk.bytes ++ png.iend.bytes).length =
        png.bytes.length := by
      simp only [Png.bytes, Png.body, List.length_append]
    rw [text, ends] at whole
    have shorter : rest.length < (png.bytes ++ rest).length := by
      have sig : pngSig.length = 8 := rfl
      simp only [Png.bytes, List.length_append]
      omega
    have later := extractLoop_enough [png.bytes] shorter
    rw [extractPngs, extractLoop]
    simp only [findSig_front front, List.drop_zero, whole, Option.bind_eq_bind, Option.bind_some,
      List.drop_left, List.take_left, List.nil_append, later, List.singleton_append]

/-- However the stream of pictures is read, after each read exactly those have come out all of
whose bytes have been read, and the buffer holds what is behind them. A call ends whatever the
buffer holds. -/
theorem extractPngs_stream :
    (∀ buf, ∃ result, ∀ fuel, buf.length < fuel → extractLoop fuel buf [] = some result) ∧
      ∀ (pngs : List Png) (reads : List Bytes),
        (reads.flatten <+: pngs.flatMap Png.bytes → feedAll extractPngs reads [] [] =
          some ((completed Png.bytes pngs reads.flatten.length).map Png.bytes,
            unfinished Png.bytes pngs reads.flatten)) ∧
        (reads.flatten = pngs.flatMap Png.bytes →
          feedAll extractPngs reads [] [] = some (pngs.map Png.bytes, [])) := by
  refine ⟨fun buf => ?_, fun pngs reads => ?_⟩
  · obtain ⟨result, all⟩ := extractLoop_ends (buf.length + 1) buf [] (Nat.lt_succ_self _)
    exact ⟨result, all⟩
  · have any_read (front : reads.flatten <+: pngs.flatMap Png.bytes) :
        feedAll extractPngs reads [] [] =
          some ((completed Png.bytes pngs reads.flatten.length).map Png.bytes,
            unfinished Png.bytes pngs reads.flatten) := by
      have run := extractPngs_extracts.feedAll pngs reads [] front
      have none_yet : completed Png.bytes pngs 0 = [] := by
        cases pngs with
        | nil => rfl
        | cons png pngs =>
          apply if_neg
          have sig : pngSig.length = 8 := rfl
          rw [Png.bytes, List.length_append]
          omega
      rwa [List.length_nil, unfinished, List.length_nil, none_yet, List.nil_append] at run
    refine ⟨any_read, fun whole => ?_⟩
    rw [any_read (by rw [whole]), whole, completed_all, unfinished_all]

/-- The smallest picture. -/
def emptyPng : Png where
  chunks := []
  iend := ⟨iendType, [], [0xAE, 0x42, 0x60, 0x82], rfl, rfl, by decide⟩
  inner := by simp
  last := rfl

/-- Two pictures, the first read in two parts that meet inside its signature. -/
theorem extractPngs_stream_cut :
    feedAll extractPngs [emptyPng.bytes.take 3, emptyPng.bytes.drop 3 ++ emptyPng.bytes] [] [] =
      some ([emptyPng.bytes, emptyPng.bytes], []) :=
  (extractPngs_stream.2 [emptyPng, emptyPng] _).2 (by decide)

end StreamRelay.Agent.PngFrames
