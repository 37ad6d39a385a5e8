import StreamRelay.Recorder.Reparse
import StreamRelay.Tap.Client

/-! Which payloads the tap takes for an IDR. The scan runs over the payload as it was
published, so a unit that comes without a start code is not looked at, and it wants one more
byte than the header behind a short start code. -/
namespace StreamRelay.Tap
open StartCode Recorder

/-- The `while` loop of annexb_contains_nal_type. Every round moves on, so the length of the
data is fuel enough. -/
def nalTypeLoop (p : Bytes) (nalType : UInt8) : Nat → Nat → Bool
  | 0, _ => false
  | fuel + 1, i =>
    if i + 4 < p.length then
      let sc :=
        if p.getD i 0 = 0 ∧ p.getD (i + 1) 0 = 0 ∧ p.getD (i + 2) 0 = 1 then 3
        else if p.getD i 0 = 0 ∧ p.getD (i + 1) 0 = 0 ∧ p.getD (i + 2) 0 = 0 ∧
          p.getD (i + 3) 0 = 1 then 4
        else 0
      if sc ≠ 0 then
        let hdrIdx := i + sc
        if hdrIdx < p.length ∧ p.getD hdrIdx 0 &&& 0x1F = nalType then true
        else nalTypeLoop p nalType fuel (hdrIdx + 1)
      else nalTypeLoop p nalType fuel (i + 1)
    else false

def annexbContainsNalType (p : Bytes) (nalType : UInt8) : Bool :=
  if p.length < 5 then false else nalTypeLoop p nalType p.length 0

/-- `is_idr` of h264_tap_publish. The server's copy finds out first whether a start code is
missing, the agent's afterwards. -/
def idrFlag : Copy → Bytes → Bool
  | .server, data | .agent, data => annexbContainsNalType data 5

/-- What a client is sent of the payload itself. -/
def TapPacket.unit (packet : TapPacket) : Bytes := packet.startCode ++ packet.payload

/-- In both copies the flag says whether what any client is sent has a unit of type 5. -/
def Classified (data : Bytes) : Prop :=
  (∀ copy c number, idrFlag copy data = true ↔
    ∃ nal ∈ scan 0 1 (assemble c data number).unit, h264NalType nal = 5) ∧
  idrFlag .server data = idrFlag .agent data

/-- A single byte at the end of the text is all there is behind a start code of three. -/
def Clipped (text : Text UInt8) : Prop :=
  text.trailing = 0 ∧ ∃ piece ∈ text.pieces.getLast?, piece.zeros = 0 ∧ piece.unit.length = 1

/-- A unit alone is not of type 5, and if a clipped last unit is, so is another. -/
def Shown : Payload → Prop
  | .coded text _ _ => Clipped text → (∃ nal ∈ text.units.getLast?, h264NalType nal = 5) →
      ∃ nal ∈ text.units.dropLast, h264NalType nal = 5
  | .raw unit _ => h264NalType unit ≠ 5

variable {nalType : UInt8}

theorem nalTypeLoop_eq (p : Bytes) (fuel i : Nat) (enough : p.length - i ≤ fuel) :
    nalTypeLoop p nalType fuel i = containsNalType nalType (p.drop i) := by
  induction fuel generalizing i with
  | zero =>
    rw [List.drop_eq_nil_of_le (by omega)]
    rfl
  | succ fuel ih =>
    have length : (p.drop i).length = p.length - i := List.length_drop
    have later (n : Nat) : p.drop (i + n) = (p.drop i).drop n := (List.drop_drop ..).symm
    have at0 := getD_drop p i 0
    have at1 := getD_drop p i 1
    have at2 := getD_drop p i 2
    have at3 := getD_drop p i 3
    have at4 := getD_drop p i 4
    unfold nalTypeLoop
    match rest : p.drop i with
    | [] | [_] | [_, _] | [_, _, _] | [_, _, _, _] =>
      simp only [rest, List.length_nil, List.length_cons] at length
      rw [if_neg (by omega)]
      rfl
    | a :: b :: c :: d :: e :: tail =>
      simp only [rest, List.length_cons] at length
      simp only [rest, List.getD_cons_zero, List.getD_cons_succ, Nat.add_zero]
        at at0 at1 at2 at3 at4
      have after1 := ih (i + 1) (by omega)
      have after4 := ih (i + 4) (by omega)
      have after5 := ih (i + 5) (by omega)
      simp only [later, rest, List.drop_succ_cons, List.drop_zero] at after1 after4 after5
      subst at0 at1 at2 at3 at4
      rw [if_pos (by omega)]
      unfold containsNalType
      split
      · next short =>
        have inside : i + 3 < p.length := by omega
        simp only [if_true, inside, true_and, ne_eq, OfNat.ofNat_ne_zero, not_false_eq_true,
          Nat.add_assoc, after4]
        split
        · next found => simp only [found, BEq.rfl, Bool.true_or]
        · next other => simp only [beq_eq_false_iff_ne.mpr other, Bool.false_or]
      · split
        · next long =>
          have inside : i + 4 < p.length := by omega
          simp only [if_true, inside, true_and, ne_eq, OfNat.ofNat_ne_zero, not_false_eq_true,
            Nat.add_assoc, after5]
          split
          · next found => simp only [found, BEq.rfl, Bool.true_or]
          · next other => simp only [beq_eq_false_iff_ne.mpr other, Bool.false_or]
        · simp only [ne_eq, not_true_eq_false, if_false, after1]

theorem annexbContainsNalType_eq (p : Bytes) (nalType : UInt8) :
    annexbContainsNalType p nalType = containsNalType nalType p := by
  unfold annexbContainsNalType
  split
  · next short =>
    match p with
    | [] | [_] | [_, _] | [_, _, _] | [_, _, _, _] => rfl
    | _ :: _ :: _ :: _ :: _ :: _ =>
      simp only [List.length_cons] at short
      omega
  · exact nalTypeLoop_eq p _ 0 (Nat.sub_le _ _)

theorem idrFlag_eq (copy : Copy) (data : Bytes) : idrFlag copy data = isIdr data := by
  cases copy <;> exact annexbContainsNalType_eq data 5

theorem containsNalType_shift (x : UInt8) (rest : Bytes)
    (none_here : codeLength 0 1 (x :: rest) = 0) :
    containsNalType nalType (x :: rest) = containsNalType nalType rest := by
  match rest with
  | [] | [_] | [_, _] | [_, _, _] => rfl
  | b :: c :: d :: e :: tail =>
    have short : ¬ (x = 0 ∧ b = 0 ∧ c = 1) := by
      intro short
      simp [codeLength, short] at none_here
    have long : ¬ (x = 0 ∧ b = 0 ∧ c = 0 ∧ d = 1) := by
      intro long
      simp [codeLength, long] at none_here
    rw [containsNalType, if_neg short, if_neg long]

/-- Nothing is found inside a unit. -/
theorem containsNalType_unit (nal rest : Bytes) (valid : nal ≠ [] → IsUnit 0 1 nal) :
    containsNalType nalType (nal ++ rest) = containsNalType nalType rest := by
  induction nal with
  | nil => rfl
  | cons x nal ih =>
    have unit := valid (by simp)
    have none_here := codeLength_unit 0 1 (x :: nal) rest unit.nonempty unit.last unit.clean
    rw [List.cons_append] at none_here ⊢
    rw [containsNalType_shift x _ none_here, ih (unit.tail 0 1)]

theorem containsNalType_zeros (count : Nat) :
    containsNalType nalType (List.replicate count 0) = false := by
  induction count with
  | zero => rfl
  | succ count ih =>
    have none_here := codeLength_zeros (0 : UInt8) 1 (by decide) (count + 1)
    rw [List.replicate_succ] at none_here ⊢
    rw [containsNalType_shift _ _ none_here, ih]

/-- The header behind a start code is read, unless the code is short and the header is the
last byte. -/
theorem containsNalType_marker (count : Nat) (header : UInt8) (rest : Bytes) :
    containsNalType nalType (List.replicate count 0 ++ 0 :: 0 :: 1 :: header :: rest) =
      (!(count = 0 ∧ rest = [] : Bool) &&
        (header &&& 0x1F == nalType || containsNalType nalType rest)) := by
  induction count with
  | zero =>
    cases rest with
    | nil => rfl
    | cons e rest => simp [containsNalType]
  | succ count ih =>
    match count with
    | 0 => simp [containsNalType]
    | count + 1 =>
      have none_here := codeLength_padded (0 : UInt8) 1 (by decide) count (header :: rest)
      rw [List.replicate_succ, List.cons_append] at none_here ⊢
      rw [containsNalType_shift _ _ none_here, ih]
      simp

/-- The units whose headers are read. -/
def readUnits (trailing : Nat) : List (Piece UInt8) → List Bytes
  | [] => []
  | [piece] => if piece.zeros = 0 ∧ piece.unit.length = 1 ∧ trailing = 0 then [] else [piece.unit]
  | piece :: next :: pieces => piece.unit :: readUnits trailing (next :: pieces)

theorem containsNalType_pieces (trailing : Nat) (pieces : List (Piece UInt8))
    (valid : ∀ piece ∈ pieces, IsUnit 0 1 piece.unit) :
    containsNalType nalType ((Text.mk pieces trailing).symbols 0 1) =
      (readUnits trailing pieces).any fun nal => h264NalType nal == nalType := by
  induction pieces with
  | nil => exact containsNalType_zeros trailing
  | cons piece pieces ih =>
    have later := ih fun other member => valid other (List.mem_cons_of_mem _ member)
    have own := valid piece (by simp)
    obtain ⟨header, tail, shape⟩ := List.exists_cons_of_ne_nil own.nonempty
    rw [shape] at own
    have text : (Text.mk (piece :: pieces) trailing).symbols 0 1 =
        List.replicate piece.zeros 0 ++ 0 :: 0 :: 1 :: header ::
          (tail ++ (Text.mk pieces trailing).symbols 0 1) := by
      simp [Text.symbols, Piece.text_eq, shape]
    rw [text, containsNalType_marker, containsNalType_unit tail _ (own.tail 0 1), later]
    cases pieces with
    | nil =>
      by_cases last : piece.zeros = 0 ∧ tail = [] ∧ trailing = 0 <;>
        simp [readUnits, Text.symbols, shape, h264NalType, last]
    | cons next pieces => simp [readUnits, Text.symbols, shape, h264NalType, Piece.text_eq]

theorem readUnits_clipped (text : Text UInt8) (clipped : Clipped text) :
    readUnits text.trailing text.pieces = text.units.dropLast := by
  obtain ⟨pieces, trailing⟩ := text
  induction pieces with
  | nil => rfl
  | cons piece pieces ih =>
    obtain ⟨ends, last, member, short⟩ := clipped
    cases pieces with
    | nil =>
      obtain rfl : piece = last := by simpa using member
      exact if_pos ⟨short.1, short.2, ends⟩
    | cons next pieces =>
      have later := ih ⟨ends, last, by simpa using member, short⟩
      exact congrArg (piece.unit :: ·) later

theorem readUnits_whole (text : Text UInt8) (whole : ¬ Clipped text) :
    readUnits text.trailing text.pieces = text.units := by
  obtain ⟨pieces, trailing⟩ := text
  induction pieces with
  | nil => rfl
  | cons piece pieces ih =>
    cases pieces with
    | nil =>
      refine if_neg fun short => whole ⟨short.2.2, piece, by simp, short.1, short.2.1⟩
    | cons next pieces =>
      have later := ih fun ⟨ends, last, member, short⟩ =>
        whole ⟨ends, last, by simpa using member, short⟩
      exact congrArg (piece.unit :: ·) later

theorem isIdr_text (text : Text UInt8) (valid : text.WellFormed 0 1) :
    isIdr (text.symbols 0 1) = true ↔
      ∃ nal ∈ readUnits text.trailing text.pieces, h264NalType nal = 5 := by
  have found : containsNalType 5 (text.symbols 0 1) = _ :=
    containsNalType_pieces text.trailing text.pieces
      fun piece member => valid _ (List.mem_map_of_mem member)
  rw [isIdr, found]
  simp

theorem isIdr_raw (nal : Bytes) (valid : IsUnit 0 1 nal) : isIdr nal = false := by
  have skipped : containsNalType 5 (nal ++ []) = _ := containsNalType_unit nal [] fun _ => valid
  rwa [List.append_nil] at skipped

theorem hasStartCode_raw (nal : Bytes) (valid : IsUnit 0 1 nal) : hasStartCode nal = false := by
  by_contra starts
  rw [Bool.not_eq_false, hasStartCode, Bool.or_eq_true, beq_iff_eq, beq_iff_eq] at starts
  apply valid.clean
  rcases starts with long | short
  · have front : startCode4 <+: nal := by
      rw [← long]
      exact List.take_prefix ..
    exact (List.infix_cons (List.prefix_rfl.isInfix)).trans front.isInfix
  · have front : startCode3 <+: nal := by
      rw [← short]
      exact List.take_prefix ..
    exact front.isInfix

/-- The start code that the tap puts in front opens a unit of its own only where none follows. -/
theorem scan_unit (payload : Payload) (c : TapClient) (number : Nat) :
    scan 0 1 (assemble c payload.bytes number).unit = payload.units := by
  cases payload with
  | coded text valid nonempty =>
    have unit : (assemble c (text.symbols 0 1) number).unit =
        (if hasStartCode (text.symbols 0 1) then [] else startCode4) ++ text.symbols 0 1 := rfl
    rw [Payload.bytes, unit]
    split
    · exact (scan_symbols 0 1 (by decide) text (valid.spaced 0 1)).trans (keep_all 0 1 valid)
    · have added : startCode4 ++ text.symbols 0 1 =
          ((Text.single []).append text).symbols 0 1 := by
        rw [Text.symbols_append, Recorder.symbols_single]
        rfl
      have spaced : ((Text.single []).append text).WellSpaced 0 1 := by
        intro nal member full
        rw [Text.units_append] at member
        rcases List.mem_append.mp member with code | own
        · exact absurd (List.mem_singleton.mp code) full
        · exact valid nal own
      rw [added, scan_symbols 0 1 (by decide) _ spaced, Text.units_append, List.flatMap_append,
        keep_all 0 1 valid]
      rfl
  | raw nal valid =>
    have unit : (assemble c nal number).unit = (Text.single nal).symbols 0 1 := by
      rw [TapPacket.unit, Recorder.symbols_single]
      simp [assemble, hasStartCode_raw nal valid, startCode4, Recorder.startCode4]
    have formed : (Text.single nal).WellFormed 0 1 := by
      intro other member
      obtain rfl := List.mem_singleton.mp member
      exact valid
    rw [Payload.bytes, unit, scan_symbols 0 1 (by decide) _ (formed.spaced 0 1),
      keep_all 0 1 formed]
    rfl

/-- A payload is classified exactly if it is shown. -/
theorem classified_iff (payload : Payload) : Classified payload.bytes ↔ Shown payload := by
  have same : Classified payload.bytes ↔
      (isIdr payload.bytes = true ↔ ∃ nal ∈ payload.units, h264NalType nal = 5) := by
    constructor
    · rintro ⟨each, -⟩
      have first := each .server .closed 0
      rwa [idrFlag_eq, scan_unit] at first
    · intro exact_flag
      refine ⟨fun copy c number => ?_, rfl⟩
      rwa [idrFlag_eq, scan_unit]
  rw [same]
  cases payload with
  | raw nal valid => simp [Payload.bytes, Payload.units, Shown, isIdr_raw nal valid]
  | coded text valid nonempty =>
    rw [Payload.bytes, isIdr_text text valid, Payload.units]
    by_cases clipped : Clipped text
    · have shown : Shown (.coded text valid nonempty) ↔
          ((∃ nal ∈ text.units.getLast?, h264NalType nal = 5) →
            ∃ nal ∈ text.units.dropLast, h264NalType nal = 5) :=
        ⟨fun shown => shown clipped, fun shown _ => shown⟩
      rw [readUnits_clipped text clipped, shown]
      rcases List.eq_nil_or_concat text.units with none | ⟨front, last, units⟩
      · simp [none]
      · simp only [units, List.concat_eq_append, List.dropLast_concat, List.getLast?_concat]
        constructor
        · rintro all ⟨nal, member, five⟩
          exact all.mpr ⟨nal, by simp [← Option.some.inj member], five⟩
        · intro shown
          constructor
          · rintro ⟨nal, member, five⟩
            exact ⟨nal, List.mem_append_left _ member, five⟩
          · rintro ⟨nal, member, five⟩
            rcases List.mem_append.mp member with member | member
            · exact ⟨nal, member, five⟩
            · exact shown ⟨nal, by simp [List.mem_singleton.mp member], five⟩
    · rw [readUnits_whole text clipped]
      simp [Shown, clipped]

/-- An IDR alone, without a start code. -/
theorem bare_idr_unclassified :
    ¬ Classified (Payload.raw [0x65, 0x88] ⟨by decide, by decide, by decide⟩).bytes := by
  rintro ⟨each, -⟩
  have bare := (each .server .closed 0).mpr ⟨[0x65, 0x88], by decide, by decide⟩
  revert bare
  decide

end StreamRelay.Tap
