import StreamRelay.Tap.IdrFlag

/-! The worker's own search for an IDR. It looks for the long start code first and goes on behind
the code, at the header, where the tap goes on behind the header; the recorder splits the payload
into its units. On units that hold no start code the three see the same. -/
namespace StreamRelay.Worker
open StartCode Recorder Tap

/-- The `while` loop of is_idr_frame. Every round moves on, so the length of the data is fuel
enough. -/
def idrFrameLoop (data : Bytes) : Nat → Nat → Bool
  | 0, _ => false
  | fuel + 1, i =>
    if i < data.length - 4 then
      if data.getD i 0 = 0 ∧ data.getD (i + 1) 0 = 0 ∧ data.getD (i + 2) 0 = 0 ∧
          data.getD (i + 3) 0 = 1 then
        let nalUnitType := data.getD (i + 4) 0 &&& 0x1F
        if nalUnitType = 5 then true else idrFrameLoop data fuel (i + 4)
      else if i < data.length - 3 ∧ data.getD i 0 = 0 ∧ data.getD (i + 1) 0 = 0 ∧
          data.getD (i + 2) 0 = 1 then
        let nalUnitType := data.getD (i + 3) 0 &&& 0x1F
        if nalUnitType = 5 then true else idrFrameLoop data fuel (i + 3)
      else idrFrameLoop data fuel (i + 1)
    else false

def isIdrFrame (data : Bytes) : Bool :=
  if data.length < 5 then false else idrFrameLoop data data.length 0

/-- The same scan over the bytes that are left. -/
def holdsIdr : Bytes → Bool
  | a :: b :: c :: d :: e :: rest =>
    if a = 0 ∧ b = 0 ∧ c = 0 ∧ d = 1 then e &&& 0x1F == 5 || holdsIdr (e :: rest)
    else if a = 0 ∧ b = 0 ∧ c = 1 then d &&& 0x1F == 5 || holdsIdr (d :: e :: rest)
    else holdsIdr (b :: c :: d :: e :: rest)
  | _ => false

theorem idrFrameLoop_eq (data : Bytes) (fuel i : Nat) (enough : data.length - i ≤ fuel) :
    idrFrameLoop data fuel i = holdsIdr (data.drop i) := by
  induction fuel generalizing i with
  | zero =>
    rw [List.drop_eq_nil_of_le (by omega)]
    rfl
  | succ fuel ih =>
    have length : (data.drop i).length = data.length - i := List.length_drop
    have later (n : Nat) : data.drop (i + n) = (data.drop i).drop n := (List.drop_drop ..).symm
    have at0 := getD_drop data i 0
    have at1 := getD_drop data i 1
    have at2 := getD_drop data i 2
    have at3 := getD_drop data i 3
    have at4 := getD_drop data i 4
    unfold idrFrameLoop
    match rest : data.drop i with
    | [] | [_] | [_, _] | [_, _, _] | [_, _, _, _] =>
      simp only [rest, List.length_nil, List.length_cons] at length
      rw [if_neg (by omega)]
      rfl
    | a :: b :: c :: d :: e :: tail =>
      simp only [rest, List.length_cons] at length
      simp only [rest, List.getD_cons_zero, List.getD_cons_succ, Nat.add_zero]
        at at0 at1 at2 at3 at4
      have after1 := ih (i + 1) (by omega)
      have after3 := ih (i + 3) (by omega)
      have after4 := ih (i + 4) (by omega)
      simp only [later, rest, List.drop_succ_cons, List.drop_zero] at after1 after3 after4
      subst at0 at1 at2 at3 at4
      rw [if_pos (by omega)]
      unfold holdsIdr
      split
      · simp only [after4]
        split
        · next found => simp only [found, BEq.rfl, Bool.true_or]
        · next other => simp only [beq_eq_false_iff_ne.mpr other, Bool.false_or]
      · have inside : i < data.length - 3 := by omega
        simp only [inside, true_and, after3, after1]
        split
        · split
          · next found => simp only [found, BEq.rfl, Bool.true_or]
          · next other => simp only [beq_eq_false_iff_ne.mpr other, Bool.false_or]
        · rfl

theorem isIdrFrame_eq (data : Bytes) : isIdrFrame data = holdsIdr data := by
  unfold isIdrFrame
  split
  · next short =>
    match data with
    | [] | [_] | [_, _] | [_, _, _] | [_, _, _, _] => rfl
    | _ :: _ :: _ :: _ :: _ :: _ =>
      simp only [List.length_cons] at short
      omega
  · exact idrFrameLoop_eq data _ 0 (Nat.sub_le _ _)

theorem holdsIdr_shift (x : UInt8) (rest : Bytes) (none_here : codeLength 0 1 (x :: rest) = 0) :
    holdsIdr (x :: rest) = holdsIdr rest := by
  match rest with
  | [] | [_] | [_, _] | [_, _, _] => rfl
  | b :: c :: d :: e :: tail =>
    have short : ¬ (x = 0 ∧ b = 0 ∧ c = 1) := by
      intro short
      simp [codeLength, short] at none_here
    have long : ¬ (x = 0 ∧ b = 0 ∧ c = 0 ∧ d = 1) := by
      intro long
      simp [codeLength, long] at none_here
    rw [holdsIdr, if_neg long, if_neg short]

theorem holdsIdr_unit (nal rest : Bytes) (valid : IsUnit 0 1 nal) :
    holdsIdr (nal ++ rest) = holdsIdr rest := by
  induction nal with
  | nil => rfl
  | cons x nal ih =>
    have none_here := codeLength_unit 0 1 (x :: nal) rest valid.nonempty valid.last valid.clean
    rw [List.cons_append] at none_here ⊢
    rw [holdsIdr_shift x _ none_here]
    by_cases whole : nal = []
    · rw [whole, List.nil_append]
    · exact ih (valid.tail 0 1 whole)

theorem holdsIdr_zeros (count : Nat) : holdsIdr (List.replicate count 0) = false := by
  induction count with
  | zero => rfl
  | succ count ih =>
    have none_here := codeLength_zeros (0 : UInt8) 1 (by decide) (count + 1)
    rw [List.replicate_succ] at none_here ⊢
    rw [holdsIdr_shift _ _ none_here, ih]

/-- Behind a start code the header is looked at and then scanned with the rest. -/
theorem holdsIdr_marker (count : Nat) (header second : UInt8) (rest : Bytes) :
    holdsIdr (List.replicate count 0 ++ 0 :: 0 :: 1 :: header :: second :: rest) =
      (header &&& 0x1F == 5 || holdsIdr (header :: second :: rest)) := by
  induction count with
  | zero => simp [holdsIdr]
  | succ count ih =>
    match count with
    | 0 => simp [holdsIdr]
    | count + 1 =>
      have none_here := codeLength_padded (0 : UInt8) 1 (by decide) count (header :: second :: rest)
      rw [List.replicate_succ, List.cons_append] at none_here ⊢
      rw [holdsIdr_shift _ _ none_here, ih]

theorem holdsIdr_pieces (trailing : Nat) (pieces : List (Piece UInt8))
    (valid : ∀ piece ∈ pieces, IsUnit 0 1 piece.unit)
    (full : ∀ piece ∈ pieces, 2 ≤ piece.unit.length) :
    holdsIdr ((Text.mk pieces trailing).symbols 0 1) =
      pieces.any fun piece => h264NalType piece.unit == 5 := by
  induction pieces with
  | nil => exact holdsIdr_zeros trailing
  | cons piece pieces ih =>
    have later := ih (fun other member => valid other (List.mem_cons_of_mem _ member))
      fun other member => full other (List.mem_cons_of_mem _ member)
    have own := valid piece (by simp)
    have two := full piece (by simp)
    match shape : piece.unit with
    | [] | [_] => simp [shape] at two
    | header :: second :: tail =>
      have text : (Text.mk (piece :: pieces) trailing).symbols 0 1 =
          List.replicate piece.zeros 0 ++ 0 :: 0 :: 1 :: header :: second ::
            (tail ++ (Text.mk pieces trailing).symbols 0 1) := by
        simp [Text.symbols, Piece.text_eq, shape]
      have inside := holdsIdr_unit piece.unit ((Text.mk pieces trailing).symbols 0 1) own
      rw [shape, List.cons_append, List.cons_append] at inside
      rw [text, holdsIdr_marker, inside, later, List.any_cons, shape]
      rfl

theorem isIdrFrame_text (text : Text UInt8) (valid : text.WellFormed 0 1)
    (full : ∀ nal ∈ text.units, 2 ≤ nal.length) :
    isIdrFrame (text.symbols 0 1) = true ↔ ∃ nal ∈ text.units, h264NalType nal = 5 := by
  have found := holdsIdr_pieces text.trailing text.pieces
    (fun piece member => valid _ (List.mem_map_of_mem member))
    fun piece member => full _ (List.mem_map_of_mem member)
  rw [isIdrFrame_eq, found]
  simp [Text.units]

theorem annexbContainsNalType_text (text : Text UInt8) (valid : text.WellFormed 0 1)
    (full : ∀ nal ∈ text.units, 2 ≤ nal.length) :
    annexbContainsNalType (text.symbols 0 1) 5 = true ↔
      ∃ nal ∈ text.units, h264NalType nal = 5 := by
  have whole : ¬ Clipped text := by
    rintro ⟨-, piece, last, -, single⟩
    have two := full piece.unit (List.mem_map_of_mem (List.mem_of_getLast? last))
    omega
  rw [annexbContainsNalType_eq, ← readUnits_whole text whole]
  exact isIdr_text text valid

/-- Worker, tap and recorder take the same well-formed payloads for an IDR: those with a unit of
type 5. -/
theorem idr_detectors_agree (text : Text UInt8) (valid : text.WellFormed 0 1)
    (nonempty : text.pieces ≠ []) (full : ∀ nal ∈ text.units, 2 ≤ nal.length)
    (malloc : Nat → Bool) (s : RecorderStream) (h264 : s.codec = 0) :
    (isIdrFrame (text.symbols 0 1) = true ↔ ∃ nal ∈ text.units, h264NalType nal = 5) ∧
      (annexbContainsNalType (text.symbols 0 1) 5 = true ↔
        ∃ nal ∈ text.units, h264NalType nal = 5) ∧
      ((analyzePayload malloc s (text.symbols 0 1)).2.hasKeyframe = true ↔
        ∃ nal ∈ text.units, h264NalType nal = 5) := by
  refine ⟨isIdrFrame_text text valid full, annexbContainsNalType_text text valid full, ?_⟩
  rw [analyzePayload_eq, h264, hasKeyframe, nalUnits_text text valid nonempty]
  simp [IsKeyframe]

/-- Parameter sets and an IDR behind start codes of both lengths, padded. -/
theorem idr_detectors_agree_padded :
    let text : Text UInt8 := ⟨[⟨0, true, [0x67, 0x42]⟩, ⟨1, false, [0x65, 0x88]⟩], 2⟩
    isIdrFrame (text.symbols 0 1) = true := by
  intro text
  apply (idr_detectors_agree text ?_ (by decide) (by decide) (fun _ => true) .zero rfl).1.mpr
  · exact ⟨[0x65, 0x88], by decide, by decide⟩
  · intro unit member
    simp only [text, Text.units, List.map_cons, List.map_nil, List.mem_cons, List.not_mem_nil,
      or_false] at member
    rcases member with rfl | rfl <;> exact ⟨by decide, by decide, by decide⟩

end StreamRelay.Worker
