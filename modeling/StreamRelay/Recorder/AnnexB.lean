import StreamRelay.StartCode
import StreamRelay.Recorder.State

/-! Start-code scanning and payload analysis of the recorder. The index loops of
the source refine the list scanner of `StartCode` at zero and one, so which NAL
units analyze_payload visits is a fact about the text alone. -/
namespace StreamRelay.Recorder

def paramSetLimit : Nat := 1024 * 1024

def startCode4 : Bytes := [0, 0, 0, 1]

def startCodeLenAt (data : Bytes) (pos : Nat) : Nat :=
  if pos + 3 ≤ data.length ∧ data.getD pos 0 = 0 ∧ data.getD (pos + 1) 0 = 0 ∧
      data.getD (pos + 2) 0 = 1 then 3
  else if pos + 4 ≤ data.length ∧ data.getD pos 0 = 0 ∧ data.getD (pos + 1) 0 = 0 ∧
      data.getD (pos + 2) 0 = 0 ∧ data.getD (pos + 3) 0 = 1 then 4
  else 0

/-- The `for` loop of find_start_code, with the number of positions still to try. -/
def findStartCodeFrom (data : Bytes) : Nat → Nat → Option (Nat × Nat)
  | _, 0 => none
  | i, count + 1 =>
    if startCodeLenAt data i = 0 then findStartCodeFrom data (i + 1) count
    else some (i, startCodeLenAt data i)

/-- Position and length of the first start code from `start` on; `none` is SIZE_MAX. -/
def findStartCode (data : Bytes) (start : Nat) : Option (Nat × Nat) :=
  findStartCodeFrom data start (data.length - 2 - start)

def payloadHasStartCode (data : Bytes) : Bool := (findStartCode data 0).isSome

/-- The backward loop that drops zeros before `nal_end`. -/
def nalEnd (data : Bytes) (nalStart : Nat) : Nat → Nat
  | 0 => 0
  | stop + 1 => if nalStart < stop + 1 ∧ data.getD stop 0 = 0 then nalEnd data nalStart stop else stop + 1

/-- The `while (pos != SIZE_MAX)` loop of analyze_payload over any callback in
place of analyze_nal; `none` is a loop that has not ended within the fuel. -/
def nalLoop {σ : Type*} (f : σ → Bytes → σ) (data : Bytes) : Nat → Option (Nat × Nat) → σ → Option σ
  | _, none, acc => some acc
  | 0, some _, _ => none
  | fuel + 1, some (pos, scLen), acc =>
    let nalStart := pos + scLen
    let next := findStartCode data nalStart
    let stop := nalEnd data nalStart (match next with | none => data.length | some (p, _) => p)
    nalLoop f data fuel next
      (if nalStart < stop then f acc ((data.drop nalStart).take (stop - nalStart)) else acc)

def forEachNal {σ : Type*} (f : σ → Bytes → σ) (data : Bytes) (acc : σ) : Option σ :=
  if data = [] then some acc
  else
    match findStartCode data 0 with
    | none => some (f acc data)
    | some found => nalLoop f data (data.length + 1) (some found) acc

structure PayloadAnalysis where
  hasKeyframe : Bool
  deriving DecidableEq, Repr

/-- The record and the result analyze_nal works on, and the allocations made. -/
structure Scan where
  s : RecorderStream
  analysis : PayloadAnalysis
  mallocs : Nat

def cacheParamSet (malloc : Nat → Bool) (c : Scan) (index : Fin 3) (nal : Bytes) : Scan :=
  if nal = [] ∨ paramSetLimit < nal.length then c
  else if c.s.params index = startCode4 ++ nal then c
  else if malloc c.mallocs then
    {c with
      s := {c.s with params := Function.update c.s.params index (startCode4 ++ nal)}
      mallocs := c.mallocs + 1}
  else {c with mallocs := c.mallocs + 1}

def h264NalType (nal : Bytes) : UInt8 := nal.getD 0 0 &&& 0x1f

def hevcNalType (nal : Bytes) : UInt8 := (nal.getD 0 0 >>> 1) &&& 0x3f

def Scan.keyframe (c : Scan) : Scan := {c with analysis := ⟨true⟩}

def analyzeNal (malloc : Nat → Bool) (c : Scan) (nal : Bytes) : Scan :=
  if nal = [] then c
  else if c.s.codec = 0 then
    if h264NalType nal = 7 then cacheParamSet malloc c 0 nal
    else if h264NalType nal = 8 then cacheParamSet malloc c 1 nal
    else if h264NalType nal = 5 then c.keyframe
    else c
  else if c.s.codec = 1 ∧ 2 ≤ nal.length then
    if hevcNalType nal = 32 then cacheParamSet malloc c 0 nal
    else if hevcNalType nal = 33 then cacheParamSet malloc c 1 nal
    else if hevcNalType nal = 34 then cacheParamSet malloc c 2 nal
    else if (16 ≤ hevcNalType nal ∧ hevcNalType nal ≤ 18) ∨ hevcNalType nal = 19 ∨
        hevcNalType nal = 20 ∨ hevcNalType nal = 21 then c.keyframe
    else c
  else c

def analyzePayload (malloc : Nat → Bool) (s : RecorderStream) (data : Bytes) :
    RecorderStream × PayloadAnalysis :=
  let c := (forEachNal (analyzeNal malloc) data ⟨s, ⟨false⟩, 0⟩).getD ⟨s, ⟨false⟩, 0⟩
  (c.s, c.analysis)

/-- The units the loop visits, in order. -/
def nalUnits (data : Bytes) : List Bytes :=
  (forEachNal (fun seen nal => seen ++ [nal]) data []).getD []

/-- The list scanner's view of the same bytes. -/
def scanUnits (data : Bytes) : List Bytes :=
  match StartCode.firstCode 0 1 data with
  | none => StartCode.keep data
  | some (position, length) =>
    StartCode.unitsAfter 0 1 (data.length + 1) (data.drop (position + length))

theorem getD_drop (data : Bytes) (pos i : Nat) : (data.drop pos).getD i 0 = data.getD (pos + i) 0 := by
  simp [List.getD_eq_getElem?_getD]

theorem startCodeLenAt_eq (data : Bytes) (pos : Nat) :
    startCodeLenAt data pos = StartCode.codeLength 0 1 (data.drop pos) := by
  have length : (data.drop pos).length = data.length - pos := List.length_drop
  have at0 := getD_drop data pos 0
  have at1 := getD_drop data pos 1
  have at2 := getD_drop data pos 2
  have at3 := getD_drop data pos 3
  match rest : data.drop pos with
  | [] | [_] | [_, _] =>
    simp only [rest, List.length_nil, List.length_cons] at length
    rw [startCodeLenAt, if_neg (by omega), if_neg (by omega)]
    rfl
  | [a, b, c] =>
    simp only [rest, List.length_nil, List.length_cons] at length
    simp only [rest, List.getD_cons_zero, List.getD_cons_succ, Nat.add_zero] at at0 at1 at2
    have here : pos + 3 ≤ data.length := by omega
    have short : ¬ pos + 4 ≤ data.length := by omega
    subst at0 at1 at2
    simp only [startCodeLenAt, StartCode.codeLength, here, short, true_and, false_and, if_false,
      List.head?_nil, reduceCtorEq, and_false]
  | a :: b :: c :: d :: tail =>
    simp only [rest, List.length_cons] at length
    simp only [rest, List.getD_cons_zero, List.getD_cons_succ, Nat.add_zero] at at0 at1 at2 at3
    have here : pos + 3 ≤ data.length := by omega
    have long : pos + 4 ≤ data.length := by omega
    subst at0 at1 at2 at3
    simp only [startCodeLenAt, StartCode.codeLength, here, long, true_and, List.head?_cons,
      Option.some.injEq]

theorem firstCode_short (text : Bytes) (short : text.length ≤ 2) :
    StartCode.firstCode 0 1 text = none := by
  match text with
  | [] | [_] | [_, _] => simp [StartCode.firstCode, StartCode.codeLength]
  | _ :: _ :: _ :: _ => simp at short

theorem findStartCodeFrom_eq (data : Bytes) (i count : Nat) (tries : count = data.length - 2 - i) :
    findStartCodeFrom data i count =
      (StartCode.firstCode 0 1 (data.drop i)).map fun found => (i + found.1, found.2) := by
  induction count generalizing i with
  | zero =>
    rw [firstCode_short _ (by simp only [List.length_drop]; omega)]
    rfl
  | succ count ih =>
    have inside : i < data.length := by omega
    have cons := List.drop_eq_getElem_cons inside
    have later := ih (i + 1) (by omega)
    rw [findStartCodeFrom, startCodeLenAt_eq]
    split
    · next absent =>
      rw [cons] at absent ⊢
      rw [StartCode.firstCode_shift _ _ _ _ absent, later]
      cases StartCode.firstCode 0 1 (data.drop (i + 1)) <;> simp [Nat.add_comm, Nat.add_left_comm]
    · next present =>
      rw [cons] at present ⊢
      rw [StartCode.firstCode, if_neg present]
      rfl

/-- find_start_code is the list scanner at an offset. -/
theorem findStartCode_eq (data : Bytes) (start : Nat) :
    findStartCode data start =
      (StartCode.firstCode 0 1 (data.drop start)).map fun found => (start + found.1, found.2) :=
  findStartCodeFrom_eq data start _ rfl

theorem nalEnd_bounds (data : Bytes) (nalStart stop : Nat) (ordered : nalStart ≤ stop) :
    nalStart ≤ nalEnd data nalStart stop ∧ nalEnd data nalStart stop ≤ stop := by
  induction stop with
  | zero => simpa [nalEnd] using ordered
  | succ stop ih =>
    rw [nalEnd]
    split
    · next zeros =>
      have := ih (by omega)
      omega
    · omega

/-- The trimmed unit is the list trim of the untrimmed one. -/
theorem nalEnd_trim (data : Bytes) (nalStart stop : Nat) (ordered : nalStart ≤ stop)
    (inside : stop ≤ data.length) :
    (data.drop nalStart).take (nalEnd data nalStart stop - nalStart) =
      StartCode.trim 0 ((data.drop nalStart).take (stop - nalStart)) := by
  induction stop with
  | zero => simp [nalEnd, StartCode.trim]
  | succ stop ih =>
    by_cases start : nalStart = stop + 1
    · subst start
      simp [nalEnd, StartCode.trim]
    have stopIn : stop - nalStart < (data.drop nalStart).length := by
      rw [List.length_drop]; omega
    have last : (data.drop nalStart).take (stop + 1 - nalStart) =
        (data.drop nalStart).take (stop - nalStart) ++ [data.getD stop 0] := by
      have step : stop + 1 - nalStart = (stop - nalStart) + 1 := by omega
      have element : (data.drop nalStart)[stop - nalStart] = data.getD stop 0 := by
        rw [List.getElem_drop, List.getD_eq_getElem?_getD, List.getElem?_eq_getElem (by omega)]
        simp [show nalStart + (stop - nalStart) = stop by omega]
      rw [step, List.take_succ_eq_append_getElem stopIn, element]
    rw [nalEnd]
    split
    · next zeros =>
      rw [ih (by omega) (by omega), last, StartCode.trim, StartCode.trim,
        List.rdropWhile_concat_pos _ _ _ (by simpa using zeros.2)]
    · next nonzero =>
      have final : data.getD stop 0 ≠ 0 := fun zero => nonzero ⟨by omega, zero⟩
      rw [last, StartCode.trim, List.rdropWhile_concat_neg _ _ _ (by simpa using final)]

theorem keep_foldl {σ : Type*} (f : σ → Bytes → σ) (data : Bytes) (nalStart stop : Nat) (acc : σ)
    (inside : stop ≤ data.length) :
    (if nalStart < stop then f acc ((data.drop nalStart).take (stop - nalStart)) else acc) =
      (StartCode.keep ((data.drop nalStart).take (stop - nalStart))).foldl f acc := by
  by_cases some_left : nalStart < stop
  · have nonempty : (data.drop nalStart).take (stop - nalStart) ≠ [] := by
      rw [← List.length_pos_iff, List.length_take, List.length_drop]
      omega
    rw [if_pos some_left, StartCode.keep, if_neg nonempty]
    rfl
  · have empty : stop - nalStart = 0 := by omega
    simp [some_left, empty, StartCode.keep]

/-- The loop ends within the fuel and calls back on the scanner's units. Each
round moves past a start code, which is what the fuel counts. -/
theorem nalLoop_eq {σ : Type*} (f : σ → Bytes → σ) (data : Bytes) (fuel pos scLen : Nat) (acc : σ)
    (inside : pos + scLen ≤ data.length) (enough : data.length - (pos + scLen) < fuel) :
    nalLoop f data fuel (some (pos, scLen)) acc =
      some ((StartCode.unitsAfter 0 1 fuel (data.drop (pos + scLen))).foldl f acc) := by
  induction fuel generalizing pos scLen acc with
  | zero => omega
  | succ fuel ih =>
    simp only [nalLoop, findStartCode_eq]
    rw [StartCode.unitsAfter]
    cases next : StartCode.firstCode 0 1 (data.drop (pos + scLen)) with
    | none =>
      have stopIn := (nalEnd_bounds data (pos + scLen) data.length inside).2
      have whole : (data.drop (pos + scLen)).take (data.length - (pos + scLen)) =
          data.drop (pos + scLen) := List.take_of_length_le (by simp)
      simp only [Option.map_none, nalLoop]
      rw [keep_foldl f data _ _ acc stopIn, nalEnd_trim data _ _ inside (Nat.le_refl _), whole]
    | some found =>
      obtain ⟨position, length⟩ := found
      have bounds := StartCode.firstCode_bounds 0 1 _ _ _ next
      rw [List.length_drop] at bounds
      have ordered : pos + scLen ≤ pos + scLen + position := by omega
      have stopIn := (nalEnd_bounds data (pos + scLen) (pos + scLen + position) ordered).2
      have unit : pos + scLen + position - (pos + scLen) = position := by omega
      simp only [Option.map_some]
      rw [keep_foldl f data _ _ acc (by omega), nalEnd_trim data _ _ ordered (by omega), unit,
        ih _ _ _ (by omega) (by omega), List.foldl_append, List.drop_drop, Nat.add_assoc (pos + scLen)]

theorem forEachNal_scan {σ : Type*} (f : σ → Bytes → σ) (data : Bytes) (acc : σ) :
    forEachNal f data acc = some ((scanUnits data).foldl f acc) := by
  unfold forEachNal scanUnits
  by_cases empty : data = []
  · subst empty
    rfl
  rw [if_neg empty, findStartCode_eq, List.drop_zero]
  cases found : StartCode.firstCode 0 1 data with
  | none => simp [StartCode.keep, empty]
  | some code =>
    obtain ⟨position, length⟩ := code
    have bounds := StartCode.firstCode_bounds 0 1 _ _ _ found
    simp only [Option.map_some, Nat.zero_add]
    exact nalLoop_eq f data _ _ _ acc bounds.2 (by omega)

theorem nalUnits_eq (data : Bytes) : nalUnits data = scanUnits data := by
  have collect (units seen : List Bytes) :
      units.foldl (fun seen nal => seen ++ [nal]) seen = seen ++ units := by
    induction units generalizing seen with
    | nil => simp
    | cons unit units ih => simp [ih]
  simp [nalUnits, forEachNal_scan, collect]

/-- The loop ends on every payload, and any callback sees the units in order. -/
theorem forEachNal_eq {σ : Type*} (f : σ → Bytes → σ) (data : Bytes) (acc : σ) :
    forEachNal f data acc = some ((nalUnits data).foldl f acc) := by
  rw [nalUnits_eq, forEachNal_scan]

/-- Splitting a well-formed Annex-B text gives back its units. -/
theorem nalUnits_text (text : StartCode.Text UInt8) (valid : text.WellFormed 0 1)
    (nonempty : text.pieces ≠ []) : nalUnits (text.symbols 0 1) = text.units := by
  obtain ⟨position, length, found, units⟩ :=
    StartCode.scan_text 0 1 (by decide) text valid.spaced nonempty
  rw [nalUnits_eq, scanUnits, found, ← StartCode.keep_all 0 1 valid]
  exact units _ (Nat.le_succ_of_le (text.pieces_length_le 0 1))

/-- The parameter set a unit carries for the codec. -/
def paramSlot (codec : UInt32) (nal : Bytes) : Option (Fin 3) :=
  if codec = 0 then
    if h264NalType nal = 7 then some 0 else if h264NalType nal = 8 then some 1 else none
  else if codec = 1 ∧ 2 ≤ nal.length then
    if hevcNalType nal = 32 then some 0 else if hevcNalType nal = 33 then some 1
    else if hevcNalType nal = 34 then some 2 else none
  else none

def IsKeyframe (codec : UInt32) (nal : Bytes) : Prop :=
  (codec = 0 ∧ h264NalType nal = 5) ∨
    (codec = 1 ∧ 2 ≤ nal.length ∧ 16 ≤ hevcNalType nal ∧ hevcNalType nal ≤ 21)

instance (codec : UInt32) (nal : Bytes) : Decidable (IsKeyframe codec nal) := by
  unfold IsKeyframe
  infer_instance

def hasKeyframe (codec : UInt32) (data : Bytes) : Bool :=
  (nalUnits data).any fun nal => IsKeyframe codec nal

theorem keyframe_types (type : UInt8) :
    ((16 ≤ type ∧ type ≤ 18) ∨ type = 19 ∨ type = 20 ∨ type = 21) ↔ 16 ≤ type ∧ type ≤ 21 := by
  simp only [UInt8.le_iff_toNat_le, ← UInt8.toNat_inj, UInt8.reduceToNat]
  omega

theorem paramSlot_nil (codec : UInt32) : paramSlot codec [] = none := by
  simp [paramSlot, h264NalType]

theorem not_keyframe_nil (codec : UInt32) : ¬ IsKeyframe codec [] := by
  simp [IsKeyframe, h264NalType]

/-- analyze_nal by what the unit is for the codec. -/
theorem analyzeNal_cases (malloc : Nat → Bool) (c : Scan) (nal : Bytes) :
    (∃ slot, paramSlot c.s.codec nal = some slot ∧ ¬ IsKeyframe c.s.codec nal ∧
      analyzeNal malloc c nal = cacheParamSet malloc c slot nal) ∨
    (paramSlot c.s.codec nal = none ∧ IsKeyframe c.s.codec nal ∧
      analyzeNal malloc c nal = c.keyframe) ∨
    (paramSlot c.s.codec nal = none ∧ ¬ IsKeyframe c.s.codec nal ∧
      analyzeNal malloc c nal = c) := by
  by_cases empty : nal = []
  · subst empty
    exact .inr (.inr ⟨paramSlot_nil _, not_keyframe_nil _, if_pos rfl⟩)
  unfold analyzeNal paramSlot IsKeyframe
  rw [if_neg empty]
  by_cases h264 : c.s.codec = 0
  · have not_hevc : ¬ c.s.codec = 1 := by rw [h264]; decide
    simp only [h264, if_true, true_and]
    by_cases sps : h264NalType nal = 7
    · simp [sps]
    by_cases pps : h264NalType nal = 8
    · simp [pps]
    by_cases idr : h264NalType nal = 5
    · simp [idr]
    simp [sps, pps, idr]
  · simp only [h264, if_false, false_and, false_or]
    by_cases hevc : c.s.codec = 1 ∧ 2 ≤ nal.length
    · simp only [hevc, if_true, and_self, true_and, keyframe_types]
      by_cases vps : hevcNalType nal = 32
      · simp [vps]
      by_cases sps : hevcNalType nal = 33
      · simp [sps]
      by_cases pps : hevcNalType nal = 34
      · simp [pps]
      by_cases idr : 16 ≤ hevcNalType nal ∧ hevcNalType nal ≤ 21
      · simp [vps, sps, pps, idr]
      · simp [vps, sps, pps, idr]
    · have neither : ¬ (c.s.codec = 1 ∧ 2 ≤ nal.length ∧ 16 ≤ hevcNalType nal ∧
          hevcNalType nal ≤ 21) := fun both => hevc ⟨both.1, both.2.1⟩
      simp [hevc, neither]

theorem cacheParamSet_frame (malloc : Nat → Bool) (c : Scan) (slot : Fin 3) (nal : Bytes) :
    (cacheParamSet malloc c slot nal).analysis = c.analysis ∧
      (cacheParamSet malloc c slot nal).s =
        {c.s with params := (cacheParamSet malloc c slot nal).s.params} := by
  unfold cacheParamSet
  split
  · simp
  split
  · simp
  split <;> simp

theorem analyzeNal_frame (malloc : Nat → Bool) (c : Scan) (nal : Bytes) :
    (analyzeNal malloc c nal).s = {c.s with params := (analyzeNal malloc c nal).s.params} := by
  rcases analyzeNal_cases malloc c nal with ⟨slot, -, -, same⟩ | ⟨-, -, same⟩ | ⟨-, -, same⟩ <;>
    rw [same]
  exacts [(cacheParamSet_frame malloc c slot nal).2, rfl]

theorem analyzeNal_keyframe (malloc : Nat → Bool) (c : Scan) (nal : Bytes) :
    (analyzeNal malloc c nal).analysis.hasKeyframe =
      (c.analysis.hasKeyframe || decide (IsKeyframe c.s.codec nal)) := by
  rcases analyzeNal_cases malloc c nal with ⟨slot, -, key, same⟩ | ⟨-, key, same⟩ | ⟨-, key, same⟩ <;>
    rw [same]
  · simp [(cacheParamSet_frame malloc c slot nal).1, key]
  · simp [Scan.keyframe, key]
  · simp [key]

/-- Without allocation failures a set not over the limit is the cached one afterwards. -/
theorem analyzeNal_params (c : Scan) (nal : Bytes) (slot : Fin 3) :
    (analyzeNal (fun _ => true) c nal).s.params slot =
      if paramSlot c.s.codec nal = some slot ∧ nal.length ≤ paramSetLimit then startCode4 ++ nal
      else c.s.params slot := by
  rcases analyzeNal_cases (fun _ => true) c nal with
    ⟨own, is_set, -, same⟩ | ⟨no_set, -, same⟩ | ⟨no_set, -, same⟩
  · have nonempty : nal ≠ [] := by
      rintro rfl
      simp [paramSlot_nil] at is_set
    rw [same, is_set, cacheParamSet]
    by_cases fits : nal.length ≤ paramSetLimit
    · rw [if_neg (by simp [nonempty]; omega)]
      by_cases this_slot : own = slot
      · subst this_slot
        by_cases cached : c.s.params own = startCode4 ++ nal <;> simp [cached, fits]
      · split <;> simp [this_slot, Function.update_of_ne (Ne.symm this_slot)]
    · rw [if_pos (by omega)]
      simp [fits]
  · simp [same, no_set, Scan.keyframe]
  · simp [same, no_set]

theorem foldl_analyzeNal (malloc : Nat → Bool) (nals : List Bytes) (c : Scan) :
    (nals.foldl (analyzeNal malloc) c).s =
        {c.s with params := (nals.foldl (analyzeNal malloc) c).s.params} ∧
      (nals.foldl (analyzeNal malloc) c).analysis.hasKeyframe =
        (c.analysis.hasKeyframe || nals.any fun nal => IsKeyframe c.s.codec nal) := by
  induction nals generalizing c with
  | nil => simp
  | cons nal nals ih =>
    obtain ⟨frame, key⟩ := ih (analyzeNal malloc c nal)
    have codec : (analyzeNal malloc c nal).s.codec = c.s.codec := by rw [analyzeNal_frame]
    rw [List.foldl_cons]
    refine ⟨?_, ?_⟩
    · conv_lhs => rw [frame, analyzeNal_frame]
    · rw [key, codec, analyzeNal_keyframe, List.any_cons, Bool.or_assoc]

/-- The last of the units that the codec takes as this parameter set. -/
def lastParamSet (codec : UInt32) (nals : List Bytes) (slot : Fin 3) : Option Bytes :=
  (nals.filter fun nal => paramSlot codec nal = some slot ∧ nal.length ≤ paramSetLimit).getLast?

/-- How an optional unit is stored: behind a start code, or as the null set. -/
def stored (nal : Option Bytes) : Bytes := nal.elim [] (startCode4 ++ ·)

theorem foldl_analyzeNal_params (nals : List Bytes) (c : Scan) (slot : Fin 3) :
    (nals.foldl (analyzeNal fun _ => true) c).s.params slot =
      (lastParamSet c.s.codec nals slot).elim (c.s.params slot) (startCode4 ++ ·) := by
  induction nals using List.reverseRecOn with
  | nil => rfl
  | append_singleton nals nal ih =>
    have codec : (nals.foldl (analyzeNal fun _ => true) c).s.codec = c.s.codec := by
      rw [(foldl_analyzeNal _ nals c).1]
    rw [List.foldl_append, List.foldl_cons, List.foldl_nil, analyzeNal_params, codec, ih]
    by_cases own : paramSlot c.s.codec nal = some slot ∧ nal.length ≤ paramSetLimit
    · simp [lastParamSet, List.filter_append, own]
    · simp [lastParamSet, List.filter_append, own]

theorem analyzePayload_eq (malloc : Nat → Bool) (s : RecorderStream) (data : Bytes) :
    analyzePayload malloc s data =
      ({s with params := (analyzePayload malloc s data).1.params}, ⟨hasKeyframe s.codec data⟩) := by
  simp only [analyzePayload, forEachNal_eq, Option.getD_some]
  obtain ⟨frame, key⟩ := foldl_analyzeNal malloc (nalUnits data) ⟨s, ⟨false⟩, 0⟩
  refine Prod.ext frame ?_
  simp only [Bool.false_or] at key
  exact congrArg PayloadAnalysis.mk key

theorem analyzePayload_params (s : RecorderStream) (data : Bytes) (slot : Fin 3) :
    (analyzePayload (fun _ => true) s data).1.params slot =
      (lastParamSet s.codec (nalUnits data) slot).elim (s.params slot) (startCode4 ++ ·) := by
  simp only [analyzePayload, forEachNal_eq, Option.getD_some]
  exact foldl_analyzeNal_params _ _ _

/-- Analysing reads nothing of the record but its codec and its sets. -/
structure SameSets (c c' : Scan) : Prop where
  codec : c'.s.codec = c.s.codec
  params : c'.s.params = c.s.params
  mallocs : c'.mallocs = c.mallocs

theorem cacheParamSet_sameSets (malloc : Nat → Bool) {c c' : Scan} (same : SameSets c c')
    (slot : Fin 3) (nal : Bytes) :
    SameSets (cacheParamSet malloc c slot nal) (cacheParamSet malloc c' slot nal) := by
  obtain ⟨codec, params, mallocs⟩ := same
  unfold cacheParamSet
  rw [params, mallocs]
  split
  · exact ⟨codec, params, mallocs⟩
  split
  · exact ⟨codec, params, mallocs⟩
  split
  · exact ⟨codec, rfl, rfl⟩
  · exact ⟨codec, params, rfl⟩

theorem analyzeNal_sameSets (malloc : Nat → Bool) {c c' : Scan} (same : SameSets c c')
    (nal : Bytes) : SameSets (analyzeNal malloc c nal) (analyzeNal malloc c' nal) := by
  have codec := same.codec
  rcases analyzeNal_cases malloc c nal with ⟨slot, sets, key, left⟩ | ⟨sets, key, left⟩ |
      ⟨sets, key, left⟩ <;>
    rcases analyzeNal_cases malloc c' nal with ⟨slot', sets', key', right⟩ | ⟨sets', key', right⟩ |
      ⟨sets', key', right⟩ <;>
    rw [codec, sets] at sets' <;> rw [left, right]
  · obtain rfl := Option.some.inj sets'
    exact cacheParamSet_sameSets malloc same slot nal
  all_goals first | exact ⟨same.codec, same.params, same.mallocs⟩ | cases sets'

theorem analyzePayload_sameSets (malloc : Nat → Bool) {s s' : RecorderStream}
    (codec : s'.codec = s.codec) (params : s'.params = s.params) (data : Bytes) :
    (analyzePayload malloc s' data).1.params = (analyzePayload malloc s data).1.params := by
  have fold (nals : List Bytes) (c c' : Scan) (same : SameSets c c') :
      SameSets (nals.foldl (analyzeNal malloc) c) (nals.foldl (analyzeNal malloc) c') := by
    induction nals generalizing c c' with
    | nil => exact same
    | cons nal nals ih => exact ih _ _ (analyzeNal_sameSets malloc same nal)
  simp only [analyzePayload, forEachNal_eq, Option.getD_some]
  exact (fold _ ⟨s, ⟨false⟩, 0⟩ ⟨s', ⟨false⟩, 0⟩ ⟨codec, params, rfl⟩).params

/-- A cached set is a unit of its kind behind a start code. -/
def ParamsSound (codec : UInt32) (params : Fin 3 → Bytes) : Prop :=
  ∀ slot, params slot ≠ [] →
    ∃ nal, paramSlot codec nal = some slot ∧ params slot = startCode4 ++ nal

theorem analyzeNal_sound (malloc : Nat → Bool) (c : Scan) (nal : Bytes)
    (sound : ParamsSound c.s.codec c.s.params) :
    ParamsSound c.s.codec (analyzeNal malloc c nal).s.params := by
  rcases analyzeNal_cases malloc c nal with ⟨own, sets, -, same⟩ | ⟨-, -, same⟩ | ⟨-, -, same⟩ <;>
    rw [same]
  · unfold cacheParamSet
    split
    · exact sound
    split
    · exact sound
    split
    · intro slot
      by_cases this_slot : slot = own
      · subst this_slot
        exact fun _ => ⟨nal, sets, Function.update_self ..⟩
      · simp only [Function.update_of_ne this_slot]
        exact sound slot
    · exact sound
  · exact sound
  · exact sound

theorem analyzePayload_sound (malloc : Nat → Bool) (s : RecorderStream) (data : Bytes)
    (sound : ParamsSound s.codec s.params) :
    ParamsSound s.codec (analyzePayload malloc s data).1.params := by
  have fold (nals : List Bytes) (c : Scan) (sound : ParamsSound c.s.codec c.s.params) :
      ParamsSound c.s.codec (nals.foldl (analyzeNal malloc) c).s.params := by
    induction nals generalizing c with
    | nil => exact sound
    | cons nal nals ih =>
      have codec : (analyzeNal malloc c nal).s.codec = c.s.codec := by rw [analyzeNal_frame]
      rw [← codec, List.foldl_cons]
      exact ih _ (by rw [codec]; exact analyzeNal_sound malloc c nal sound)
  simp only [analyzePayload, forEachNal_eq, Option.getD_some]
  exact fold _ ⟨s, ⟨false⟩, 0⟩ sound

/-- The record after analysing payloads one after another. -/
def analyzeAll (malloc : Nat → Bool) (s : RecorderStream) (payloads : List Bytes) : RecorderStream :=
  payloads.foldl (fun s data => (analyzePayload malloc s data).1) s

theorem analyzeAll_codec (malloc : Nat → Bool) (s : RecorderStream) (payloads : List Bytes) :
    (analyzeAll malloc s payloads).codec = s.codec := by
  induction payloads using List.reverseRecOn with
  | nil => rfl
  | append_singleton payloads data ih =>
    rw [analyzeAll, List.foldl_append, List.foldl_cons, List.foldl_nil, analyzePayload_eq]
    exact ih

theorem lastParamSet_append (codec : UInt32) (before after : List Bytes) (slot : Fin 3) :
    lastParamSet codec (before ++ after) slot =
      (lastParamSet codec after slot).or (lastParamSet codec before slot) := by
  simp [lastParamSet, List.filter_append, List.getLast?_append]

theorem analyzeAll_params (s : RecorderStream) (fresh : s.params = fun _ => [])
    (payloads : List Bytes) (slot : Fin 3) :
    (analyzeAll (fun _ => true) s payloads).params slot =
      stored (lastParamSet s.codec (payloads.flatMap nalUnits) slot) := by
  induction payloads using List.reverseRecOn with
  | nil => simp [analyzeAll, fresh, lastParamSet, stored]
  | append_singleton payloads data ih =>
    have codec := analyzeAll_codec (fun _ => true) s payloads
    rw [analyzeAll] at ih codec ⊢
    rw [List.foldl_append, List.foldl_cons, List.foldl_nil, analyzePayload_params, ih, codec,
      List.flatMap_append, List.flatMap_singleton, lastParamSet_append]
    cases lastParamSet s.codec (nalUnits data) slot <;> rfl

/-- On a well-formed Annex-B payload the splitting loop ends and visits exactly the
units, so the keyframe flag and the cached sets are those of the units seen since
the record was fresh. -/
theorem analyzePayload_text (text : StartCode.Text UInt8) (valid : text.WellFormed 0 1)
    (nonempty : text.pieces ≠ []) (s : RecorderStream) (fresh : s.params = fun _ => [])
    (earlier : List Bytes) :
    (∀ (σ : Type) (f : σ → Bytes → σ) (acc : σ),
      forEachNal f (text.symbols 0 1) acc = some (text.units.foldl f acc)) ∧
    (∀ malloc, (analyzePayload malloc (analyzeAll malloc s earlier) (text.symbols 0 1)).2.hasKeyframe =
      true ↔ ∃ nal ∈ text.units, IsKeyframe s.codec nal) ∧
    ∀ slot, (analyzePayload (fun _ => true) (analyzeAll (fun _ => true) s earlier)
        (text.symbols 0 1)).1.params slot =
      stored (lastParamSet s.codec (earlier.flatMap nalUnits ++ text.units) slot) := by
  have units := nalUnits_text text valid nonempty
  refine ⟨fun σ f acc => ?_, fun malloc => ?_, fun slot => ?_⟩
  · rw [forEachNal_eq, units]
  · rw [analyzePayload_eq, analyzeAll_codec, hasKeyframe, units]
    simp
  · have whole := analyzeAll_params s fresh (earlier ++ [text.symbols 0 1]) slot
    rw [analyzeAll, List.foldl_append, List.flatMap_append, List.flatMap_singleton, units] at whole
    exact whole

/-- Two H.264 units with padding between and behind them. -/
theorem analyzePayload_text_two :
    let text : StartCode.Text UInt8 := ⟨[⟨0, true, [0x67, 0x42]⟩, ⟨2, false, [0x65, 0x88]⟩], 1⟩
    ∃ nal ∈ text.units, IsKeyframe 0 nal := by
  refine ((analyzePayload_text ⟨[⟨0, true, [0x67, 0x42]⟩, ⟨2, false, [0x65, 0x88]⟩], 1⟩ ?_ ?_
    .zero rfl []).2.1 fun _ => true).mp (by decide)
  · intro unit member
    simp only [StartCode.Text.units, List.map_cons, List.map_nil, List.mem_cons, List.not_mem_nil,
      or_false] at member
    rcases member with rfl | rfl <;> exact ⟨by decide, by decide, by decide⟩
  · simp

end StreamRelay.Recorder
