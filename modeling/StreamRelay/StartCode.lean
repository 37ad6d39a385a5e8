import Mathlib.Data.List.DropRight
import Mathlib.Data.List.Infix

/-! Units separated by start codes: a marker `zero zero one`, optionally one
`zero` longer, with any further padding of `zero` before it and at the end of
the text. The scanner prefers the short marker at each position, so padding may
be counted to either side; a unit is recovered by trimming its trailing zeros. -/
namespace StreamRelay.StartCode

variable {Symbol : Type*} (zero one : Symbol)

/-- What a well-formed unit may not do: be empty, end in `zero`, or hold a marker. -/
structure IsUnit (unit : List Symbol) : Prop where
  nonempty : unit ≠ []
  last : unit.getLast? ≠ some zero
  clean : ¬ [zero, zero, one] <:+: unit

/-- A unit with the start code before it and the padding before that. -/
structure Piece (Symbol : Type*) where
  padding : Nat
  long : Bool
  unit : List Symbol
  deriving DecidableEq, Repr

namespace Piece

def zeros (piece : Piece Symbol) : Nat := piece.padding + piece.long.toNat

def text (piece : Piece Symbol) : List Symbol :=
  List.replicate piece.padding zero ++
    (if piece.long then [zero, zero, zero, one] else [zero, zero, one]) ++ piece.unit

theorem text_eq (piece : Piece Symbol) :
    piece.text zero one = List.replicate piece.zeros zero ++ zero :: zero :: one :: piece.unit := by
  cases long : piece.long <;> simp [text, zeros, long, List.replicate_add]

end Piece

/-- A text in start-coded form: its pieces and the padding at its end. -/
structure Text (Symbol : Type*) where
  pieces : List (Piece Symbol)
  trailing : Nat
  deriving DecidableEq, Repr

namespace Text

def units (text : Text Symbol) : List (List Symbol) := text.pieces.map Piece.unit

def symbols (text : Text Symbol) : List Symbol :=
  text.pieces.flatMap (Piece.text zero one) ++ List.replicate text.trailing zero

theorem pieces_length_le (text : Text Symbol) :
    text.pieces.length ≤ (text.symbols zero one).length := by
  have each : ∀ pieces : List (Piece Symbol),
      pieces.length ≤ (pieces.flatMap (Piece.text zero one)).length := by
    intro pieces
    induction pieces with
    | nil => simp
    | cons piece pieces ih =>
      simp only [List.flatMap_cons, List.length_append, List.length_cons, Piece.text_eq]
      omega
  have := each text.pieces
  simp only [symbols, List.length_append]
  omega

def WellFormed (text : Text Symbol) : Prop := ∀ unit ∈ text.units, IsUnit zero one unit

/-- The same where a start code may have nothing behind it. -/
def WellSpaced (text : Text Symbol) : Prop := ∀ unit ∈ text.units, unit ≠ [] → IsUnit zero one unit

theorem WellFormed.spaced {text : Text Symbol} (valid : text.WellFormed zero one) :
    text.WellSpaced zero one := fun unit member _ => valid unit member

/-- One unit behind the long start code. -/
def single (unit : List Symbol) : Text Symbol := ⟨[⟨0, true, unit⟩], 0⟩

/-- Padding at the end of one text is padding before the next one's first code. -/
def append (first second : Text Symbol) : Text Symbol :=
  match second.pieces with
  | [] => ⟨first.pieces, first.trailing + second.trailing⟩
  | piece :: rest =>
    ⟨first.pieces ++ {piece with padding := first.trailing + piece.padding} :: rest, second.trailing⟩

def join (texts : List (Text Symbol)) : Text Symbol := texts.foldr append ⟨[], 0⟩

theorem symbols_append (first second : Text Symbol) :
    (first.append second).symbols zero one = first.symbols zero one ++ second.symbols zero one := by
  unfold append
  split
  · next none_left => simp [symbols, none_left]
  · next piece rest pieces =>
    have padded : List.replicate (first.trailing + piece.padding) zero =
        List.replicate first.trailing zero ++ List.replicate piece.padding zero :=
      List.replicate_add ..
    simp only [symbols, pieces, Piece.text, padded, List.flatMap_append, List.flatMap_cons,
      List.append_assoc]

theorem units_append (first second : Text Symbol) :
    (first.append second).units = first.units ++ second.units := by
  unfold append
  split
  · next none_left => simp [units, none_left]
  · next piece rest pieces => simp [units, pieces]

theorem WellSpaced.append {first second : Text Symbol} (spaced : first.WellSpaced zero one)
    (later : second.WellSpaced zero one) : (first.append second).WellSpaced zero one := by
  intro unit member
  rw [units_append] at member
  rcases List.mem_append.mp member with member | member
  · exact spaced unit member
  · exact later unit member

theorem symbols_join (texts : List (Text Symbol)) :
    (join texts).symbols zero one = texts.flatMap (symbols zero one) := by
  induction texts with
  | nil => simp [join, symbols]
  | cons text texts ih =>
    rw [List.flatMap_cons, ← ih, ← symbols_append]
    rfl

theorem units_join (texts : List (Text Symbol)) :
    (join texts).units = texts.flatMap units := by
  induction texts with
  | nil => simp [join, units]
  | cons text texts ih =>
    rw [List.flatMap_cons, ← ih, ← units_append]
    rfl

end Text

theorem tail_clean {x : Symbol} {unit : List Symbol} (clean : ¬ [zero, zero, one] <:+: x :: unit) :
    ¬ [zero, zero, one] <:+: unit := fun inside => clean (inside.trans (List.suffix_cons x unit).isInfix)

theorem tail_last {x : Symbol} {unit : List Symbol} (last : (x :: unit).getLast? ≠ some zero)
    (nonempty : unit ≠ []) : unit.getLast? ≠ some zero := by
  rwa [List.getLast?_cons_of_ne_nil nonempty] at last

theorem IsUnit.tail {x : Symbol} {unit : List Symbol} (valid : IsUnit zero one (x :: unit))
    (nonempty : unit ≠ []) : IsUnit zero one unit :=
  ⟨nonempty, tail_last zero valid.last nonempty, tail_clean zero one valid.clean⟩

theorem last_of_valid {unit : List Symbol} (valid : unit ≠ [] → IsUnit zero one unit) :
    unit.getLast? ≠ some zero := by
  cases unit with
  | nil => simp
  | cons x unit => exact (valid (by simp)).last

variable [DecidableEq Symbol]

/-- Length of the start code at the head of the text, 0 when there is none. -/
def codeLength : List Symbol → Nat
  | a :: b :: c :: rest =>
    if a = zero ∧ b = zero ∧ c = one then 3
    else if a = zero ∧ b = zero ∧ c = zero ∧ rest.head? = some one then 4
    else 0
  | _ => 0

/-- Position and length of the first start code. -/
def firstCode : List Symbol → Option (Nat × Nat)
  | [] => none
  | x :: rest =>
    if codeLength zero one (x :: rest) = 0 then
      (firstCode rest).map fun found => (found.1 + 1, found.2)
    else some (0, codeLength zero one (x :: rest))

def trim (text : List Symbol) : List Symbol := text.rdropWhile (· = zero)

def keep (unit : List Symbol) : List (List Symbol) := if unit = [] then [] else [unit]

/-- The units of the text behind a start code. Every round consumes a start code,
so the length of the text is fuel enough. -/
def unitsAfter : Nat → List Symbol → List (List Symbol)
  | 0, _ => []
  | fuel + 1, text =>
    match firstCode zero one text with
    | none => keep (trim zero text)
    | some (position, length) =>
      keep (trim zero (text.take position)) ++ unitsAfter fuel (text.drop (position + length))

theorem firstCode_shift (x : Symbol) (rest : List Symbol)
    (none_here : codeLength zero one (x :: rest) = 0) :
    firstCode zero one (x :: rest) =
      (firstCode zero one rest).map fun found => (found.1 + 1, found.2) := by
  rw [firstCode, if_pos none_here]

theorem codeLength_le (text : List Symbol) : codeLength zero one text ≤ text.length := by
  match text with
  | [] | [_] | [_, _] => simp [codeLength]
  | a :: b :: c :: rest =>
    cases rest with
    | nil =>
      simp only [codeLength, List.length_cons, List.head?_nil, reduceCtorEq, and_false, if_false]
      split <;> omega
    | cons d rest =>
      simp only [codeLength, List.length_cons]
      split
      · omega
      · split <;> omega

theorem codeLength_pos (text : List Symbol) (present : codeLength zero one text ≠ 0) :
    3 ≤ codeLength zero one text := by
  match text with
  | [] | [_] | [_, _] => simp [codeLength] at present
  | a :: b :: c :: rest =>
    simp only [codeLength] at present ⊢
    split
    · omega
    · next absent =>
      rw [if_neg absent] at present
      split
      · omega
      · next neither => simp [if_neg neither] at present

theorem firstCode_bounds (text : List Symbol) (position length : Nat)
    (found : firstCode zero one text = some (position, length)) :
    3 ≤ length ∧ position + length ≤ text.length := by
  induction text generalizing position with
  | nil => simp [firstCode] at found
  | cons x rest ih =>
    rw [firstCode] at found
    split at found
    · cases later : firstCode zero one rest with
      | none => simp [later] at found
      | some next =>
        simp only [later, Option.map_some, Option.some.injEq, Prod.mk.injEq] at found
        obtain ⟨rfl, rfl⟩ := found
        have bounds := ih next.1 later
        simp only [List.length_cons]
        omega
    · next present =>
      obtain ⟨rfl, rfl⟩ := Prod.mk.inj (Option.some.inj found)
      refine ⟨codeLength_pos zero one _ present, ?_⟩
      simpa using codeLength_le zero one (x :: rest)

/-- The units of a text, without what stands before its first start code. -/
def scan (text : List Symbol) : List (List Symbol) :=
  match firstCode zero one text with
  | none => []
  | some (position, length) => unitsAfter zero one text.length (text.drop (position + length))

/-- No start code begins inside a unit, whatever follows it. -/
theorem codeLength_unit (unit rest : List Symbol) (nonempty : unit ≠ [])
    (last : unit.getLast? ≠ some zero) (clean : ¬ [zero, zero, one] <:+: unit) :
    codeLength zero one (unit ++ rest) = 0 := by
  match unit with
  | [] => contradiction
  | [a] =>
    have ha : a ≠ zero := by simpa using last
    rcases rest with _ | ⟨b, _ | ⟨c, rest⟩⟩ <;> simp [codeLength, ha]
  | [a, b] =>
    have hb : b ≠ zero := by simpa using last
    rcases rest with _ | ⟨c, rest⟩ <;> simp [codeLength, hb]
  | [a, b, c] =>
    have hc : c ≠ zero := by simpa using last
    have short : ¬ (a = zero ∧ b = zero ∧ c = one) := by
      rintro ⟨rfl, rfl, rfl⟩
      exact clean List.infix_rfl
    simp [codeLength, hc, short]
  | a :: b :: c :: d :: tail =>
    have short : ¬ (a = zero ∧ b = zero ∧ c = one) := by
      rintro ⟨rfl, rfl, rfl⟩
      exact clean ⟨[], d :: tail, rfl⟩
    have long : ¬ (a = zero ∧ b = zero ∧ c = zero ∧ d = one) := by
      rintro ⟨rfl, rfl, rfl, rfl⟩
      exact clean ⟨[_], tail, rfl⟩
    simp only [codeLength, List.cons_append, if_neg short, List.head?_cons, Option.some.injEq,
      if_neg long]

/-- Scanning past a unit, in which no start code can begin. -/
theorem firstCode_unit (unit rest : List Symbol) (valid : unit ≠ [] → IsUnit zero one unit) :
    firstCode zero one (unit ++ rest) =
      (firstCode zero one rest).map fun found => (unit.length + found.1, found.2) := by
  induction unit with
  | nil => simp
  | cons x unit ih =>
    have valid := valid (by simp)
    have none_here : codeLength zero one (x :: (unit ++ rest)) = 0 :=
      codeLength_unit zero one (x :: unit) rest (by simp) valid.last valid.clean
    have later := ih (valid.tail zero one)
    rw [List.cons_append, firstCode_shift zero one x _ none_here, later]
    cases firstCode zero one rest <;> simp [Nat.add_right_comm]

theorem trim_unit (unit : List Symbol) (count : Nat) (last : unit.getLast? ≠ some zero) :
    trim zero (unit ++ List.replicate count zero) = unit := by
  induction count with
  | zero =>
    rcases List.eq_nil_or_concat unit with rfl | ⟨front, final, rfl⟩
    · simp [trim]
    · have nonzero : final ≠ zero := by simpa using last
      simp [trim, List.rdropWhile_concat_neg, nonzero]
  | succ count ih =>
    rw [trim, List.replicate_succ', ← List.append_assoc, List.rdropWhile_concat_pos _ _ _ (by simp)]
    exact ih

theorem keep_unit (unit : List Symbol) (valid : unit ≠ [] → IsUnit zero one unit) (count : Nat) :
    keep (trim zero (unit ++ List.replicate count zero)) = keep unit := by
  rw [trim_unit zero unit count (last_of_valid zero one valid)]

omit [DecidableEq Symbol] in
theorem keep_all {units : List (List Symbol)} (valid : ∀ unit ∈ units, IsUnit zero one unit) :
    units.flatMap keep = units := by
  induction units with
  | nil => rfl
  | cons unit units ih =>
    rw [List.flatMap_cons, ih fun later member => valid later (List.mem_cons_of_mem _ member), keep,
      if_neg (valid unit (by simp)).nonempty]
    rfl

section Marker

variable (distinct : zero ≠ one)
include distinct

theorem codeLength_zeros (count : Nat) : codeLength zero one (List.replicate count zero) = 0 := by
  match count with
  | 0 | 1 | 2 => rfl
  | 3 => simp [codeLength, List.replicate, distinct]
  | count + 4 => simp [codeLength, List.replicate_succ, distinct]

theorem firstCode_zeros (count : Nat) :
    firstCode zero one (List.replicate count zero) = none := by
  induction count with
  | zero => rfl
  | succ count ih =>
    have none_here := codeLength_zeros zero one distinct (count + 1)
    rw [List.replicate_succ] at none_here ⊢
    rw [firstCode_shift zero one _ _ none_here, ih]
    rfl

/-- With two more zeros in front the marker begins later, whatever its form. -/
theorem codeLength_padded (count : Nat) (rest : List Symbol) :
    codeLength zero one (List.replicate (count + 2) zero ++ zero :: zero :: one :: rest) = 0 := by
  match count with
  | 0 | 1 => simp [codeLength, List.replicate, distinct]
  | count + 2 => simp [codeLength, List.replicate_succ, distinct]

/-- Before a marker with `count` zeros in front, the scanner stops at the long
form as soon as there is one. -/
theorem firstCode_marker (count : Nat) (rest : List Symbol) :
    firstCode zero one (List.replicate count zero ++ zero :: zero :: one :: rest) =
      some (count - 1, if count = 0 then 3 else 4) := by
  induction count with
  | zero => simp [firstCode, codeLength]
  | succ count ih =>
    match count with
    | 0 => simp [firstCode, codeLength, distinct]
    | count + 1 =>
      have none_here := codeLength_padded zero one distinct count rest
      rw [List.replicate_succ, List.cons_append] at none_here ⊢
      rw [firstCode_shift zero one _ _ none_here, ih]
      cases count <;> simp

theorem firstCode_last (unit : List Symbol) (valid : unit ≠ [] → IsUnit zero one unit)
    (count : Nat) : firstCode zero one (unit ++ List.replicate count zero) = none := by
  rw [firstCode_unit zero one unit _ valid, firstCode_zeros zero one distinct]
  rfl

theorem firstCode_next (unit rest : List Symbol) (valid : unit ≠ [] → IsUnit zero one unit)
    (count : Nat) :
    firstCode zero one (unit ++ (List.replicate count zero ++ zero :: zero :: one :: rest)) =
      some (unit.length + (count - 1), if count = 0 then 3 else 4) := by
  rw [firstCode_unit zero one unit _ valid, firstCode_marker zero one distinct]
  rfl

/-- One unit, its padding and the next start code are consumed in one round. -/
theorem unitsAfter_next (fuel : Nat) (unit rest : List Symbol)
    (valid : unit ≠ [] → IsUnit zero one unit) (count : Nat) :
    unitsAfter zero one (fuel + 1)
        (unit ++ (List.replicate count zero ++ zero :: zero :: one :: rest)) =
      keep unit ++ unitsAfter zero one fuel rest := by
  have taken : (unit ++ (List.replicate count zero ++ zero :: zero :: one :: rest)).take
      (unit.length + (count - 1)) = unit ++ List.replicate (count - 1) zero := by
    rw [List.take_length_add_append, List.take_append_of_le_length (by simp), List.take_replicate,
      Nat.min_eq_left (Nat.sub_le _ _)]
  have dropped : (unit ++ (List.replicate count zero ++ zero :: zero :: one :: rest)).drop
      (unit.length + (count - 1) + if count = 0 then 3 else 4) = rest := by
    rw [Nat.add_assoc, List.drop_length_add_append]
    cases count with
    | zero => simp
    | succ count =>
      have skipped : count + 1 - 1 + (if count + 1 = 0 then 3 else 4) =
          (List.replicate (count + 1) zero).length + 3 := by simp
      rw [skipped, List.drop_length_add_append]
      rfl
  rw [unitsAfter, firstCode_next zero one distinct unit rest valid count]
  simp only [taken, dropped, keep_unit zero one unit valid]

/-- The units behind a start code are the pieces' units, in order. -/
theorem unitsAfter_pieces (pieces : List (Piece Symbol)) (trailing fuel : Nat)
    (unit : List Symbol) (valid : unit ≠ [] → IsUnit zero one unit)
    (rest_valid : (Text.mk pieces trailing).WellSpaced zero one) (enough : pieces.length < fuel) :
    unitsAfter zero one fuel (unit ++ (Text.mk pieces trailing).symbols zero one) =
      keep unit ++ (pieces.map Piece.unit).flatMap keep := by
  induction pieces generalizing unit fuel with
  | nil =>
    obtain ⟨fuel, rfl⟩ : ∃ k, fuel = k + 1 := ⟨fuel - 1, by simp at enough; omega⟩
    simp [unitsAfter, Text.symbols, firstCode_last zero one distinct unit valid,
      keep_unit zero one unit valid]
  | cons piece pieces ih =>
    obtain ⟨fuel, rfl⟩ : ∃ k, fuel = k + 1 := ⟨fuel - 1, by simp at enough; omega⟩
    have shape : (Text.mk (piece :: pieces) trailing).symbols zero one =
        List.replicate piece.zeros zero ++ zero :: zero :: one ::
          (piece.unit ++ (Text.mk pieces trailing).symbols zero one) := by
      simp [Text.symbols, Piece.text_eq]
    have tail := ih fuel piece.unit (rest_valid piece.unit (by simp [Text.units]))
      (fun later member => rest_valid later (List.mem_cons_of_mem _ member)) (by simpa using enough)
    rw [shape, unitsAfter_next zero one distinct fuel unit _ valid, tail]
    rfl

/-- A text with at least one piece starts with that piece's start code, and the
scan from behind it returns exactly the units. -/
theorem scan_text (text : Text Symbol) (valid : text.WellSpaced zero one)
    (nonempty : text.pieces ≠ []) :
    ∃ position length, firstCode zero one (text.symbols zero one) = some (position, length) ∧
      ∀ fuel, text.pieces.length ≤ fuel →
        unitsAfter zero one fuel ((text.symbols zero one).drop (position + length)) =
          text.units.flatMap keep := by
  obtain ⟨pieces, trailing⟩ := text
  cases pieces with
  | nil => contradiction
  | cons piece pieces =>
    have shape : (Text.mk (piece :: pieces) trailing).symbols zero one =
        List.replicate piece.zeros zero ++ zero :: zero :: one ::
          (piece.unit ++ (Text.mk pieces trailing).symbols zero one) := by
      simp [Text.symbols, Piece.text_eq]
    refine ⟨_, _, by rw [shape]; exact firstCode_marker zero one distinct _ _, ?_⟩
    intro fuel enough
    have dropped : ((Text.mk (piece :: pieces) trailing).symbols zero one).drop
        (piece.zeros - 1 + if piece.zeros = 0 then 3 else 4) =
        piece.unit ++ (Text.mk pieces trailing).symbols zero one := by
      have skipped : piece.zeros - 1 + (if piece.zeros = 0 then 3 else 4) =
          (List.replicate piece.zeros zero).length + 3 := by
        simp only [List.length_replicate]; split <;> omega
      rw [shape, skipped, List.drop_length_add_append]
      rfl
    rw [dropped]
    exact unitsAfter_pieces zero one distinct pieces trailing fuel piece.unit
      (valid _ (by simp [Text.units]))
      (fun unit member => valid unit (List.mem_cons_of_mem _ member)) (Nat.lt_of_succ_le enough)

/-- The scan of a text returns what stands behind its start codes. -/
theorem scan_symbols (text : Text Symbol) (valid : text.WellSpaced zero one) :
    scan zero one (text.symbols zero one) = text.units.flatMap keep := by
  unfold scan
  by_cases none : text.pieces = []
  · have zeros : text.symbols zero one = List.replicate text.trailing zero := by
      simp [Text.symbols, none]
    simp [zeros, firstCode_zeros zero one distinct, Text.units, none]
  · obtain ⟨position, length, found, units⟩ := scan_text zero one distinct text valid none
    rw [found]
    exact units _ (text.pieces_length_le zero one)

theorem scan_append (first second : Text Symbol) (spaced : first.WellSpaced zero one)
    (later : second.WellSpaced zero one) :
    scan zero one (first.symbols zero one ++ second.symbols zero one) =
      scan zero one (first.symbols zero one) ++ scan zero one (second.symbols zero one) := by
  rw [← Text.symbols_append, scan_symbols zero one distinct _ (spaced.append zero one later),
    scan_symbols zero one distinct _ spaced, scan_symbols zero one distinct _ later,
    Text.units_append, List.flatMap_append]

end Marker

end StreamRelay.StartCode
