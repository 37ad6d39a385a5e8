import Mathlib.Algebra.Group.Nat.Defs
import StreamRelay.CText

/-! The conversions of scanf, one after another, and the decimal numbers that they read back. -/
namespace StreamRelay.Scanf

open CText

inductive Directive where
  | unsigned
  | int
  | word (most : Nat)
  | upTo (most : Nat) (stop : UInt8)
  | space
  | literal (byte : UInt8)

inductive Field where
  | unsigned (value : UInt32)
  | int (value : Int)
  | text (value : Text)
  deriving DecidableEq

/-- A sign and digits, blanks in front of them, and what comes behind. -/
def scanNumber (text : Text) : Option (Bool × Nat × Text) :=
  let text := text.dropWhile isSpace
  let negative := text.head? = some 45
  let rest := if negative || text.head? = some 43 then text.tail else text
  let digits := rest.takeWhile isDigit
  if digits = [] then none else some (negative, digitsValue digits, rest.dropWhile isDigit)

/-- What strtoul makes of a number, in an unsigned int. -/
def toUnsigned (negative : Bool) (value : Nat) : UInt32 :=
  if 18446744073709551616 ≤ value then 4294967295
  else if negative then UInt32.ofInt (-value) else UInt32.ofNat value

/-- What a conversion stores, and where it stops. -/
def Directive.scan (text : Text) : Directive → Option (Option Field × Text)
  | .unsigned => (scanNumber text).map fun (negative, value, rest) =>
    (some (.unsigned (toUnsigned negative value)), rest)
  | .int => (scanNumber text).map fun (negative, value, rest) =>
    (some (.int (toInt (if negative then -(value : Int) else value))), rest)
  | .word most =>
    let text := text.dropWhile isSpace
    let item := (text.take most).takeWhile fun byte => !isSpace byte
    if item = [] then none else some (some (.text item), text.drop item.length)
  | .upTo most stop =>
    let item := (text.take most).takeWhile (· ≠ stop)
    if item = [] then none else some (some (.text item), text.drop item.length)
  | .space => some (none, text.dropWhile isSpace)
  | .literal byte => if text.head? = some byte then some (none, text.tail) else none

/-- The items stored until a conversion fails. -/
def sscanf : List Directive → Text → List Field
  | [], _ => []
  | directive :: later, text =>
    match directive.scan text with
    | none => []
    | some (field, rest) => field.toList ++ sscanf later rest

/-- A number as printf writes it. -/
def decimal (n : Nat) : Text := ofChars (Nat.toDigits 10 n)

/-- A number with the sign that it may have. -/
def signed (value : Int) : Text :=
  if value < 0 then 45 :: decimal value.natAbs else decimal value.natAbs

theorem char_digit {c : Char} (digit : c.isDigit = true) :
    isDigit (UInt8.ofNat c.toNat) = true ∧ (UInt8.ofNat c.toNat).toNat = c.toNat := by
  have range : 48 ≤ c.toNat ∧ c.toNat ≤ 57 := by
    simpa [Char.isDigit, UInt32.le_iff_toNat_le] using digit
  have same : (UInt8.ofNat c.toNat).toNat = c.toNat := by
    rw [UInt8.toNat_ofNat']
    omega
  refine ⟨?_, same⟩
  simp only [isDigit, Bool.and_eq_true, decide_eq_true_eq, UInt8.le_iff_toNat_le, same]
  exact range

theorem digit_apart {byte : UInt8} (digit : isDigit byte = true) :
    isSpace byte = false ∧ byte ≠ 45 ∧ byte ≠ 43 := by
  simp only [isDigit, isSpace, Bool.and_eq_true, decide_eq_true_eq, UInt8.le_iff_toNat_le,
    Bool.or_eq_false_iff, Bool.and_eq_false_iff, decide_eq_false_iff_not, ← UInt8.toNat_inj, ne_eq] at *
  simp only [UInt8.toNat_ofNat] at *
  omega

theorem decimal_digits (n : Nat) : ∀ byte ∈ decimal n, isDigit byte = true := by
  intro byte member
  obtain ⟨c, among, rfl⟩ := List.mem_map.mp member
  exact (char_digit (Nat.isDigit_of_mem_toDigits (by decide) (by decide) among)).1

theorem decimal_ne_nil (n : Nat) : decimal n ≠ [] := by
  intro empty
  exact Nat.toDigits_ne_nil (List.map_eq_nil_iff.mp empty)

theorem digitsValue_chars (characters : List Char) (digits : ∀ c ∈ characters, c.isDigit = true)
    (value : Nat) :
    (ofChars characters).foldl (fun value digit => 10 * value + (digit.toNat - 48)) value =
      Nat.ofDigitChars 10 characters value := by
  induction characters generalizing value with
  | nil => rfl
  | cons c characters ih =>
    have same := (char_digit (digits c List.mem_cons_self)).2
    rw [ofChars, List.map_cons, List.foldl_cons, same, Nat.ofDigitChars_cons]
    exact ih (fun c member => digits c (List.mem_cons_of_mem _ member)) _

theorem digitsValue_decimal (n : Nat) : digitsValue (decimal n) = n := by
  rw [digitsValue, decimal, digitsValue_chars, Nat.ofDigitChars_ten_toDigits]
  intro c member
  exact Nat.isDigit_of_mem_toDigits (by decide) (by decide) member

/-- What starts with a digit has no blanks and no sign in front. -/
theorem decimal_plain (n : Nat) (rest : Text) :
    (decimal n ++ rest).dropWhile isSpace = decimal n ++ rest ∧
      (decimal n ++ rest).head? ≠ some 45 ∧ (decimal n ++ rest).head? ≠ some 43 := by
  obtain ⟨first, later, split⟩ := List.exists_cons_of_ne_nil (decimal_ne_nil n)
  have digit : isDigit first = true := by
    apply decimal_digits n
    rw [split]
    exact List.mem_cons_self
  obtain ⟨dark, positive, plus⟩ := digit_apart digit
  rw [split, List.cons_append, List.dropWhile_cons_of_neg (by simp [dark])]
  refine ⟨rfl, ?_, ?_⟩
  · simpa using positive
  · simpa using plus

theorem takeWhile_decimal (n : Nat) {rest : Text} (ends : ∀ byte ∈ rest.head?, isDigit byte = false) :
    (decimal n ++ rest).takeWhile isDigit = decimal n ∧
      (decimal n ++ rest).dropWhile isDigit = rest := by
  have digits := decimal_digits n
  rw [List.takeWhile_append_of_pos digits, List.dropWhile_append_of_pos digits]
  cases rest with
  | nil => exact ⟨List.append_nil _, rfl⟩
  | cons byte rest =>
    have other : ¬isDigit byte = true := by
      rw [ends byte rfl]
      nofun
    rw [List.takeWhile_cons_of_neg other, List.dropWhile_cons_of_neg other, List.append_nil]
    exact ⟨rfl, rfl⟩

/-- A printed number is read back, and nothing behind it. -/
theorem scanNumber_decimal (n : Nat) {rest : Text} (ends : ∀ byte ∈ rest.head?, isDigit byte = false) :
    scanNumber (decimal n ++ rest) = some (false, n, rest) := by
  obtain ⟨dark, positive, plus⟩ := decimal_plain n rest
  obtain ⟨digits, behind⟩ := takeWhile_decimal n ends
  simp only [scanNumber, dark, positive, plus, decide_false, Bool.or_self, Bool.false_eq_true,
    if_false, digits, behind, decimal_ne_nil, digitsValue_decimal]

theorem scanNumber_signed (value : Int) {rest : Text}
    (ends : ∀ byte ∈ rest.head?, isDigit byte = false) :
    scanNumber (signed value ++ rest) = some (decide (value < 0), value.natAbs, rest) := by
  unfold signed
  by_cases negative : value < 0
  · obtain ⟨digits, behind⟩ := takeWhile_decimal value.natAbs ends
    have dark : isSpace 45 = false := rfl
    rw [if_pos negative, List.cons_append]
    simp only [scanNumber, List.dropWhile_cons_of_neg, dark, Bool.false_eq_true, not_false_eq_true,
      List.head?_cons, decide_true, Bool.true_or, if_true, List.tail_cons, digits, behind,
      decimal_ne_nil, if_false, digitsValue_decimal, negative]
  · rw [if_neg negative, scanNumber_decimal value.natAbs ends, decide_eq_false negative]

theorem scanNumber_whole (value : Int) :
    scanNumber (signed value) = some (decide (value < 0), value.natAbs, []) := by
  have read : scanNumber (signed value ++ []) = some (decide (value < 0), value.natAbs, []) :=
    scanNumber_signed value (by simp)
  rwa [List.append_nil] at read

theorem signed_value (value : Int) :
    (if decide (value < 0) = true then -(value.natAbs : Int) else value.natAbs) = value := by
  by_cases negative : value < 0
  · rw [decide_eq_true negative, if_pos rfl]
    omega
  · rw [decide_eq_false negative, if_neg (by decide)]
    omega

theorem scanInt_number (text : Text) :
    scanInt text = (scanNumber text).map fun (negative, value, _) =>
      toInt (if negative then -(value : Int) else value) := by
  simp only [scanInt, scanNumber, apply_ite (Option.map _), Option.map_none, Option.map_some,
    decide_eq_true_eq]

theorem atoi_signed (value : Int) : atoi (signed value) = toInt value := by
  rw [atoi, scanInt_number, scanNumber_whole, Option.map_some, Option.getD_some]
  exact congrArg toInt (signed_value value)

/-- The first and the last character of a number. -/
theorem decimal_ends (n : Nat) (before : Text) :
    ∃ front last, before ++ decimal n = front ++ [last] ∧ isDigit last = true := by
  rcases List.eq_nil_or_concat (decimal n) with empty | ⟨front, last, split⟩
  · exact absurd empty (decimal_ne_nil n)
  · refine ⟨before ++ front, last, ?_, decimal_digits n last ?_⟩
    · rw [split, List.concat_eq_append, List.append_assoc]
    · rw [split, List.concat_eq_append]
      exact List.mem_append_right _ List.mem_cons_self

theorem signed_characters (value : Int) : ∀ byte ∈ signed value, isDigit byte = true ∨ byte = 45 := by
  intro byte member
  unfold signed at member
  split at member
  · rcases List.mem_cons.mp member with rfl | digit
    · exact .inr rfl
    · exact .inl (decimal_digits _ _ digit)
  · exact .inl (decimal_digits _ _ member)

theorem decimal_length {n k : Nat} (positive : 0 < k) (small : n < 10 ^ k) :
    (decimal n).length ≤ k := by
  rw [decimal, ofChars, List.length_map]
  exact (Nat.length_toDigits_le_iff (by decide) positive).mpr small

end StreamRelay.Scanf
