import Mathlib.Data.List.DropRight

/-! Text as C programs read it: strings that end at a zero byte, lines, and the integers of
scanf. -/
namespace StreamRelay.CText

abbrev Text := List UInt8

def newline : UInt8 := 10

/-- The string that a memory begins with; the end of the memory stands for a zero as well. -/
def cString (memory : Text) : Text := memory.takeWhile (· ≠ 0)

def inLine (byte : UInt8) : Bool := byte ≠ newline && byte ≠ 0

/-- The first line of a string, without its newline, and what comes after it. -/
def splitLine (memory : Text) : Option (Text × Text) :=
  match memory.dropWhile inLine with
  | byte :: later => if byte = newline then some (memory.takeWhile inLine, later) else none
  | [] => none

theorem splitLine_some {memory line later : Text} (found : splitLine memory = some (line, later)) :
    memory = line ++ newline :: later ∧ ∀ byte ∈ line, inLine byte = true := by
  unfold splitLine at found
  split at found
  · rename_i byte rest dropped
    split at found
    · rename_i same
      obtain ⟨rfl, rfl⟩ := Prod.mk.inj (Option.some.inj found)
      refine ⟨?_, fun byte member => List.mem_takeWhile_imp member⟩
      rw [← same, ← dropped, List.takeWhile_append_dropWhile]
    · cases found
  · cases found

theorem splitLine_append {line : Text} (clean : ∀ byte ∈ line, inLine byte = true) (later : Text) :
    splitLine (line ++ newline :: later) = some (line, later) := by
  have stops : inLine newline = false := rfl
  unfold splitLine
  rw [List.dropWhile_append_of_pos clean, List.takeWhile_append_of_pos clean,
    List.dropWhile_cons_of_neg (by simp [stops]), List.takeWhile_cons_of_neg (by simp [stops])]
  simp

/-- Without the line ends and blanks behind it. -/
def trimEnd (line : Text) : Text := line.rdropWhile fun byte => byte = 13 || byte = 32 || byte = 9

def isSpace (byte : UInt8) : Bool := byte = 32 || (9 ≤ byte && byte ≤ 13)

def isDigit (byte : UInt8) : Bool := 48 ≤ byte && byte ≤ 57

def digitsValue (digits : Text) : Nat :=
  digits.foldl (fun value digit => 10 * value + (digit.toNat - 48)) 0

/-- What strtol makes of a number, in an int. -/
def toInt (value : Int) : Int :=
  (max (-9223372036854775808) (min 9223372036854775807 value)).bmod 4294967296

/-- The conversion %d at the beginning of a text. -/
def scanInt (text : Text) : Option Int :=
  let text := text.dropWhile isSpace
  let negative := text.head? = some 45
  let digits := (if negative || text.head? = some 43 then text.tail else text).takeWhile isDigit
  if digits = [] then none
  else some (toInt (if negative then -(digitsValue digits : Int) else digitsValue digits))

/-- atoi, zero where there is no number. -/
def atoi (text : Text) : Int := (scanInt text).getD 0

/-- tolower in the C locale. -/
def lower (byte : UInt8) : UInt8 := if 65 ≤ byte && byte ≤ 90 then byte + 32 else byte

/-- A strcasecmp that returns 0. -/
def sameIgnoringCase (a b : Text) : Bool := a.map lower = b.map lower

def ofChars (characters : List Char) : Text := characters.map fun c => UInt8.ofNat c.toNat

/-- The bytes of a text. -/
def utf8 (characters : List Char) : Text := characters.flatMap String.utf8EncodeChar

theorem utf8_ascii {characters : List Char} (ascii : ∀ c ∈ characters, c.toNat < 128) :
    utf8 characters = ofChars characters := by
  induction characters with
  | nil => rfl
  | cons c characters ih =>
    have one : c.utf8Size = 1 := by
      rw [Char.utf8Size_eq_one_iff, UInt32.le_iff_toNat_le]
      exact Nat.le_of_lt_succ (ascii c List.mem_cons_self)
    rw [utf8, List.flatMap_cons, String.utf8EncodeChar_eq_singleton one]
    exact congrArg _ (ih fun c member => ascii c (List.mem_cons_of_mem _ member))

end StreamRelay.CText
