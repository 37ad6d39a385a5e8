import Mathlib.Data.List.DropRight

/-! Text as Python programs read it. What the Unicode tables say of a character is a parameter. -/
namespace StreamRelay.PyText

abbrev Text := List Char

structure Unicode where
  space : Char → Bool
  decimal : Char → Option Nat

variable (unicode : Unicode)

/-- str.strip without arguments. -/
def strip (text : Text) : Text := (text.dropWhile unicode.space).rdropWhile unicode.space

/-- The digits of an integer, single underscores between them. -/
def digits : (ended : Bool) → Nat → Text → Option Nat
  | ended, value, [] => if ended then some value else none
  | ended, value, c :: later =>
    if c = '_' then if ended then digits false value later else none
    else
      match unicode.decimal c with
      | some digit => digits true (10 * value + digit) later
      | none => none

/-- int of a text, or a ValueError. -/
def int (text : Text) : Option Int :=
  match strip unicode text with
  | '-' :: later => (digits unicode false 0 later).map fun value => -(value : Int)
  | '+' :: later => (digits unicode false 0 later).map fun value => (value : Int)
  | text => (digits unicode false 0 text).map fun value => (value : Int)

/-- The rest of a text that starts so. -/
def afterPrefix (start text : Text) : Option Text :=
  if start.isPrefixOf text then some (text.drop start.length) else none

def ascii : Unicode where
  space := Char.isWhitespace
  decimal c := if c.isDigit then some (c.toNat - '0'.toNat) else none

end StreamRelay.PyText
