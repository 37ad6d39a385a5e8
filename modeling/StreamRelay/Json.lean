import Mathlib

/-! JSON texts as byte strings. A tree keeps what its text needs beyond its value,
spaces and escapes included, so that every text of the grammar is some tree's. -/
namespace StreamRelay.Json

def isSpace (c : UInt8) : Bool := c = 0x20 || c = 0x09 || c = 0x0d || c = 0x0a

def isDigit (c : UInt8) : Bool := 0x30 ≤ c && c ≤ 0x39

def isHex (c : UInt8) : Bool :=
  isDigit c || (0x41 ≤ c && c ≤ 0x46) || (0x61 ≤ c && c ≤ 0x66)

def hexValue (c : UInt8) : Nat :=
  if isDigit c then c.toNat - 0x30 else if c ≤ 0x46 then c.toNat - 0x37 else c.toNat - 0x57

structure Space where
  bytes : List UInt8
  blank : ∀ c ∈ bytes, isSpace c = true

section Strings

/-- One item of a string. -/
inductive Character where
  | plain (c : UInt8) (allowed : c ≠ 0x22 ∧ c ≠ 0x5c ∧ 0x20 ≤ c)
  | escape (c : UInt8) (allowed : c ∈ ([0x22, 0x5c, 0x2f, 0x62, 0x66, 0x6e, 0x72, 0x74] : List UInt8))
  | unicode (first second third fourth : UInt8)
      (hex : ∀ c ∈ [first, second, third, fourth], isHex c = true)

def Character.text : Character → List UInt8
  | .plain c _ => [c]
  | .escape c _ => [0x5c, c]
  | .unicode first second third fourth _ => [0x5c, 0x75, first, second, third, fourth]

/-- The ASCII character that an item stands for, if it does. -/
def Character.ascii : Character → Option UInt8
  | .plain c _ => if c < 0x80 then some c else none
  | .escape c _ =>
    some (if c = 0x62 then 0x08 else if c = 0x66 then 0x0c else if c = 0x6e then 0x0a
      else if c = 0x72 then 0x0d else if c = 0x74 then 0x09 else c)
  | .unicode first second third fourth _ =>
    let unit := ((hexValue first * 16 + hexValue second) * 16 + hexValue third) * 16 + hexValue fourth
    if unit < 0x80 then some (UInt8.ofNat unit) else none

/-- The string is an ASCII name, however its characters are written. -/
def isNamed (name : List UInt8) (body : List Character) : Bool :=
  body.map Character.ascii = name.map some

def quoted (body : List UInt8) : List UInt8 := 0x22 :: body ++ [0x22]

def stringText (body : List Character) : List UInt8 := quoted (body.flatMap Character.text)

end Strings

section Numbers

structure Digits where
  digits : List Nat
  small : ∀ d ∈ digits, d < 10
  nonempty : digits ≠ []

def digitText (digits : List Nat) : List UInt8 := digits.map fun d => UInt8.ofNat (0x30 + d)

def digitValue (digits : List Nat) : Nat := digits.foldl (fun value d => value * 10 + d) 0

structure Integer extends Digits where
  negative : Bool
  leading : digits.head? = some 0 → digits = [0]

def Integer.text (n : Integer) : List UInt8 :=
  (if n.negative then [0x2d] else []) ++ digitText n.digits

def Integer.value (n : Integer) : Int :=
  if n.negative then -(digitValue n.digits : Int) else digitValue n.digits

structure Exponent extends Digits where
  capital : Bool
  sign : Option Bool

def Exponent.text (e : Exponent) : List UInt8 :=
  (if e.capital then 0x45 else 0x65) ::
    e.sign.elim [] (fun negative => [if negative then 0x2d else 0x2b]) ++ digitText e.digits

structure Number where
  integer : Integer
  fraction : Option Digits
  exponent : Option Exponent

def Number.text (n : Number) : List UInt8 :=
  n.integer.text ++ (n.fraction.elim [] fun f => 0x2e :: digitText f.digits) ++
    n.exponent.elim [] Exponent.text

end Numbers

inductive Kind where
  | value
  | array
  | elements
  | object
  | members

/-- The inside of an array or an object is a kind of its own. -/
inductive Tree : Kind → Type where
  | null : Tree .value
  | bool (value : Bool) : Tree .value
  | number (n : Number) : Tree .value
  | string (body : List Character) : Tree .value
  | array (inside : Tree .array) : Tree .value
  | object (inside : Tree .object) : Tree .value
  | noElements (space : Space) : Tree .array
  | someElements (elements : Tree .elements) : Tree .array
  | element (before : Space) (value : Tree .value) (after : Space) : Tree .elements
  | moreElements (before : Space) (value : Tree .value) (after : Space) (rest : Tree .elements) :
      Tree .elements
  | noMembers (space : Space) : Tree .object
  | someMembers (members : Tree .members) : Tree .object
  | member (before : Space) (key : List Character) (afterKey beforeValue : Space)
      (value : Tree .value) (after : Space) : Tree .members
  | moreMembers (before : Space) (key : List Character) (afterKey beforeValue : Space)
      (value : Tree .value) (after : Space) (rest : Tree .members) : Tree .members

/-- A member of an object: its value, and what follows the value in the text that the
object was looked up in. -/
structure Member where
  afterKey : Space
  beforeValue : Space
  value : Tree .value
  rest : List UInt8

namespace Tree

def text : {kind : Kind} → Tree kind → List UInt8
  | _, .null => [0x6e, 0x75, 0x6c, 0x6c]
  | _, .bool value => if value then [0x74, 0x72, 0x75, 0x65] else [0x66, 0x61, 0x6c, 0x73, 0x65]
  | _, .number n => n.text
  | _, .string body => stringText body
  | _, .array inside => 0x5b :: inside.text ++ [0x5d]
  | _, .object inside => 0x7b :: inside.text ++ [0x7d]
  | _, .noElements space => space.bytes
  | _, .someElements elements => elements.text
  | _, .element before value after => before.bytes ++ value.text ++ after.bytes
  | _, .moreElements before value after rest =>
    before.bytes ++ value.text ++ after.bytes ++ 0x2c :: rest.text
  | _, .noMembers space => space.bytes
  | _, .someMembers members => members.text
  | _, .member before key afterKey beforeValue value after =>
    before.bytes ++ stringText key ++ afterKey.bytes ++ 0x3a :: (beforeValue.bytes ++ value.text ++
      after.bytes)
  | _, .moreMembers before key afterKey beforeValue value after rest =>
    before.bytes ++ stringText key ++ afterKey.bytes ++ 0x3a :: (beforeValue.bytes ++ value.text ++
      after.bytes ++ 0x2c :: rest.text)

/-- The integer that a value is, if it is one. -/
def integer : Tree .value → Option Int
  | .number ⟨n, none, none⟩ => some n.value
  | _ => none

/-- The first member of a name; `tail` follows the text. -/
def lookup (name tail : List UInt8) : {kind : Kind} → Tree kind → Option Member
  | _, .someMembers members => members.lookup name tail
  | _, .member _ key afterKey beforeValue value after =>
    if isNamed name key then some ⟨afterKey, beforeValue, value, after.bytes ++ tail⟩ else none
  | _, .moreMembers _ key afterKey beforeValue value after rest =>
    if isNamed name key then
      some ⟨afterKey, beforeValue, value, after.bytes ++ 0x2c :: (rest.text ++ tail)⟩
    else rest.lookup name tail
  | _, _ => none

end Tree

/-- The text from behind the member's key on. -/
def Member.after (m : Member) : List UInt8 :=
  m.afterKey.bytes ++ 0x3a :: (m.beforeValue.bytes ++ m.value.text ++ m.rest)

/-- A text that is one object. -/
structure Document where
  before : Space
  object : Tree .object
  after : Space

namespace Document

def text (d : Document) : List UInt8 := d.before.bytes ++ 0x7b :: (d.object.text ++ 0x7d :: d.after.bytes)

def lookup (name : List UInt8) (d : Document) : Option Member :=
  d.object.lookup name (0x7d :: d.after.bytes)

end Document

section Facts

theorem digit_byte {d : Nat} (small : d < 10) :
    isDigit (UInt8.ofNat (0x30 + d)) = true ∧ (UInt8.ofNat (0x30 + d)).toNat = 0x30 + d := by
  have each : ∀ d : Fin 10, isDigit (UInt8.ofNat (0x30 + d.val)) = true ∧
      (UInt8.ofNat (0x30 + d.val)).toNat = 0x30 + d.val := by decide
  exact each ⟨d, small⟩

theorem space_not_digit {c : UInt8} (space : isSpace c = true) : isDigit c = false := by
  simp only [isSpace, Bool.or_eq_true, decide_eq_true_eq] at space
  rcases space with ((rfl | rfl) | rfl) | rfl <;> rfl

theorem digit_not_space {c : UInt8} (digit : isDigit c = true) : isSpace c = false := by
  cases space : isSpace c with
  | false => rfl
  | true =>
    rw [space_not_digit space] at digit
    cases digit

/-- What follows does not go on with the digits of a number. -/
def EndsDigits (rest : List UInt8) : Prop := ∀ c, rest.head? = some c → isDigit c = false

theorem endsDigits_nil : EndsDigits [] := nofun

theorem endsDigits_cons {c : UInt8} (other : isDigit c = false) (rest : List UInt8) :
    EndsDigits (c :: rest) := by
  intro first head
  obtain rfl := Option.some.inj head
  exact other

theorem Space.endsDigits (space : Space) {rest : List UInt8} (ends : EndsDigits rest) :
    EndsDigits (space.bytes ++ rest) := by
  obtain ⟨bytes, blank⟩ := space
  cases bytes with
  | nil => exact ends
  | cons c bytes => exact endsDigits_cons (space_not_digit (blank c (by simp))) _

theorem Number.text_integer (n : Number) (rest : List UInt8) (ends : EndsDigits rest) :
    ∃ more, n.text ++ rest = n.integer.text ++ more ∧ EndsDigits more := by
  obtain ⟨integer, fraction, exponent⟩ := n
  refine ⟨(fraction.elim [] fun f => 0x2e :: digitText f.digits) ++ (exponent.elim [] Exponent.text ++ rest),
    by simp [Number.text], ?_⟩
  cases fraction with
  | some f => exact endsDigits_cons rfl _
  | none =>
    cases exponent with
    | none => exact ends
    | some e => exact endsDigits_cons (by cases e.capital <;> rfl) _

theorem Integer.text_head (n : Integer) :
    ∃ c rest, n.text = c :: rest ∧ (c = 0x2d ∨ isDigit c = true) := by
  obtain ⟨⟨digits, small, nonempty⟩, negative, leading⟩ := n
  cases negative with
  | true => exact ⟨0x2d, _, rfl, .inl rfl⟩
  | false =>
    cases digits with
    | nil => exact absurd rfl nonempty
    | cons d digits => exact ⟨_, _, rfl, .inr (digit_byte (small d (by simp))).1⟩

/-- A value's text starts with no space, and with a number's first byte only if it is one. -/
theorem Tree.text_head (v : Tree .value) :
    ∃ c rest, v.text = c :: rest ∧ isSpace c = false ∧
      ((c = 0x2d ∨ isDigit c = true) → ∃ n, v = .number n) := by
  cases v with
  | number n =>
    obtain ⟨c, rest, text, first⟩ := n.integer.text_head
    obtain ⟨more, split, -⟩ := n.text_integer [] endsDigits_nil
    refine ⟨c, rest ++ more, ?_, ?_, fun _ => ⟨n, rfl⟩⟩
    · rw [Tree.text, ← List.append_nil n.text, split, text]
      rfl
    · rcases first with rfl | digit
      · rfl
      · exact digit_not_space digit
  | null => exact ⟨_, _, rfl, rfl, fun first => absurd first (by decide)⟩
  | bool value => cases value <;> exact ⟨_, _, rfl, rfl, fun first => absurd first (by decide)⟩
  | string body => exact ⟨_, _, rfl, rfl, fun first => absurd first (by decide)⟩
  | array inside => exact ⟨_, _, rfl, rfl, fun first => absurd first (by decide)⟩
  | object inside => exact ⟨_, _, rfl, rfl, fun first => absurd first (by decide)⟩

theorem Tree.lookup_rest {kind : Kind} (t : Tree kind) {name tail : List UInt8} {m : Member}
    (found : t.lookup name tail = some m) (ends : EndsDigits tail) : EndsDigits m.rest := by
  induction t with
  | someMembers members ih => exact ih found
  | member before key afterKey beforeValue value after =>
    rw [Tree.lookup] at found
    split at found
    · obtain rfl := Option.some.inj found
      exact after.endsDigits ends
    · cases found
  | moreMembers before key afterKey beforeValue value after rest _ ih =>
    rw [Tree.lookup] at found
    split at found
    · obtain rfl := Option.some.inj found
      exact after.endsDigits (endsDigits_cons rfl _)
    · exact ih found
  | _ => cases found

end Facts

end StreamRelay.Json
