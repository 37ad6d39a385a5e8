import Mathlib.Algebra.Group.Nat.Defs
import Mathlib.Data.Nat.Basic

/-! Numbers as bytes, the lowest first. What does not fit the width is lost. -/
namespace StreamRelay.LittleEndian

def bytes : (width : Nat) → Nat → List UInt8
  | 0, _ => []
  | width + 1, n => UInt8.ofNat n :: bytes width (n / 256)

def value : List UInt8 → Nat
  | [] => 0
  | byte :: later => byte.toNat + 256 * value later

@[simp] theorem bytes_length (width n : Nat) : (bytes width n).length = width := by
  induction width generalizing n with
  | zero => rfl
  | succ width ih => rw [bytes, List.length_cons, ih]

theorem value_bytes {width n : Nat} (fits : n < 256 ^ width) : value (bytes width n) = n := by
  induction width generalizing n with
  | zero => exact (Nat.lt_one_iff.mp fits).symm
  | succ width ih =>
    have high : n / 256 < 256 ^ width := by
      apply Nat.div_lt_of_lt_mul
      rw [Nat.mul_comm]
      exact fits
    rw [bytes, value, ih high, UInt8.toNat_ofNat']
    exact Nat.mod_add_div n 256

/-- The number in so many bytes from an offset of a text. -/
def valueAt (text : List UInt8) (offset width : Nat) : Nat := value ((text.drop offset).take width)

theorem valueAt_first {width n : Nat} (fits : n < 256 ^ width) (later : List UInt8) :
    valueAt (bytes width n ++ later) 0 width = n := by
  rw [valueAt, List.drop_zero, List.take_left' (bytes_length width n), value_bytes fits]

/-- A field in front of an offset does not matter there. -/
theorem valueAt_skip {before offset : Nat} (past : before ≤ offset) (n : Nat) (later : List UInt8)
    (width : Nat) :
    valueAt (bytes before n ++ later) offset width = valueAt later (offset - before) width := by
  have none_left : (bytes before n).drop offset = [] := by
    apply List.drop_eq_nil_of_le
    rw [bytes_length]
    exact past
  rw [valueAt, valueAt, List.drop_append, bytes_length, none_left, List.nil_append]

end StreamRelay.LittleEndian
