import Mathlib.Algebra.Order.Group.Int
import Mathlib.Data.Int.Order.Basic

/-! Integers cut to a narrower signed type. A conversion wraps around; what is asked for is
often the nearest value that fits. -/
namespace StreamRelay.Narrowing

/-- The value whose low digits are kept, in a type of `2 * half` values. -/
def wrap (half : Nat) (v : Int) : Int := v.bmod (2 * half)

/-- The nearest value of such a type. -/
def saturate (half : Nat) (v : Int) : Int := max (-half) (min (half - 1) v)

variable (half : Nat)

theorem saturate_inside {v : Int} (above : -half ≤ v) (below : v < half) : saturate half v = v := by
  unfold saturate
  omega

theorem saturate_sign (positive : 1 < half) (v : Int) : (saturate half v).sign = v.sign := by
  unfold saturate
  rcases Int.lt_trichotomy v 0 with negative | rfl | greater
  · rw [Int.sign_eq_neg_one_of_neg negative, Int.sign_eq_neg_one_of_neg (by omega)]
  · rw [show max (-(half : Int)) (min (half - 1) 0) = 0 by omega]
  · rw [Int.sign_eq_one_of_pos greater, Int.sign_eq_one_of_pos (by omega)]

theorem wrap_inside {v : Int} (above : -half ≤ v) (below : v < half) : wrap half v = v :=
  Int.bmod_eq_of_le_mul_two (by push_cast; omega) (by push_cast; omega)

theorem wrap_eq (v : Int) :
    wrap half v = if v % (2 * half : Nat) < half then v % (2 * half : Nat)
      else v % (2 * half : Nat) - 2 * half := by
  rw [wrap, Int.bmod_eq_emod]
  split <;> split <;> omega

/-- Wrapping around saturates just when nothing is cut, or the low digits happen to be those
of the nearest value. -/
theorem wrap_eq_saturate_iff (positive : 0 < half) (v : Int) :
    wrap half v = saturate half v ↔
      (-half ≤ v ∧ v < half) ∨ (half ≤ v ∧ v % (2 * half : Nat) = half - 1) ∨
        (v < -half ∧ v % (2 * half : Nat) = half) := by
  by_cases inside : -half ≤ v ∧ v < half
  · rw [wrap_inside half inside.1 inside.2, saturate_inside half inside.1 inside.2]
    simp [inside]
  · have low := Int.emod_nonneg v (show ((2 * half : Nat) : Int) ≠ 0 by omega)
    have high := Int.emod_lt_of_pos v (show 0 < ((2 * half : Nat) : Int) by omega)
    rw [wrap_eq, saturate]
    generalize v % (2 * half : Nat) = digits at low high ⊢
    split <;> omega

/-- A place below a size stays below it just when the low digits are. -/
theorem wrap_place_iff (positive : 0 < half) (place size : Int) :
    (0 ≤ wrap half place ∧ wrap half place < wrap half size) ↔
      place % (2 * half : Nat) < size % (2 * half : Nat) ∧ size % (2 * half : Nat) < half := by
  have bounds (v : Int) := Int.emod_nonneg v (show ((2 * half : Nat) : Int) ≠ 0 by omega)
  have limits (v : Int) := Int.emod_lt_of_pos v (show 0 < ((2 * half : Nat) : Int) by omega)
  have one := bounds place
  have two := bounds size
  have three := limits place
  have four := limits size
  rw [wrap_eq, wrap_eq]
  generalize place % (2 * half : Nat) = low at one three ⊢
  generalize size % (2 * half : Nat) = lowSize at two four ⊢
  split <;> split <;> omega

end StreamRelay.Narrowing
