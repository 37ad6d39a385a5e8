import Mathlib.Order.Bounds.Basic
import Mathlib.Data.Nat.ModEq

/-! Times that come back at an interval, and how several schedules share it: each has a phase
of its own, and the least time of a phase that is not too early is at most an interval away. -/
namespace StreamRelay.Phase

variable {interval : Nat}

/-- A time of the phase, in the first interval from the bound on, is the least. -/
theorem isLeast_times {offset bound time : Nat} (phase : time ≡ offset [MOD interval])
    (reached : bound ≤ time) (near : time < bound + interval) :
    IsLeast {u | bound ≤ u ∧ u ≡ offset [MOD interval]} time := by
  refine ⟨⟨reached, phase⟩, fun u ⟨later, same⟩ => ?_⟩
  by_contra before
  have apart := Nat.ModEq.add_le_of_lt (same.trans phase.symm) (Nat.not_le.mp before)
  omega

/-- The phase of one of `spread` schedules. -/
def offset (interval spread index : Nat) : Nat := index * interval / spread

theorem offset_lt {spread index : Nat} (positive : 0 < interval) (inside : index < spread) :
    offset interval spread index < interval := by
  refine Nat.div_lt_of_lt_mul ?_
  exact Nat.mul_lt_mul_of_pos_right inside positive

/-- An interval that has room for all schedules has a phase for each. -/
theorem offset_strictMono {spread i j : Nat} (room : spread ≤ interval) (shared : 0 < spread)
    (before : i < j) : offset interval spread i < offset interval spread j := by
  calc i * interval / spread < i * interval / spread + 1 := Nat.lt_succ_self _
    _ = (i * interval + spread) / spread := (Nat.add_div_right _ shared).symm
    _ ≤ (i * interval + interval) / spread := Nat.div_le_div_right (Nat.add_le_add_left room _)
    _ = (i + 1) * interval / spread := by rw [Nat.succ_mul]
    _ ≤ j * interval / spread := Nat.div_le_div_right (Nat.mul_le_mul_right _ before)

theorem offset_injective {spread i j : Nat} (room : spread ≤ interval) (shared : 0 < spread)
    (same : offset interval spread i = offset interval spread j) : i = j := by
  rcases Nat.lt_trichotomy i j with before | equal | after
  · exact absurd same (offset_strictMono room shared before).ne
  · exact equal
  · exact absurd same (offset_strictMono room shared after).ne'

end StreamRelay.Phase
