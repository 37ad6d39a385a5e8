import Mathlib.Data.Nat.Basic
import Mathlib.Logic.Function.Basic

/-! How many of the first entries of a table have a property, when one entry changes. -/
namespace StreamRelay.Census

variable {Entry : Type*} (property : Entry → Bool)

def count (table : Nat → Entry) : Nat → Nat
  | 0 => 0
  | n + 1 => count table n + (property (table n)).toNat

variable {property} {table : Nat → Entry}

/-- A change behind the entries that are counted. -/
theorem count_behind {n i : Nat} (behind : n ≤ i) (entry : Entry) :
    count property (Function.update table i entry) n = count property table n := by
  induction n with
  | zero => rfl
  | succ n ih =>
    rw [count, count, ih (Nat.le_of_succ_le behind), Function.update_of_ne (by omega)]

theorem count_update (property : Entry → Bool) (table : Nat → Entry) {n i : Nat} (inside : i < n)
    (entry : Entry) :
    count property (Function.update table i entry) n + (property (table i)).toNat =
      count property table n + (property entry).toNat := by
  induction n with
  | zero => exact absurd inside (Nat.not_lt_zero i)
  | succ n ih =>
    rcases Nat.lt_succ_iff_lt_or_eq.mp inside with before | rfl
    · have later := ih before
      rw [count, count, Function.update_of_ne (by omega)]
      omega
    · rw [count, count, count_behind le_rfl, Function.update_self]
      omega

/-- A change that the property does not see. -/
theorem count_same (n : Nat) {i : Nat} {entry : Entry}
    (same : property entry = property (table i)) :
    count property (Function.update table i entry) n = count property table n := by
  by_cases inside : i < n
  · have changed := count_update property table inside entry
    rw [same] at changed
    omega
  · exact count_behind (Nat.not_lt.mp inside) entry

theorem count_push (n : Nat) (entry : Entry) :
    count property (Function.update table n entry) (n + 1) =
      count property table n + (property entry).toNat := by
  rw [count, count_behind le_rfl, Function.update_self]

/-- Only the property of the entries counts. -/
theorem count_comp {other : Entry → Bool} (same : property ∘ table = other ∘ table) (n : Nat) :
    count property table n = count other table n := by
  induction n with
  | zero => rfl
  | succ n ih => rw [count, count, ih, show property (table n) = other (table n) from congrFun same n]

theorem count_eq_zero {n : Nat} :
    count property table n = 0 ↔ ∀ i < n, property (table i) = false := by
  induction n with
  | zero => exact ⟨fun _ i inside => absurd inside (Nat.not_lt_zero i), fun _ => rfl⟩
  | succ n ih =>
    rw [count, Nat.add_eq_zero_iff, ih]
    constructor
    · rintro ⟨earlier, last⟩ i inside
      rcases Nat.lt_succ_iff_lt_or_eq.mp inside with before | rfl
      · exact earlier i before
      · cases entry : property (table i) with
        | false => rfl
        | true =>
          rw [entry] at last
          cases last
    · intro all
      refine ⟨fun i before => all i (Nat.lt_succ_of_lt before), ?_⟩
      rw [all n (Nat.lt_succ_self n)]
      rfl

end StreamRelay.Census
