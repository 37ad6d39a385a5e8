import Mathlib.Data.Int.Order.Basic

/-! Integers of the machine. A value that does not fit has no result, so code that has one
has nowhere overflowed, wrapped around or lost digits. -/
namespace StreamRelay.Checked

/-- A value of a signed 32-bit integer. -/
def int32 (x : Int) : Option Int := if -2147483648 ≤ x ∧ x ≤ 2147483647 then some x else none

/-- A value of a signed 64-bit integer. -/
def int64 (x : Int) : Option Int :=
  if -9223372036854775808 ≤ x ∧ x ≤ 9223372036854775807 then some x else none

/-- A value of an unsigned 64-bit integer. -/
def size64 (x : Int) : Option Nat :=
  if 0 ≤ x ∧ x ≤ 18446744073709551615 then some x.toNat else none

section
variable {x : Int}

theorem int32_some (above : -2147483648 ≤ x) (below : x ≤ 2147483647) :
    int32 x = some x := if_pos ⟨above, below⟩

theorem int64_some (above : -9223372036854775808 ≤ x) (below : x ≤ 9223372036854775807) :
    int64 x = some x := if_pos ⟨above, below⟩

theorem size64_some (above : 0 ≤ x) (below : x ≤ 18446744073709551615) :
    size64 x = some x.toNat := if_pos ⟨above, below⟩

theorem size64_nat {n : Nat} (below : n ≤ 18446744073709551615) : size64 n = some n :=
  size64_some (Int.natCast_nonneg n) (by omega)

end

/-- A computation whose first part has a result goes on with it. -/
theorem proceed {α β : Type} {first : Option α} {value : α} (result : first = some value)
    (next : α → Option β) : (first >>= next) = next value := by
  rw [result]
  rfl

end StreamRelay.Checked
