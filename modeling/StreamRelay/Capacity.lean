import Mathlib.Data.Nat.Basic

/-! The capacity of a buffer that grows by doubling. -/
namespace StreamRelay.Capacity

/-- The loop `while (cap < need) cap *= 2`, for so many rounds at most. -/
def doubled (need : Nat) : Nat → Nat → Nat
  | 0, cap => cap
  | rounds + 1, cap => if cap < need then doubled need rounds (2 * cap) else cap

/-- From a positive capacity `need` rounds are enough to end the loop. -/
def grown (need cap : Nat) : Nat := doubled need need cap

theorem doubled_enough (need : Nat) :
    ∀ rounds cap, 0 < cap → need ≤ cap + rounds → need ≤ doubled need rounds cap
  | 0, cap, _, near => near
  | rounds + 1, cap, positive, near => by
    unfold doubled
    split
    · exact doubled_enough need rounds (2 * cap) (by omega) (by omega)
    · omega

theorem grown_enough {need cap : Nat} (positive : 0 < cap) : need ≤ grown need cap :=
  doubled_enough need need cap positive (by omega)

theorem doubled_le (need : Nat) :
    ∀ rounds cap, cap ≤ doubled need rounds cap
  | 0, _ => le_refl _
  | rounds + 1, cap => by
    unfold doubled
    split
    · exact le_trans (by omega) (doubled_le need rounds (2 * cap))
    · exact le_refl _

end StreamRelay.Capacity
