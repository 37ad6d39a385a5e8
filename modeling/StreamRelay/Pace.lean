import Mathlib.Data.List.Chain
import Mathlib.Data.Nat.Basic

/-! Stamps in the order in which they were given, each at least a gap behind the one before. -/
namespace StreamRelay.Pace

variable {gap wide : Nat} {stamps : List Nat}

def Paced (gap : Nat) (stamps : List Nat) : Prop := stamps.IsChain fun a b => a + gap ≤ b

@[simp] theorem paced_nil : Paced gap [] := .nil

theorem Paced.snoc {t : Nat} (paced : Paced gap stamps)
    (later : ∀ a ∈ stamps.getLast?, a + gap ≤ t) : Paced gap (stamps ++ [t]) := by
  apply List.IsChain.append paced (.singleton t)
  intro a last b first
  obtain rfl : t = b := by simpa using first
  exact later a last

theorem Paced.mono (narrower : gap ≤ wide) (paced : Paced wide stamps) : Paced gap stamps :=
  List.IsChain.imp (fun _ _ apart => by omega) paced

/-- Not only neighbours are apart. -/
theorem Paced.pairwise (paced : Paced gap stamps) :
    stamps.Pairwise fun a b => a + gap ≤ b := by
  have : Trans (fun a b : Nat => a + gap ≤ b) (fun a b : Nat => a + gap ≤ b)
      (fun a b : Nat => a + gap ≤ b) := ⟨fun first second => by omega⟩
  exact List.isChain_iff_pairwise.mp paced

end StreamRelay.Pace
