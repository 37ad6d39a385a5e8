import Mathlib.Data.Nat.Basic

/-! A limiter that keeps the times of recent attempts. When as many are kept as may be, it forgets
them and admits nobody for at least the width of the window. Nobody is admitted before the horizon. -/
namespace StreamRelay.SlidingWindow

/-- How many of the times are in the window that begins at `start`. -/
def inside (width : Nat) (start : Int) (times : List Nat) : Nat :=
  times.countP fun t : Nat => start ≤ t ∧ t < start + width

def since (start : Int) (times : List Nat) : Nat := times.countP fun t : Nat => start ≤ t

/-- A window that is still open at the horizon has no more attempts than are kept of it. -/
structure Bounded (width most : Nat) (times kept : List Nat) (horizon : Nat) : Prop where
  few : kept.length < most
  past : ∀ t ∈ times, t ≤ horizon
  counted : ∀ start : Int, (horizon : Int) < start + width → since start times ≤ since start kept
  spread : ∀ start, inside width start times ≤ most

theorem inside_le_since (width : Nat) (start : Int) (times : List Nat) :
    inside width start times ≤ since start times := by
  apply List.countP_mono_left
  intro t _ within
  exact decide_eq_true (of_decide_eq_true within).1

theorem since_snoc (start : Int) (times : List Nat) (t : Nat) :
    since start (times ++ [t]) = since start times + if start ≤ (t : Int) then 1 else 0 := by
  simp [since, List.countP_append, List.countP_singleton]

theorem inside_snoc (width : Nat) (start : Int) (times : List Nat) (t : Nat) :
    inside width start (times ++ [t]) =
      inside width start times + if start ≤ (t : Int) ∧ (t : Int) < start + width then 1 else 0 := by
  simp [inside, List.countP_append, List.countP_singleton]

/-- What falls out of the window was before its start. -/
theorem since_filter {start : Int} {cutoff : Nat} (after : (cutoff : Int) ≤ start)
    (times : List Nat) : since start (times.filter fun t => t ≥ cutoff) = since start times := by
  rw [since, List.countP_filter]
  apply List.countP_congr
  intro t _
  simp only [Bool.and_eq_true, decide_eq_true_eq]
  omega

variable {width most : Nat} {times kept : List Nat} {horizon : Nat}

theorem Bounded.initial (positive : 0 < most) (horizon : Nat) : Bounded width most [] [] horizon where
  few := positive
  past := fun _ member => absurd member (List.not_mem_nil)
  counted := fun _ _ => Nat.le_refl _
  spread := fun _ => Nat.zero_le _

theorem Bounded.later {ahead : Nat} (bounded : Bounded width most times kept horizon)
    (later : horizon ≤ ahead) : Bounded width most times kept ahead where
  few := bounded.few
  past := fun t member => Nat.le_trans (bounded.past t member) later
  counted := fun start ends => bounded.counted start (by omega)
  spread := bounded.spread

/-- One more attempt does not fill a window too much. -/
theorem Bounded.spread_snoc (bounded : Bounded width most times kept horizon) {time : Nat}
    (admitted : horizon ≤ time) (start : Int) : inside width start (times ++ [time]) ≤ most := by
  rw [inside_snoc]
  split
  · rename_i within
    have before : inside width start times ≤ kept.length := by
      calc inside width start times ≤ since start times := inside_le_since width start times
        _ ≤ since start kept := bounded.counted start (by omega)
        _ ≤ kept.length := List.countP_le_length
    have few := bounded.few
    omega
  · exact bounded.spread start

/-- The attempt is noted a little later, and there is still room. -/
theorem Bounded.note (bounded : Bounded width most times kept horizon) {time now : Nat}
    (admitted : horizon ≤ time) (noted : time ≤ now)
    (room : (kept.filter (fun t => t ≥ now - width) ++ [now]).length < most) :
    Bounded width most (times ++ [time]) (kept.filter (fun t => t ≥ now - width) ++ [now]) now where
  few := room
  past := by
    intro t member
    rcases List.mem_append.mp member with before | last
    · have := bounded.past t before
      omega
    · obtain rfl := List.mem_singleton.mp last
      exact noted
  counted := by
    intro start ends
    have before := bounded.counted start (by omega)
    by_cases cutoff : ((now - width : Nat) : Int) ≤ start
    · rw [since_snoc, since_snoc, since_filter cutoff]
      split <;> split <;> omega
    · -- The cutoff is zero, and nothing is dropped.
      have whole : kept.filter (fun t => t ≥ now - width) = kept := by
        apply List.filter_eq_self.mpr
        intro t _
        apply decide_eq_true
        omega
      rw [since_snoc, since_snoc, whole]
      split <;> split <;> omega
  spread := bounded.spread_snoc admitted

/-- There is no more room: nobody is admitted before the window has gone. -/
theorem Bounded.clear (bounded : Bounded width most times kept horizon) {time now ahead : Nat}
    (admitted : horizon ≤ time) (noted : time ≤ now) (closed : now + width ≤ ahead) :
    Bounded width most (times ++ [time]) [] ahead := by
  have past : ∀ t ∈ times ++ [time], t ≤ now := by
    intro t member
    rcases List.mem_append.mp member with before | last
    · have := bounded.past t before
      omega
    · obtain rfl := List.mem_singleton.mp last
      exact noted
  refine ⟨?_, ?_, ?_, bounded.spread_snoc admitted⟩
  · exact Nat.lt_of_le_of_lt (Nat.zero_le _) bounded.few
  · intro t member
    have := past t member
    omega
  · intro start ends
    have none : since start (times ++ [time]) = 0 := by
      apply List.countP_eq_zero.mpr
      intro t member
      have := past t member
      simp only [decide_eq_true_eq]
      omega
    omega

end StreamRelay.SlidingWindow
