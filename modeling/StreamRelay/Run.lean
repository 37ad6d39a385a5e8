import Mathlib.Data.List.Induction

/-! Finite runs of a deterministic step over a list of inputs. A property may
mention the inputs consumed so far, so a history invariant is one induction and
a conditional invariant is charged only for the steps actually taken. -/
namespace StreamRelay.Run

variable {State Input : Type*} (step : State → Input → State) (start : State)

def run (inputs : List Input) : State := inputs.foldl step start

@[simp] theorem run_nil : run step start [] = start := rfl

@[simp] theorem run_snoc (past : List Input) (input : Input) :
    run step start (past ++ [input]) = step (run step start past) input := by
  simp [run]

theorem run_append (past later : List Input) :
    run step start (past ++ later) = run step (run step start past) later := by
  simp [run]

/-- Each step is taken from a state in which `allowed` holds of its input. -/
def Always (allowed : State → Input → Prop) (inputs : List Input) : Prop :=
  ∀ past input rest, inputs = past ++ input :: rest → allowed (run step start past) input

theorem always_snoc (allowed : State → Input → Prop) (past : List Input) (input : Input) :
    Always step start allowed (past ++ [input]) ↔
      Always step start allowed past ∧ allowed (run step start past) input := by
  constructor
  · intro always
    refine ⟨?_, always past input [] rfl⟩
    rintro before next rest rfl
    exact always before next (rest ++ [input]) (by simp)
  · rintro ⟨earlier, last⟩ before next rest split
    rcases List.eq_nil_or_concat rest with rfl | ⟨rest, final, rfl⟩
    · obtain ⟨rfl, same⟩ := List.append_inj' split rfl
      obtain rfl := List.cons.inj same |>.1
      exact last
    · have split : past ++ [input] = (before ++ next :: rest) ++ [final] := by
        simpa using split
      exact earlier before next rest (List.append_inj' split rfl).1

theorem always_before {allowed : State → Input → Prop} {past rest : List Input}
    (always : Always step start allowed (past ++ rest)) : Always step start allowed past := by
  rintro before next later rfl
  exact always before next (later ++ rest) (by simp)

theorem always_of_mem {allowed : Input → Prop} {inputs : List Input}
    (each : ∀ input ∈ inputs, allowed input) :
    Always step start (fun _ => allowed) inputs := by
  rintro past input rest rfl
  exact each input (by simp)

@[simp] theorem always_nil (allowed : State → Input → Prop) : Always step start allowed [] := by
  intro past input rest split
  simp at split

theorem always_cons (allowed : State → Input → Prop) (input : Input) (later : List Input) :
    Always step start allowed (input :: later) ↔
      allowed start input ∧ Always step (step start input) allowed later := by
  constructor
  · intro always
    refine ⟨always [] input later rfl, ?_⟩
    rintro past next rest rfl
    exact always (input :: past) next rest rfl
  · rintro ⟨first, always⟩ past next rest split
    rcases past with - | ⟨before, past⟩
    · obtain ⟨rfl, rfl⟩ := List.cons.inj split
      exact first
    · obtain ⟨rfl, later⟩ := List.cons.inj split
      exact always past next rest later

theorem always_append (allowed : State → Input → Prop) (past later : List Input) :
    Always step start allowed (past ++ later) ↔
      Always step start allowed past ∧ Always step (run step start past) allowed later := by
  induction past generalizing start with
  | nil => simp
  | cons input past ih =>
    rw [List.cons_append, always_cons, always_cons, ih, and_assoc]
    rfl

instance decidableAlways (allowed : State → Input → Prop) [∀ s i, Decidable (allowed s i)] :
    (start : State) → (inputs : List Input) → Decidable (Always step start allowed inputs)
  | start, [] => isTrue (always_nil step start allowed)
  | start, input :: later =>
    have := decidableAlways allowed (step start input) later
    decidable_of_iff _ (always_cons step start allowed input later).symm

/-- A property of the consumed inputs and the state reached. -/
theorem history (property : List Input → State → Prop) (initial : property [] start)
    (preserved : ∀ past input, property past (run step start past) →
      property (past ++ [input]) (step (run step start past) input))
    (inputs : List Input) : property inputs (run step start inputs) := by
  induction inputs using List.reverseRecOn with
  | nil => exact initial
  | append_singleton past input ih => simpa using preserved past input ih

/-- The same where every step has to be allowed. -/
theorem history_while (allowed : State → Input → Prop) (property : List Input → State → Prop)
    (initial : property [] start)
    (preserved : ∀ past input, property past (run step start past) →
      allowed (run step start past) input →
      property (past ++ [input]) (step (run step start past) input))
    (inputs : List Input) (always : Always step start allowed inputs) :
    property inputs (run step start inputs) := by
  induction inputs using List.reverseRecOn with
  | nil => exact initial
  | append_singleton past input ih =>
    obtain ⟨earlier, last⟩ := (always_snoc step start allowed past input).mp always
    simpa using preserved past input (ih earlier) last

theorem invariant (property : State → Prop) (initial : property start)
    (preserved : ∀ state input, property state → property (step state input))
    (inputs : List Input) : property (run step start inputs) :=
  history step start (fun _ => property) initial (fun _ input => preserved _ input) inputs

/-- When one step keeps the property exactly if it is allowed, a run keeps it in
every state reached exactly if all its steps are allowed. -/
theorem invariant_iff (allowed : State → Input → Prop) (property : State → Prop)
    (initial : property start)
    (exact_step : ∀ state input, property state → (property (step state input) ↔ allowed state input))
    (inputs : List Input) :
    (∀ past rest, inputs = past ++ rest → property (run step start past)) ↔
      Always step start allowed inputs := by
  constructor
  · rintro holds past input rest rfl
    have before := holds past (input :: rest) rfl
    have after := holds (past ++ [input]) rest (by simp)
    rw [run_snoc] at after
    exact (exact_step _ _ before).mp after
  · rintro always past rest rfl
    exact history_while step start allowed (fun _ => property) initial
      (fun _ input held may => (exact_step _ input held).mpr may) past (always_before step start always)

end StreamRelay.Run
