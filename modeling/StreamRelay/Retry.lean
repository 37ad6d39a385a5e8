import Mathlib.Data.List.Basic

/-! A list of items that are tried one after the other until an attempt succeeds. An attempt
also acts on a state, so what a failed one leaves behind is what the next one starts from. -/
namespace StreamRelay.Retry

variable {State Item Result : Type*} (attempt : State → Item → State × Option Result)

/-- The state after the last attempt, and the item that succeeded with its result. -/
def firstOf : State → List Item → State × Option (Item × Result)
  | s, [] => (s, none)
  | s, item :: rest =>
    match attempt s item with
    | (after, some result) => (after, some (item, result))
    | (after, none) => firstOf after rest

variable {attempt}

theorem firstOf_some {s : State} {item : Item} {result : Result}
    (success : (attempt s item).2 = some result) (rest : List Item) :
    firstOf attempt s (item :: rest) = ((attempt s item).1, some (item, result)) := by
  rw [firstOf, show attempt s item = ((attempt s item).1, some result) from Prod.ext rfl success]

theorem firstOf_none {s : State} {item : Item} (failure : (attempt s item).2 = none)
    (rest : List Item) :
    firstOf attempt s (item :: rest) = firstOf attempt (attempt s item).1 rest := by
  rw [firstOf, show attempt s item = ((attempt s item).1, none) from Prod.ext rfl failure]

variable {succeeds : Item → Bool}

/-- When an attempt from a state of the invariant succeeds as its item says, and a failed one
restores the invariant, the item found is the first that succeeds. -/
theorem firstOf_rule (inv : State → Prop) (good : Item → Result → State → Prop) {items : List Item}
    (success : ∀ s, ∀ item ∈ items, ∀ result, inv s → (attempt s item).2 = some result →
      succeeds item = true ∧ good item result (attempt s item).1)
    (failure : ∀ s, ∀ item ∈ items, inv s → (attempt s item).2 = none →
      succeeds item = false ∧ inv (attempt s item).1)
    {s : State} (start : inv s) :
    (firstOf attempt s items).2.map Prod.fst = items.find? succeeds ∧
      (∀ found, (firstOf attempt s items).2 = some found →
        good found.1 found.2 (firstOf attempt s items).1) ∧
      ((firstOf attempt s items).2 = none → inv (firstOf attempt s items).1) := by
  induction items generalizing s with
  | nil => exact ⟨rfl, by simp [firstOf], fun _ => start⟩
  | cons item rest ih =>
    have here : item ∈ item :: rest := List.mem_cons_self
    cases outcome : (attempt s item).2 with
    | some result =>
      obtain ⟨succeeded, kept⟩ := success s item here result start outcome
      rw [firstOf_some outcome]
      refine ⟨(List.find?_cons_of_pos succeeded).symm, ?_, by simp⟩
      rintro found ⟨⟩
      exact kept
    | none =>
      obtain ⟨failed, kept⟩ := failure s item here start outcome
      rw [firstOf_none outcome, List.find?_cons_of_neg (by simp [failed])]
      exact ih (fun s other mem => success s other (List.mem_cons_of_mem item mem))
        (fun s other mem => failure s other (List.mem_cons_of_mem item mem)) kept

end StreamRelay.Retry
