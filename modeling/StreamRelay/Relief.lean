import Mathlib

/-! Making room: items are given up one after another until what is in use has come down to a
target. The estimate of what is in use does not fall below zero. -/
namespace StreamRelay.Relief

variable {Item : Type*} (size : Item → Nat) (target : Int)

/-- What is still in use without the items given up. -/
def left (used : Nat) (gone : List Item) : Nat := used - (gone.map size).sum

/-- The items given up, the first of them without a look at the target. -/
def relieve : Nat → List Item → List Item
  | _, [] => []
  | used, item :: items =>
    item :: if ((used - size item : Nat) : Int) ≤ target then [] else relieve (used - size item) items

/-- The least number of items from the front that reaches the target, or all where none does. -/
structure Shortest (used : Nat) (items gone : List Item) : Prop where
  front : gone <+: items
  needed : ∀ fewer, fewer <+: gone → fewer ≠ gone → target < left size used fewer
  enough : left size used gone ≤ target ∨ gone = items

theorem left_cons (used : Nat) (item : Item) (gone : List Item) :
    left size used (item :: gone) = left size (used - size item) gone := by
  simp only [left, List.map_cons, List.sum_cons]
  omega

theorem Shortest.cons {used : Nat} {item : Item} {items gone : List Item}
    (above : target < used) (later : Shortest size target (used - size item) items gone) :
    Shortest size target used (item :: items) (item :: gone) := by
  refine ⟨List.cons_prefix_cons.mpr ⟨rfl, later.front⟩, ?_, ?_⟩
  · intro fewer front short
    cases fewer with
    | nil => exact above
    | cons first fewer =>
      obtain ⟨rfl, inside⟩ := List.cons_prefix_cons.mp front
      rw [left_cons]
      apply later.needed fewer inside
      rintro rfl
      exact short rfl
  · rw [left_cons]
    exact later.enough.imp_right (congrArg (item :: ·))

theorem relieve_shortest (items : List Item) (used : Nat) (above : target < used) :
    Shortest size target used items (relieve size target used items) := by
  induction items generalizing used with
  | nil => exact ⟨List.prefix_rfl, fun fewer front short => absurd (List.prefix_nil.mp front) short,
      .inr rfl⟩
  | cons item items ih =>
    apply Shortest.cons size target above
    split
    · next reached =>
      exact ⟨List.nil_prefix, fun fewer front short => absurd (List.prefix_nil.mp front) short,
        .inl reached⟩
    · next short => exact ih _ (not_le.mp short)

/-- Where a part of the items reaches the target, the shortest part is not all of them. -/
theorem Shortest.not_all {used : Nat} {items gone fewer : List Item}
    (shortest : Shortest size target used items gone) (front : fewer <+: items)
    (part : fewer ≠ items) (reached : left size used fewer ≤ target) : gone ≠ items := by
  rintro rfl
  exact not_le.mpr (shortest.needed fewer front part) reached

end StreamRelay.Relief
