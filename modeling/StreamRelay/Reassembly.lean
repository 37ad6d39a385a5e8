import Mathlib.Data.List.Basic
import Mathlib.Data.List.Infix

/-! Items one behind the other in a stream that comes in pieces. A receiver appends each piece to
its buffer and takes from the front the items that are complete. -/
namespace StreamRelay.Reassembly

variable {Item Symbol : Type*} (encode : Item → List Symbol)

/-- The items all of whose symbols are among the first so many. -/
def completed : List Item → Nat → List Item
  | [], _ => []
  | item :: items, count =>
    if (encode item).length ≤ count then item :: completed items (count - (encode item).length)
    else []

/-- What is behind the complete items. -/
def unfinished (items : List Item) (received : List Symbol) : List Symbol :=
  received.drop ((completed encode items received.length).flatMap encode).length

/-- Appending one piece after another, with what is taken out so far and the buffer. -/
def feedAll (extract : List Symbol → Option (List (List Symbol) × List Symbol)) :
    List (List Symbol) → List (List Symbol) → List Symbol →
      Option (List (List Symbol) × List Symbol)
  | [], out, buffer => some (out, buffer)
  | piece :: pieces, out, buffer => do
    let (found, kept) ← extract (buffer ++ piece)
    feedAll extract pieces (out ++ found) kept

/-- An item at the front is taken, and the first symbols of one are left. -/
structure Extracts (extract : List Symbol → Option (List (List Symbol) × List Symbol)) : Prop where
  empty : extract [] = some ([], [])
  waits : ∀ item part, part <+: encode item → part ≠ encode item → extract part = some ([], part)
  takes : ∀ item rest, extract (encode item ++ rest) =
    (extract rest).map fun result => (encode item :: result.1, result.2)

theorem completed_all (items : List Item) :
    completed encode items (items.flatMap encode).length = items := by
  induction items with
  | nil => rfl
  | cons item items ih =>
    rw [completed, List.flatMap_cons, List.length_append, if_pos (Nat.le_add_right ..),
      Nat.add_sub_cancel_left, ih]

theorem unfinished_all (items : List Item) :
    unfinished encode items (items.flatMap encode) = [] := by
  rw [unfinished, completed_all, List.drop_length]

theorem completed_prefix (items : List Item) (count : Nat) : completed encode items count <+: items := by
  induction items generalizing count with
  | nil => exact List.prefix_rfl
  | cons item items ih =>
    rw [completed]
    split
    · exact List.cons_prefix_cons.mpr ⟨rfl, ih _⟩
    · exact List.nil_prefix

theorem completed_length (items : List Item) (count : Nat) :
    ((completed encode items count).flatMap encode).length ≤ count := by
  induction items generalizing count with
  | nil => exact Nat.zero_le _
  | cons item items ih =>
    rw [completed]
    split
    · have later := ih (count - (encode item).length)
      rw [List.flatMap_cons, List.length_append]
      omega
    · exact Nat.zero_le _

/-- More symbols complete items behind those that are complete. -/
theorem completed_add (items : List Item) (count more : Nat) :
    completed encode items (count + more) = completed encode items count ++
      completed encode (items.drop (completed encode items count).length)
        (count + more - ((completed encode items count).flatMap encode).length) := by
  induction items generalizing count with
  | nil => rfl
  | cons item items ih =>
    by_cases whole : (encode item).length ≤ count
    · have split : completed encode (item :: items) count =
          item :: completed encode items (count - (encode item).length) := if_pos whole
      have longer : completed encode (item :: items) (count + more) =
          item :: completed encode items (count - (encode item).length + more) := by
        rw [completed, if_pos (by omega), Nat.sub_add_comm whole]
      rw [split, longer, ih, List.flatMap_cons, List.length_append, List.length_cons,
        List.drop_succ_cons, List.cons_append]
      have left : count - (encode item).length + more -
          ((completed encode items (count - (encode item).length)).flatMap encode).length =
          count + more - ((encode item).length +
            ((completed encode items (count - (encode item).length)).flatMap encode).length) := by
        omega
      rw [left]
    · have none_yet : completed encode (item :: items) count = [] := if_neg whole
      rw [none_yet]
      rfl

variable {encode} {extract : List Symbol → Option (List (List Symbol) × List Symbol)}

/-- Of the first part of a stream the complete items are taken. -/
theorem Extracts.front (rules : Extracts encode extract) (items : List Item) (part : List Symbol)
    (front : part <+: items.flatMap encode) :
    extract part = some ((completed encode items part.length).map encode,
      unfinished encode items part) := by
  induction items generalizing part with
  | nil =>
    obtain rfl := List.prefix_nil.mp front
    exact rules.empty
  | cons item items ih =>
    rw [List.flatMap_cons] at front
    rw [unfinished, completed]
    split
    · next whole =>
      have own : encode item <+: part :=
        List.prefix_of_prefix_length_le (List.prefix_append ..) front whole
      obtain ⟨rest, rfl⟩ := own
      have later := ih rest ((List.prefix_append_right_inj _).mp front)
      rw [rules.takes, later, List.length_append, Nat.add_sub_cancel_left, List.flatMap_cons,
        List.length_append, ← List.drop_drop, List.drop_left]
      rfl
    · next short =>
      have own : part <+: encode item :=
        List.prefix_of_prefix_length_le front (List.prefix_append ..) (by omega)
      apply rules.waits item part own
      rintro rfl
      exact short le_rfl

/-- However a stream is cut into pieces, what has been taken are the items that are complete, and
the buffer holds what is behind them. -/
theorem Extracts.feedAll (rules : Extracts encode extract) (items : List Item)
    (pieces : List (List Symbol)) (received : List Symbol)
    (front : received ++ pieces.flatten <+: items.flatMap encode) :
    feedAll extract pieces ((completed encode items received.length).map encode)
        (unfinished encode items received) =
      some ((completed encode items (received ++ pieces.flatten).length).map encode,
        unfinished encode items (received ++ pieces.flatten)) := by
  induction pieces generalizing received with
  | nil =>
    rw [List.flatten_nil, List.append_nil]
    rfl
  | cons piece pieces ih =>
    rw [List.flatten_cons, ← List.append_assoc] at front ⊢
    rw [← ih (received ++ piece) front, Reassembly.feedAll]
    have enough := completed_length encode items received.length
    have add := completed_add encode items received.length piece.length
    obtain ⟨later, whole⟩ := completed_prefix encode items received.length
    have rest : items.drop (completed encode items received.length).length = later := by
      have cut := congrArg (List.drop (completed encode items received.length).length) whole.symm
      rwa [List.drop_left] at cut
    have joined : unfinished encode items received ++ piece = (received ++ piece).drop
        ((completed encode items received.length).flatMap encode).length := by
      rw [unfinished, List.drop_append_of_le_length enough]
    have onwards : (received ++ piece).drop
        ((completed encode items received.length).flatMap encode).length <+:
          later.flatMap encode := by
      have here := ((List.prefix_append _ _).trans front).drop
        ((completed encode items received.length).flatMap encode).length
      rwa [← whole, List.flatMap_append, whole, List.drop_left] at here
    have taken := rules.front later _ onwards
    rw [rest] at add
    rw [joined, taken]
    rw [List.length_drop, List.length_append] at taken ⊢
    rw [add, List.map_append, unfinished, unfinished, List.length_drop, List.length_append, add,
      List.flatMap_append, List.length_append, List.drop_drop]
    rfl

end StreamRelay.Reassembly
