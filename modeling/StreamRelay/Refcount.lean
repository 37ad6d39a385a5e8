import Mathlib.Data.Nat.Basic
import Mathlib.Logic.Function.Basic

/-! Objects that are shared by counting references and freed with the last one. How many
hold an object is a matter of the program around them; each operation has a rule that says
what it takes for the counts to go on being those numbers. -/
namespace StreamRelay.Refcount

variable {Object : Type*}

/-- An object with its count, and how often it was freed. -/
structure Cell (Object : Type*) where
  object : Object
  references : Nat
  freed : Nat

/-- The objects by number, and whether a count was ever touched that is not there any more. -/
structure Heap (Object : Type*) where
  cells : Nat → Option (Cell Object)
  known : Nat
  misused : Bool

namespace Heap

def empty : Heap Object := ⟨fun _ => none, 0, false⟩

/-- A new object with one reference, whose number is `known`. -/
def create (heap : Heap Object) (object : Object) : Heap Object :=
  ⟨Function.update heap.cells heap.known (some ⟨object, 1, 0⟩), heap.known + 1, heap.misused⟩

/-- An object that is freed, without its count, where it was made. -/
def discard (heap : Heap Object) (object : Object) : Heap Object :=
  ⟨Function.update heap.cells heap.known (some ⟨object, 1, 1⟩), heap.known + 1, heap.misused⟩

def change (heap : Heap Object) (id : Nat) (next : Cell Object → Cell Object) : Heap Object :=
  match heap.cells id with
  | none => {heap with misused := true}
  | some cell =>
    if cell.freed = 0 then {heap with cells := Function.update heap.cells id (some (next cell))}
    else {heap with misused := true}

def retain (heap : Heap Object) (id : Nat) : Heap Object :=
  heap.change id fun cell => {cell with references := cell.references + 1}

def release (heap : Heap Object) (id : Nat) : Heap Object :=
  heap.change id fun cell =>
    {cell with
      references := cell.references - 1
      freed := if cell.references = 1 then cell.freed + 1 else cell.freed}

end Heap

/-- One holder of an object. -/
def hold (id other : Nat) : Nat := if other = id then 1 else 0

@[simp] theorem hold_self (id : Nat) : hold id id = 1 := if_pos rfl

theorem hold_other {id other : Nat} (apart : other ≠ id) : hold id other = 0 := if_neg apart

/-- An object that is there has as many references as holders, one at least; one that was
freed was freed once and has none. -/
def Accounted : Option (Cell Object) → Nat → Prop
  | none, holders => holders = 0
  | some cell, holders =>
    cell.freed = 0 ∧ cell.references = holders ∧ 0 < holders ∨ cell.freed = 1 ∧ holders = 0

structure Owned (heap : Heap Object) (holders : Nat → Nat) : Prop where
  sound : heap.misused = false
  unknown : ∀ id, heap.known ≤ id → heap.cells id = none
  accounted : ∀ id, Accounted (heap.cells id) (holders id)

variable {heap : Heap Object} {holders after : Nat → Nat}

theorem Owned.empty : Owned (Heap.empty : Heap Object) fun _ => 0 :=
  ⟨rfl, fun _ _ => rfl, fun _ => rfl⟩

theorem Owned.congr (owned : Owned heap holders) (same : ∀ id, after id = holders id) :
    Owned heap after := by
  rwa [show after = holders from funext same]

/-- A cell of its own number is put into the table. -/
theorem Owned.put (owned : Owned heap holders) {id : Nat} {cell : Cell Object} {known : Nat}
    (grown : heap.known ≤ known ∧ id < known) (own : Accounted (some cell) (after id))
    (others : ∀ other, other ≠ id → after other = holders other) :
    Owned ⟨Function.update heap.cells id (some cell), known, heap.misused⟩ after where
  sound := owned.sound
  unknown other above := by
    have above : known ≤ other := above
    have apart : other ≠ id := by omega
    exact (Function.update_of_ne apart ..).trans (owned.unknown other (by omega))
  accounted other := by
    dsimp only
    by_cases same : other = id
    · subst same
      rwa [Function.update_self]
    · rw [Function.update_of_ne same, others other same]
      exact owned.accounted other

theorem Owned.create (owned : Owned heap holders) (object : Object)
    (more : ∀ id, after id = holders id + hold heap.known id) : Owned (heap.create object) after := by
  have none := owned.accounted heap.known
  rw [owned.unknown _ le_rfl] at none
  refine owned.put ⟨Nat.le_succ _, Nat.lt_succ_self _⟩ (.inl ⟨rfl, ?_, ?_⟩) fun other apart => ?_
  · rw [more, hold_self, show holders heap.known = 0 from none]
  · rw [more, hold_self]
    exact Nat.succ_pos _
  · rw [more, hold_other apart, Nat.add_zero]

theorem Owned.discard (owned : Owned heap holders) (object : Object) :
    Owned (heap.discard object) holders := by
  have none := owned.accounted heap.known
  rw [owned.unknown _ le_rfl] at none
  exact owned.put ⟨Nat.le_succ _, Nat.lt_succ_self _⟩ (.inr ⟨rfl, none⟩) fun _ _ => rfl

/-- Whoever holds an object finds it there. -/
theorem Owned.present (owned : Owned heap holders) {id : Nat} (held : 0 < holders id) :
    ∃ cell, heap.cells id = some cell ∧ cell.freed = 0 ∧ cell.references = holders id := by
  have accounted := owned.accounted id
  cases found : heap.cells id with
  | none =>
    rw [found] at accounted
    exact absurd held (Nat.not_lt_of_le (Nat.le_of_eq accounted))
  | some cell =>
    rw [found] at accounted
    rcases accounted with ⟨live, count, -⟩ | ⟨-, none⟩
    · exact ⟨cell, rfl, live, count⟩
    · exact absurd held (Nat.not_lt_of_le (Nat.le_of_eq none))

theorem Owned.below (owned : Owned heap holders) {id : Nat} (held : 0 < holders id) :
    id < heap.known := by
  by_contra above
  obtain ⟨cell, found, -⟩ := owned.present held
  rw [owned.unknown id (Nat.not_lt.mp above)] at found
  cases found

theorem Owned.change (owned : Owned heap holders) {id : Nat} {next : Cell Object → Cell Object}
    (held : 0 < holders id)
    (own : ∀ cell, cell.freed = 0 → cell.references = holders id → Accounted (some (next cell)) (after id))
    (others : ∀ other, other ≠ id → after other = holders other) : Owned (heap.change id next) after := by
  obtain ⟨cell, found, live, count⟩ := owned.present held
  rw [Heap.change, found]
  dsimp only
  rw [if_pos live]
  exact owned.put ⟨le_rfl, owned.below held⟩ (own cell live count) others

theorem Owned.retain (owned : Owned heap holders) {id : Nat} (held : 0 < holders id)
    (more : ∀ other, after other = holders other + hold id other) : Owned (heap.retain id) after := by
  refine owned.change held (fun cell live count => .inl ⟨live, ?_, ?_⟩) fun other apart => ?_
  · rw [more, hold_self, ← count]
  · rw [more, hold_self]
    exact Nat.succ_pos _
  · rw [more, hold_other apart, Nat.add_zero]

theorem Owned.release (owned : Owned heap holders) {id : Nat}
    (less : ∀ other, holders other = after other + hold id other) : Owned (heap.release id) after := by
  have own := less id
  rw [hold_self] at own
  refine owned.change (by omega) (fun cell live count => ?_) fun other apart => ?_
  · by_cases last : cell.references = 1
    · exact .inr ⟨(if_pos last).trans (by omega), by omega⟩
    · refine .inl ⟨(if_neg last).trans live, ?_, by omega⟩
      dsimp only
      omega
  · rw [less other, hold_other apart, Nat.add_zero]

/-- When nobody holds anything, every object has been freed once. -/
theorem Owned.freed (owned : Owned heap holders) (nobody : ∀ id, holders id = 0) (id : Nat)
    {cell : Cell Object} (found : heap.cells id = some cell) : cell.freed = 1 := by
  have accounted := owned.accounted id
  rw [found, nobody] at accounted
  rcases accounted with ⟨-, -, held⟩ | ⟨once, -⟩
  exacts [absurd held (Nat.lt_irrefl 0), once]

end StreamRelay.Refcount
