import Mathlib

/-! A singly linked queue in a heap of nodes, with pointers to its first and last
node. Nodes outside the queue are held by one party each; memory is what is in
the queue or held, and the sizes of all values in it fit a capacity. -/
namespace StreamRelay.LinkedQueue

structure Node (Addr Value : Type*) where
  value : Value
  next : Option Addr
  deriving DecidableEq, Repr

abbrev Heap (Addr Value : Type*) := Addr → Option (Node Addr Value)

structure Ends (Addr : Type*) where
  head : Option Addr
  tail : Option Addr
  deriving DecidableEq, Repr

variable {Addr Value Holder : Type*}

/-- What is stored at a node, whatever it is linked to. -/
def valueAt (heap : Heap Addr Value) (node : Addr) : Option Value := (heap node).map Node.value

/-- The nodes reached from a link, with their values. -/
def Chain (heap : Heap Addr Value) : Option Addr → List Addr → List Value → Prop
  | link, [], [] => link = none
  | link, node :: nodes, value :: values =>
    link = some node ∧ ∃ next, heap node = some ⟨value, next⟩ ∧ Chain heap next nodes values
  | _, _, _ => False

structure Represents (heap : Heap Addr Value) (ends : Ends Addr) (nodes : List Addr)
    (values : List Value) : Prop where
  chain : Chain heap ends.head nodes values
  nodup : nodes.Nodup
  last : ends.tail = nodes.getLast?

/-- The ends once the first node, whose link is given, is taken out. -/
def Ends.pop (ends : Ends Addr) (next : Option Addr) : Ends Addr :=
  ⟨next, if next = none then none else ends.tail⟩

section Chain

variable {heap heap' : Heap Addr Value} {link : Option Addr} {nodes : List Addr} {values : List Value}

theorem Chain.length (chain : Chain heap link nodes values) : values.length = nodes.length := by
  induction nodes generalizing link values with
  | nil =>
    cases values with
    | nil => rfl
    | cons value values => exact chain.elim
  | cons node nodes ih =>
    cases values with
    | nil => exact chain.elim
    | cons value values =>
      obtain ⟨-, next, -, rest⟩ := chain
      simp [ih rest]

/-- A chain depends on its own nodes only. -/
theorem Chain.congr (chain : Chain heap link nodes values)
    (same : ∀ node ∈ nodes, heap' node = heap node) : Chain heap' link nodes values := by
  induction nodes generalizing link values with
  | nil => cases values <;> exact chain
  | cons node nodes ih =>
    cases values with
    | nil => exact chain
    | cons value values =>
      obtain ⟨first, next, stored, rest⟩ := chain
      exact ⟨first, next, (same node (by simp)).trans stored,
        ih rest fun later member => same later (by simp [member])⟩

theorem Chain.stored (chain : Chain heap link nodes values) :
    ∀ node ∈ nodes, ∃ old, heap node = some old := by
  induction nodes generalizing link values with
  | nil => simp
  | cons node nodes ih =>
    cases values with
    | nil => exact chain.elim
    | cons value values =>
      obtain ⟨-, next, stored, rest⟩ := chain
      intro other member
      rcases List.mem_cons.mp member with rfl | later
      · exact ⟨_, stored⟩
      · exact ih rest other later

theorem Chain.values_eq (chain : Chain heap link nodes values) :
    nodes.map (valueAt heap) = values.map some := by
  induction nodes generalizing link values with
  | nil =>
    cases values with
    | nil => rfl
    | cons value values => exact chain.elim
  | cons node nodes ih =>
    cases values with
    | nil => exact chain.elim
    | cons value values =>
      obtain ⟨-, next, stored, rest⟩ := chain
      simp [valueAt, stored, ih rest]

theorem Chain.empty_iff (chain : Chain heap link nodes values) : link = none ↔ nodes = [] := by
  cases nodes with
  | nil =>
    cases values with
    | nil => exact iff_of_true chain rfl
    | cons value values => exact chain.elim
  | cons node nodes =>
    cases values with
    | nil => exact chain.elim
    | cons value values => simp [chain.1]

end Chain

section Represents

variable {heap : Heap Addr Value} {ends : Ends Addr} {nodes : List Addr} {values : List Value}

theorem represents_empty (heap : Heap Addr Value) : Represents heap ⟨none, none⟩ [] [] :=
  ⟨rfl, List.nodup_nil, rfl⟩

theorem Represents.pop {node : Addr} {value : Value}
    (represents : Represents heap ends (node :: nodes) (value :: values)) :
    ends.head = some node ∧ ∃ next, heap node = some ⟨value, next⟩ ∧
      Represents heap (ends.pop next) nodes values := by
  obtain ⟨⟨first, next, stored, rest⟩, nodup, last⟩ := represents
  refine ⟨first, next, stored, rest, (List.nodup_cons.mp nodup).2, ?_⟩
  cases nodes with
  | nil => simp [Ends.pop, (rest.empty_iff).mpr rfl]
  | cons second nodes =>
    have more : next ≠ none := fun none => by simpa using rest.empty_iff.mp none
    rw [Ends.pop, if_neg more, last, List.getLast?_cons_cons]

end Represents

variable [DecidableEq Addr]

def setNext (heap : Heap Addr Value) (node : Addr) (next : Option Addr) : Heap Addr Value :=
  Function.update heap node ((heap node).map fun old => {old with next := next})

/-- Linking a node behind the last one. -/
def push (heap : Heap Addr Value) (ends : Ends Addr) (node : Addr) : Heap Addr Value × Ends Addr :=
  match ends.tail with
  | none => (setNext heap node none, ⟨some node, some node⟩)
  | some tail => (setNext (setNext heap node none) tail (some node), ⟨ends.head, some node⟩)

section Link

variable {heap : Heap Addr Value} {link : Option Addr} {ends : Ends Addr} {nodes : List Addr}
  {values : List Value}

theorem setNext_self (node : Addr) (value : Value) (next link : Option Addr)
    (stored : heap node = some ⟨value, next⟩) :
    setNext heap node link node = some ⟨value, link⟩ := by
  simp [setNext, stored]

theorem setNext_other (node other : Addr) (link : Option Addr) (apart : other ≠ node) :
    setNext heap node link other = heap other := by
  simp [setNext, apart]

/-- Linking another node behind the last of a chain. -/
theorem Chain.snoc (chain : Chain heap link nodes values) (nodup : nodes.Nodup) (tail node : Addr)
    (value : Value) (last : nodes.getLast? = some tail) (fresh : node ∉ nodes)
    (stored : heap node = some ⟨value, none⟩) :
    Chain (setNext heap tail (some node)) link (nodes ++ [node]) (values ++ [value]) := by
  induction nodes generalizing link values with
  | nil => cases last
  | cons first nodes ih =>
    cases values with
    | nil => exact chain.elim
    | cons own values =>
      obtain ⟨here, next, held, rest⟩ := chain
      rw [List.nodup_cons] at nodup
      simp only [List.mem_cons, not_or] at fresh
      have elsewhere : ∀ old ∈ nodes, first ≠ old := by
        rintro old member rfl
        exact nodup.1 member
      cases nodes with
      | nil =>
        obtain rfl : first = tail := by simpa using last
        cases values with
        | nil =>
          refine ⟨here, some node, setNext_self _ _ _ _ held, rfl, none, ?_, rfl⟩
          rw [setNext_other _ _ _ fresh.1, stored]
        | cons _ _ => exact rest.elim
      | cons second nodes =>
        rw [List.getLast?_cons_cons] at last
        have inside : tail ∈ second :: nodes := List.mem_of_getLast? last
        refine ⟨here, next, ?_, ih rest nodup.2 last fresh.2⟩
        rw [setNext_other _ _ _ (elsewhere tail inside), held]

theorem Represents.push (represents : Represents heap ends nodes values) (node : Addr) (value : Value)
    (next : Option Addr) (fresh : node ∉ nodes) (stored : heap node = some ⟨value, next⟩) :
    Represents (push heap ends node).1 (push heap ends node).2 (nodes ++ [node])
      (values ++ [value]) := by
  obtain ⟨chain, nodup, last⟩ := represents
  have cleared : Chain (setNext heap node none) ends.head nodes values :=
    chain.congr fun other member => setNext_other _ _ _ fun same => fresh (same ▸ member)
  have nodup' : (nodes ++ [node]).Nodup :=
    List.nodup_append.mpr ⟨nodup, List.nodup_singleton _, by
      rintro other member _ single rfl
      exact fresh (List.mem_singleton.mp single ▸ member)⟩
  unfold LinkedQueue.push
  cases tail : ends.tail with
  | none =>
    rw [tail] at last
    obtain rfl := List.getLast?_eq_none_iff.mp last.symm
    obtain rfl : values = [] := List.eq_nil_of_length_eq_zero chain.length
    exact ⟨⟨rfl, none, setNext_self _ _ _ _ stored, rfl⟩, nodup', rfl⟩
  | some final =>
    rw [tail] at last
    exact ⟨cleared.snoc nodup final node value last.symm fresh (setNext_self _ _ _ _ stored), nodup',
      by simp⟩

end Link

section Memory

variable (size : Value → Nat) (capacity : Nat)

/-- The size of what is stored at a node. -/
def sizeAt (heap : Heap Addr Value) (node : Addr) : Nat := (valueAt heap node).elim 0 size

/-- Live nodes are in the queue or held by one party, and their values fit. -/
structure Memory (heap : Heap Addr Value) (live : Finset Addr) (ends : Ends Addr)
    (holds : Holder → Option Addr) (nodes : List Addr) (values : List Value) : Prop where
  represents : Represents heap ends nodes values
  stored : ∀ node, node ∈ live ↔ (heap node).isSome
  held : ∀ holder node, holds holder = some node → node ∈ live ∧ node ∉ nodes
  apart : ∀ first second node, holds first = some node → holds second = some node → first = second
  fits : ∑ node ∈ live, sizeAt size heap node < capacity

variable {size capacity} {heap : Heap Addr Value} {live : Finset Addr} {ends : Ends Addr}
  {holds : Holder → Option Addr} {nodes : List Addr} {values : List Value}

omit [DecidableEq Addr] in
theorem memory_empty (positive : 0 < capacity) :
    Memory size capacity (fun _ => none : Heap Addr Value) ∅ ⟨none, none⟩
      (fun _ : Holder => none) [] [] where
  represents := represents_empty _
  stored := fun node => by simp
  held := fun _ _ holds => by cases holds
  apart := fun _ _ _ holds => by cases holds
  fits := by simpa using positive

omit [DecidableEq Addr] in
theorem Memory.queued (memory : Memory size capacity heap live ends holds nodes values) :
    ∀ node ∈ nodes, node ∈ live := by
  intro node member
  obtain ⟨old, stored⟩ := memory.represents.chain.stored node member
  exact (memory.stored node).mpr (by rw [stored]; rfl)

/-- What is queued and one held value together fit. -/
theorem Memory.room (memory : Memory size capacity heap live ends holds nodes values)
    {holder : Holder} {node : Addr} {value : Value} {next : Option Addr}
    (holding : holds holder = some node) (stored : heap node = some ⟨value, next⟩) :
    (values.map size).sum + size value < capacity := by
  obtain ⟨inside, fresh⟩ := memory.held holder node holding
  have sizes : nodes.map (sizeAt size heap) = values.map size := by
    have each := congrArg (List.map fun found : Option Value => found.elim 0 size)
      memory.represents.chain.values_eq
    rw [List.map_map, List.map_map] at each
    exact each
  have queue : (values.map size).sum = ∑ other ∈ nodes.toFinset, sizeAt size heap other := by
    rw [List.sum_toFinset _ memory.represents.nodup, sizes]
  have own : sizeAt size heap node = size value := by rw [sizeAt, valueAt, stored]; rfl
  refine Nat.lt_of_le_of_lt ?_ memory.fits
  rw [queue, ← own, Nat.add_comm, ← Finset.sum_insert (by simpa using fresh)]
  refine Finset.sum_le_sum_of_subset fun other member => ?_
  rcases Finset.mem_insert.mp member with rfl | queued
  · exact inside
  · exact memory.queued other (List.mem_toFinset.mp queued)

variable [DecidableEq Holder]

omit [DecidableEq Addr] in
/-- What is held when one party has got a node. -/
theorem holds_take {holder party : Holder} {node other : Addr}
    (holding : Function.update holds holder (some node) party = some other) :
    (party = holder ∧ other = node) ∨ (party ≠ holder ∧ holds party = some other) := by
  by_cases mine : party = holder
  · rw [mine, Function.update_self] at holding
    exact Or.inl ⟨mine, (Option.some.inj holding).symm⟩
  · rw [Function.update_of_ne mine] at holding
    exact Or.inr ⟨mine, holding⟩

omit [DecidableEq Addr] in
/-- A node that nobody held has then one holder. -/
theorem apart_take {holder : Holder} {node : Addr} (unheld : ∀ party, holds party ≠ some node)
    (apart : ∀ first second other, holds first = some other → holds second = some other →
      first = second) {first second : Holder} {other : Addr}
    (one : Function.update holds holder (some node) first = some other)
    (two : Function.update holds holder (some node) second = some other) : first = second := by
  rcases holds_take one with ⟨mine, rfl⟩ | ⟨-, left⟩
  · rcases holds_take two with ⟨mine', -⟩ | ⟨-, right⟩
    · exact mine.trans mine'.symm
    · exact absurd right (unheld second)
  · rcases holds_take two with ⟨-, rfl⟩ | ⟨-, right⟩
    · exact absurd left (unheld first)
    · exact apart first second other left right

/-- A party that holds nothing gets a node that was not in use. -/
theorem Memory.allocate (memory : Memory size capacity heap live ends holds nodes values)
    (holder : Holder) (node : Addr) (value : Value) (next : Option Addr) (unused : node ∉ live)
    (fits : ∑ other ∈ live, sizeAt size heap other + size value < capacity) :
    Memory size capacity (Function.update heap node (some ⟨value, next⟩)) (insert node live) ends
      (Function.update holds holder (some node)) nodes values := by
  have elsewhere (other : Addr) (inside : other ∈ live) :
      Function.update heap node (some ⟨value, next⟩) other = heap other := by
    refine Function.update_of_ne ?_ _ _
    rintro rfl
    exact unused inside
  refine ⟨⟨memory.represents.chain.congr fun other member => elsewhere other (memory.queued other member),
    memory.represents.nodup, memory.represents.last⟩, fun other => ?_, fun party other holding => ?_,
    fun first second other one two => ?_, ?_⟩
  · by_cases same : other = node
    · simp [same]
    · rw [Finset.mem_insert, Function.update_of_ne same, ← memory.stored]
      simp [same]
  · rcases holds_take holding with ⟨-, rfl⟩ | ⟨-, kept⟩
    · exact ⟨Finset.mem_insert_self .., fun queued => unused (memory.queued _ queued)⟩
    · obtain ⟨inside, out⟩ := memory.held party other kept
      exact ⟨Finset.mem_insert_of_mem inside, out⟩
  · apply apart_take _ memory.apart one two
    exact fun party theirs => unused (memory.held party node theirs).1
  · rw [Finset.sum_insert unused, Nat.add_comm]
    have own : sizeAt size (Function.update heap node (some ⟨value, next⟩)) node = size value := by
      simp [sizeAt, valueAt]
    have others : ∑ other ∈ live, sizeAt size (Function.update heap node (some ⟨value, next⟩)) other =
        ∑ other ∈ live, sizeAt size heap other :=
      Finset.sum_congr rfl fun other inside => by
        rw [sizeAt, valueAt, elsewhere other inside, sizeAt, valueAt]
    rw [own, others]
    exact fits

theorem valueAt_setNext (node other : Addr) (link : Option Addr) :
    valueAt (setNext heap node link) other = valueAt heap other := by
  by_cases same : other = node
  · subst same
    cases stored : heap other <;> simp [valueAt, setNext, stored]
  · rw [valueAt, setNext_other _ _ _ same, valueAt]

/-- Linking changes no value. -/
theorem valueAt_push (ends : Ends Addr) (node other : Addr) :
    valueAt (push heap ends node).1 other = valueAt heap other := by
  unfold push
  cases ends.tail with
  | none => exact valueAt_setNext ..
  | some tail => exact (valueAt_setNext ..).trans (valueAt_setNext ..)

omit [DecidableEq Addr] in
/-- What is left when one party gives its node up. -/
theorem holds_drop {holder party : Holder} {node : Addr}
    (holding : Function.update holds holder none party = some node) :
    party ≠ holder ∧ holds party = some node := by
  by_cases mine : party = holder
  · rw [mine, Function.update_self] at holding
    cases holding
  · rw [Function.update_of_ne mine] at holding
    exact ⟨mine, holding⟩

theorem Memory.push (memory : Memory size capacity heap live ends holds nodes values)
    (holder : Holder) (node : Addr) (value : Value) (next : Option Addr)
    (holding : holds holder = some node) (stored : heap node = some ⟨value, next⟩) :
    Memory size capacity (push heap ends node).1 live (push heap ends node).2
      (Function.update holds holder none) (nodes ++ [node]) (values ++ [value]) := by
  obtain ⟨-, fresh⟩ := memory.held holder node holding
  refine ⟨memory.represents.push node value next fresh stored, fun other => ?_,
    fun party other theirs => ?_, fun first second other one two => ?_, ?_⟩
  · have same := congrArg Option.isSome (valueAt_push ends node other : _ = valueAt heap other)
    rw [valueAt, valueAt, Option.isSome_map, Option.isSome_map] at same
    rw [same]
    exact memory.stored other
  · obtain ⟨apart, kept⟩ := holds_drop theirs
    obtain ⟨inside, out⟩ := memory.held party other kept
    refine ⟨inside, fun member => ?_⟩
    rcases List.mem_append.mp member with queued | new
    · exact out queued
    · obtain rfl := List.mem_singleton.mp new
      exact apart (memory.apart party holder other kept holding)
  · exact memory.apart first second other (holds_drop one).2 (holds_drop two).2
  · simp only [sizeAt, valueAt_push]
    exact memory.fits

omit [DecidableEq Addr] in
theorem Memory.pop {node : Addr} {value : Value}
    (memory : Memory size capacity heap live ends holds (node :: nodes) (value :: values))
    (holder : Holder) :
    ends.head = some node ∧ ∃ next, heap node = some ⟨value, next⟩ ∧
      Memory size capacity heap live (ends.pop next) (Function.update holds holder (some node)) nodes
        values := by
  obtain ⟨first, next, stored, rest⟩ := memory.represents.pop
  have unheld (party : Holder) : holds party ≠ some node := fun theirs =>
    (memory.held party node theirs).2 List.mem_cons_self
  refine ⟨first, next, stored, rest, memory.stored, fun party other holding => ?_,
    fun one two other left right => ?_, memory.fits⟩
  · rcases holds_take holding with ⟨-, rfl⟩ | ⟨-, kept⟩
    · exact ⟨memory.queued other List.mem_cons_self,
        (List.nodup_cons.mp memory.represents.nodup).1⟩
    · obtain ⟨inside, out⟩ := memory.held party other kept
      exact ⟨inside, fun member => out (List.mem_cons_of_mem _ member)⟩
  · exact apart_take unheld memory.apart left right

/-- Freeing what one party holds. -/
theorem Memory.free (memory : Memory size capacity heap live ends holds nodes values)
    (holder : Holder) (node : Addr) (holding : holds holder = some node) :
    Memory size capacity (Function.update heap node none) (live.erase node) ends
      (Function.update holds holder none) nodes values := by
  obtain ⟨inside, out⟩ := memory.held holder node holding
  have elsewhere (other : Addr) (apart : other ≠ node) :
      Function.update heap node none other = heap other := Function.update_of_ne apart _ _
  refine ⟨⟨memory.represents.chain.congr fun other member =>
      elsewhere other fun same => out (same ▸ member),
    memory.represents.nodup, memory.represents.last⟩, fun other => ?_, fun party other theirs => ?_,
    fun first second other one two => ?_, ?_⟩
  · by_cases same : other = node
    · simp [same]
    · rw [Finset.mem_erase, elsewhere other same, ← memory.stored]
      simp [same]
  · obtain ⟨apart, kept⟩ := holds_drop theirs
    obtain ⟨live', out'⟩ := memory.held party other kept
    refine ⟨Finset.mem_erase.mpr ⟨?_, live'⟩, out'⟩
    rintro rfl
    exact apart (memory.apart party holder other kept holding)
  · exact memory.apart first second other (holds_drop one).2 (holds_drop two).2
  · refine Nat.lt_of_le_of_lt ?_ memory.fits
    rw [Finset.sum_congr rfl fun other member => by
      rw [sizeAt, valueAt, elsewhere other (Finset.ne_of_mem_erase member)]]
    exact Finset.sum_le_sum_of_subset (Finset.erase_subset _ _)

end Memory

end StreamRelay.LinkedQueue
