import Mathlib.Logic.Function.Basic

/-! A block of memory of some size that is filled part after part. Stores outside of it
have no result. -/
namespace StreamRelay.Buffer

abbrev Memory := Nat → UInt8

/-- The bytes of a block of `size`. -/
def contents (size : Nat) (dst : Memory) : List UInt8 := (List.range size).map dst

/-- A store into a block of `size` bytes. -/
def write (size : Nat) (dst : Memory) (offset : Nat) (value : UInt8) : Option Memory :=
  if offset < size then some (Function.update dst offset value) else none

/-- The bytes of a block behind a part of it that is replaced. -/
def overlay (start length : Nat) (part : Nat → UInt8) (dst : Memory) : Memory := fun offset =>
  if start ≤ offset ∧ offset < start + length then part (offset - start) else dst offset

/-- `length` bytes of the source, from `srcOffset` on, into a block of `size` bytes. -/
def memcpy (size : Nat) (dst : Memory) (dstOffset : Nat) (src : List UInt8)
    (srcOffset length : Nat) : Option Memory :=
  if dstOffset + length ≤ size ∧ srcOffset + length ≤ src.length then
    some (overlay dstOffset length (fun i => src.getD (srcOffset + i) 0) dst)
  else none

theorem overlay_adjacent (start m n : Nat) (first second whole : Nat → UInt8) (dst : Memory)
    (left : ∀ i < m, first i = whole i) (right : ∀ i < n, second i = whole (m + i)) :
    overlay (start + m) n second (overlay start m first dst) = overlay start (m + n) whole dst := by
  funext offset
  unfold overlay
  by_cases later : start + m ≤ offset ∧ offset < start + m + n
  · rw [if_pos later, if_pos (by omega), right _ (by omega)]
    exact congrArg whole (by omega)
  · rw [if_neg later]
    by_cases earlier : start ≤ offset ∧ offset < start + m
    · rw [if_pos earlier, if_pos (by omega), left _ (by omega)]
    · rw [if_neg earlier, if_neg (by omega)]

theorem overlay_nothing (start : Nat) (part : Nat → UInt8) (dst : Memory) :
    overlay start 0 part dst = dst :=
  funext fun _ => if_neg (by omega)

theorem contents_overlay (size : Nat) (part : Nat → UInt8) (dst : Memory) :
    contents size (overlay 0 size part dst) = contents size part := by
  refine List.map_congr_left fun offset inside => ?_
  exact if_pos ⟨Nat.zero_le _, by simpa using inside⟩

/-- A part behind the bytes that are there. -/
theorem contents_append (size length : Nat) (part : Nat → UInt8) (dst : Memory) :
    contents (size + length) (overlay size length part dst) =
      contents size dst ++ contents length part := by
  rw [contents, List.range_add, List.map_append, List.map_map]
  refine congrArg₂ (· ++ ·) (List.map_congr_left fun offset inside => ?_)
    (List.map_congr_left fun offset inside => ?_)
  · have below := List.mem_range.mp inside
    exact if_neg (by omega)
  · have below : size ≤ size + offset ∧ size + offset < size + length :=
      ⟨Nat.le_add_right .., Nat.add_lt_add_left (List.mem_range.mp inside) _⟩
    exact (if_pos below).trans (congrArg part (Nat.add_sub_cancel_left ..))

theorem contents_slice (src : List UInt8) (start length : Nat) (inside : start + length ≤ src.length) :
    contents length (fun i => src.getD (start + i) 0) = (src.drop start).take length := by
  refine List.ext_getElem (by simp [contents]; omega) fun i below _ => ?_
  rw [contents, List.length_map, List.length_range] at below
  simp [contents, List.getD_eq_getElem?_getD, List.getElem?_eq_getElem (show start + i < src.length by omega)]

/-- Blocks of equal length, one after the other. -/
theorem flatMap_blocks {α : Type*} (block : Nat → List α) {length : Nat} (count : Nat)
    (even : ∀ i < count, (block i).length = length) {i j : Nat} (inside : i < count)
    (within : j < length) :
    ((List.range count).flatMap block)[i * length + j]? = (block i)[j]? := by
  have total (n : Nat) (few : n ≤ count) : ((List.range n).flatMap block).length = n * length := by
    induction n with
    | zero => simp
    | succ n ih =>
      rw [List.range_succ, List.flatMap_append, List.length_append, ih (by omega),
        List.flatMap_singleton, even n (by omega), Nat.succ_mul]
  induction count with
  | zero => exact absurd inside (Nat.not_lt_zero i)
  | succ count ih =>
    rw [List.range_succ, List.flatMap_append, List.flatMap_singleton]
    rcases Nat.lt_succ_iff_lt_or_eq.mp inside with before | rfl
    · have room : i * length + j < count * length :=
        calc i * length + j < i * length + length := Nat.add_lt_add_left within _
          _ = (i + 1) * length := (Nat.succ_mul ..).symm
          _ ≤ count * length := Nat.mul_le_mul_right _ before
      rw [List.getElem?_append_left (by rwa [total count (Nat.le_succ _)])]
      exact ih (fun i below => even i (by omega)) before fun n few => total n (by omega)
    · rw [List.getElem?_append_right (by rw [total i (Nat.le_succ _)]; omega),
        total i (Nat.le_succ _), Nat.add_sub_cancel_left]

end StreamRelay.Buffer
