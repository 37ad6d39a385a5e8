import StreamRelay.Checked
import Mathlib.Data.Fin.Basic
import Mathlib.Data.Int.Order.Basic
import Mathlib.Tactic.Linarith

/-! Vector registers as lanes, with the instructions on bytes and 32-bit integers. Integer
arithmetic is checked in every lane. -/
namespace StreamRelay.Simd
open Checked

/-- What all lanes give, if each gives something. -/
def collect {n : Nat} {α : Type*} (lanes : Fin n → Option α) : Option (Fin n → α) :=
  if present : ∀ i, (lanes i).isSome then some fun i => (lanes i).get (present i) else none

theorem collect_some {n : Nat} {α : Type*} {lanes : Fin n → Option α} {values : Fin n → α}
    (each : ∀ i, lanes i = some (values i)) : collect lanes = some values := by
  have present : ∀ i, (lanes i).isSome := by simp [each]
  rw [collect, dif_pos present]
  exact congrArg some (funext fun i => by simp [each])

section
variable {n : Nat} {α : Type*}

def set1 (x : α) : Fin n → α := fun _ => x

/-- The lower half of a register. -/
def low (v : Fin (n + n) → α) : Fin n → α := fun i => v (Fin.castAdd n i)

/-- The upper half of a register. -/
def high (v : Fin (n + n) → α) : Fin n → α := fun i => v (Fin.natAdd n i)

def addEpi32 (a b : Fin n → Int) : Option (Fin n → Int) := collect fun i => int32 (a i + b i)

def subEpi32 (a b : Fin n → Int) : Option (Fin n → Int) := collect fun i => int32 (a i - b i)

def mulloEpi32 (a b : Fin n → Int) : Option (Fin n → Int) := collect fun i => int32 (a i * b i)

def maxEpi32 (a b : Fin n → Int) : Fin n → Int := fun i => max (a i) (b i)

def minEpi32 (a b : Fin n → Int) : Fin n → Int := fun i => min (a i) (b i)

/-- The arithmetic shift to the right. -/
def sraiEpi32 (a : Fin n → Int) (count : Nat) : Fin n → Int := fun i => a i >>> count

end

/-- Bytes picked by index within each half; a negative index picks a zero. -/
def shuffleEpi8 (v : Fin 32 → UInt8) (pick : Fin 32 → Int) : Fin 32 → UInt8 := fun i =>
  if pick i < 0 then 0 else v ⟨16 * (i / 16) + (pick i).toNat % 16, by omega⟩

/-- The words of four bytes of the lower halves, alternating. -/
def unpackloEpi32 (a b : Fin 16 → UInt8) : Fin 16 → UInt8 := fun i =>
  let source : Fin 16 := ⟨4 * (i / 8) + i % 4, by omega⟩
  if i / 4 % 2 = 0 then a source else b source

/-- The first eight bytes, without sign, as integers. -/
def cvtepu8Epi32 (v : Fin 16 → UInt8) : Fin 8 → Int := fun i => (low v i).toNat

/-- The nearest value of an unsigned integer of the given greatest value. -/
def saturate (greatest x : Int) : Int := min (max x 0) greatest

/-- The value of a word of 16 bits read with a sign. -/
def signed16 (x : Int) : Int := if x < 32768 then x else x - 65536

def packusEpi32 (a b : Fin 4 → Int) : Fin 8 → Int := fun i =>
  saturate 65535 (if inside : i.val < 4 then a ⟨i, inside⟩ else b ⟨i - 4, by omega⟩)

def packusEpi16 (a b : Fin 8 → Int) : Fin 16 → UInt8 := fun i =>
  UInt8.ofNat (saturate 255 (signed16
    (if inside : i.val < 8 then a ⟨i, inside⟩ else b ⟨i - 8, by omega⟩))).toNat

/-- The lower eight bytes. -/
def storelEpi64 (v : Fin 16 → UInt8) : Fin 8 → UInt8 := low v

/-- Packing the halves twice gives the values of all lanes that are bytes. -/
theorem packus_bytes (v : Fin (4 + 4) → Int) (bytes : ∀ i, 0 ≤ v i ∧ v i ≤ 255) (i : Fin 8) :
    storelEpi64 (packusEpi16 (packusEpi32 (low v) (high v)) (packusEpi32 (low v) (high v))) i =
      UInt8.ofNat (v i).toNat := by
  have own : packusEpi32 (low v) (high v) i = v i := by
    have inside := bytes i
    have picked : (if inside : i.val < 4 then low v ⟨i, inside⟩ else high v ⟨i - 4, by omega⟩) =
        v i := by
      split
      · rfl
      · exact congrArg v (Fin.ext (by simp only [Fin.val_natAdd]; omega))
    rw [packusEpi32, picked, saturate]
    omega
  have inside := bytes i
  have first : (Fin.castAdd 8 i).val < 8 := i.isLt
  rw [storelEpi64, low, packusEpi16, dif_pos first]
  rw [show (⟨(Fin.castAdd 8 i).val, first⟩ : Fin 8) = i from rfl, own, signed16, if_pos (by omega),
    saturate]
  rw [show min (max (v i) 0) 255 = v i by omega]

end StreamRelay.Simd
